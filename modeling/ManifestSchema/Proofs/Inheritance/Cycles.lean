import Mathlib.Data.List.Cycle
import ManifestSchema.Proofs.Inheritance.Walk

/-!
# What is wrong with ancestors

The walk through the ancestors of a type notes a parent that stands on its own path, and a parent
that nothing is declared under. It cuts off parents that it has met before without a note, so it is
not plain that a cycle cannot slip through. It cannot: in the order in which types are left, only a
noted parent can come behind a type that extends it, and no cycle fits such an order.

Results:

1. `TypeSystem.Tour.left_pairwise`: a type is left behind what it extends, but for noted parents;
2. `TypeSystem.Tour.cycles_sound` and `TypeSystem.Tour.cycles_complete`: noted parents lie on
   cycles, and every cycle has one;
3. `TypeSystem.Tour.unresolved_perm`: each mention of an undeclared parent is noted once;
4. `TypeSystem.flatten_reports_ancestors`: all this for the ancestors of a type.
-/

namespace ManifestSchema

/-! ## Orders with exceptions -/

/-- Where `r` leads from a node of a list to a later one, or to itself, only for exceptions, nodes
that all lead to one another have an exception among them. -/
theorem exists_exception {α : Type} {r : α → α → Prop} {exceptions : List α} {p : α → Prop} :
    (l : List α) → (l.Pairwise fun a b => r a b → b ∈ exceptions) →
    (∀ a ∈ l, r a a → a ∈ exceptions) → (∃ a, p a) → (∀ a, p a → a ∈ l) →
    (∀ a, p a → ∃ b, p b ∧ r a b) → ∃ b, p b ∧ b ∈ exceptions
  | [], _, _, start, inside, _ => by
      obtain ⟨a, ha⟩ := start
      exact absurd (inside a ha) List.not_mem_nil
  | first :: rest, later, self, start, inside, next => by
      obtain ⟨behind, later⟩ := List.pairwise_cons.1 later
      by_cases h : p first
      · obtain ⟨b, hb, leads⟩ := next first h
        refine ⟨b, hb, ?_⟩
        rcases List.mem_cons.1 (inside b hb) with rfl | member
        · exact self b List.mem_cons_self leads
        · exact behind b member leads
      · refine exists_exception rest later (fun a ha => self a (List.mem_cons_of_mem _ ha)) start
          (fun a ha => ?_) next
        refine (List.mem_cons.1 (inside a ha)).resolve_left ?_
        rintro rfl
        exact h ha

/-- Each node of a cycle leads to a node of it. -/
theorem exists_next_of_chain {α : Type} {r : α → α → Prop} {cycle : Cycle α} (h : cycle.Chain r) :
    ∀ a ∈ cycle, ∃ b ∈ cycle, r a b := by
  induction cycle using Cycle.induction_on with
  | nil => exact fun a ha => absurd ha (Cycle.notMem_nil a)
  | cons first rest _ =>
      intro a ha
      rw [Cycle.chain_coe_cons] at h
      obtain ⟨before, after, split⟩ := List.append_of_mem (Cycle.mem_coe_iff.1 ha)
      have closed : first :: (rest ++ [first]) = before ++ a :: (after ++ [first]) := by
        rw [← List.cons_append, split, List.append_assoc, List.cons_append]
      rw [closed] at h
      cases after with
      | nil => exact ⟨first, by simp, (List.isChain_append_cons_cons.1 h).2.1⟩
      | cons b after =>
          refine ⟨b, ?_, (List.isChain_append_cons_cons.1 h).2.1⟩
          rw [Cycle.mem_coe_iff, split]
          simp

namespace TypeSystem

variable {ts : TypeSystem} {path met todo us cs : List String} {f : Forest} {key : String}

/-! ## Cycles -/

/-- `ts.Extends a b`: the type of the name `a` extends the class or interface of the name `b`. -/
def Extends (ts : TypeSystem) (a b : String) : Prop := b ∈ ts.supertypes a

/-- Types that can be reached from `key`, each of which extends the next one, and the last one the
first one. -/
structure IsCycle (ts : TypeSystem) (key : String) (cycle : Cycle String) : Prop where
  nonempty : ∃ name, name ∈ cycle
  chain : cycle.Chain ts.Extends
  reached : ∀ name ∈ cycle, ReachedFrom ts.supertypes [key] name

/-- A parent on the path is noted, and so is one that a type extends which is entered. -/
theorem Tour.notes (tour : ts.Tour path met todo f us cs) :
    (∀ b ∈ todo, b ∈ path → b ∈ cs) ∧
      ∀ a ∈ f.entered, ∀ b, ts.Extends a b → b = a ∨ b ∈ path → b ∈ cs := by
  induction tour with
  | done _ _ => exact ⟨fun _ h => absurd h List.not_mem_nil, fun _ h => absurd h List.not_mem_nil⟩
  | cycle on _ ih =>
      refine ⟨fun b hb h => ?_, fun a ha b e h => List.mem_cons_of_mem _ (ih.2 a ha b e h)⟩
      rcases List.mem_cons.1 hb with rfl | hb
      · exact List.mem_cons_self
      · exact List.mem_cons_of_mem _ (ih.1 b hb h)
  | again off _ _ ih | missing off _ _ _ ih | plain off _ _ _ _ ih =>
      refine ⟨fun b hb h => ?_, ih.2⟩
      rcases List.mem_cons.1 hb with rfl | hb
      · exact absurd h off
      · exact ih.1 b hb h
  | @enter path met rest us us' cs cs' inside f p d off _ found _ _ _ ih ih' =>
      refine ⟨fun b hb h => ?_, fun a ha b e h => ?_⟩
      · rcases List.mem_cons.1 hb with rfl | hb
        · exact absurd h off
        · exact List.mem_append_right _ (ih'.1 b hb h)
      · rw [Forest.entered, List.mem_cons, List.mem_append] at ha
        obtain rfl | ha | ha := ha
        · -- the parents of the type are gone through while it is on the path
          have parent := (List.mem_filter.1 e).1
          rw [parentsOf_of_find found] at parent
          exact List.mem_append_left _ (ih.1 b parent (List.mem_cons.2 h))
        · exact List.mem_append_left _ (ih.2 a ha b e (h.imp_right (List.mem_cons_of_mem _)))
        · exact List.mem_append_right _ (ih'.2 a ha b e h)

/-- In the order in which types are left, a type comes behind all that it extends, but for the
parents that are noted. -/
theorem Tour.left_pairwise (tour : ts.Tour path met todo f us cs) (onPath : path ⊆ met) :
    f.left.Pairwise fun a b => ts.Extends a b → b ∈ cs := by
  induction tour with
  | done _ _ => exact List.Pairwise.nil
  | cycle _ _ ih => exact (ih onPath).imp fun h e => List.mem_cons_of_mem _ (h e)
  | again _ _ _ ih | missing _ _ _ _ ih | plain _ _ _ _ _ ih => exact ih onPath
  | @enter path met rest us us' cs cs' inside f p d _ new found _ within behind ih ih' =>
      have onPath1 : p :: path ⊆ met ++ [p] :=
        List.cons_subset.2 ⟨by simp, fun _ h => List.mem_append_left _ (onPath h)⟩
      have onPath2 : path ⊆ met ++ p :: inside.entered := fun _ h =>
        List.mem_append_left _ (onPath h)
      have walk := within.depthFirst onPath1
      rw [← parentsOf_of_find found, List.append_assoc, List.singleton_append] at walk
      -- what is entered behind the type was not met inside it, so nothing in there leads to it
      have apart : ∀ a, a = p ∨ a ∈ inside.entered → ∀ b ∈ f.left, ¬ts.Extends a b := by
        intro a ha b hb e
        refine (behind.entered_new onPath2).2 b (Forest.mem_left_iff.1 hb) ?_
        obtain rfl | ha := ha
        · exact walk.todo_subset e
        · exact walk.closed a (by simp [ha]) ((within.entered_new onPath1).2 a ha) e
      refine List.pairwise_append.2 ⟨?_, List.pairwise_cons.2 ⟨?_, ?_⟩, ?_⟩
      · exact (ih onPath1).imp fun h e => List.mem_append_left _ (h e)
      · exact fun b hb e => absurd e (apart p (.inl rfl) b hb)
      · exact (ih' onPath2).imp fun h e => List.mem_append_right _ (h e)
      · intro a ha b hb e
        have ha := Forest.mem_left_iff.1 ha
        rcases List.mem_cons.1 hb with rfl | hb
        · exact List.mem_append_left _ (within.notes.2 a ha b e (.inr List.mem_cons_self))
        · exact absurd e (apart a (.inr ha) b hb)

/-- Every cycle of ancestors has a noted parent. -/
theorem Tour.cycles_complete (tour : ts.Tour [] [] [key] f us cs)
    (object : ts.namesObject key = true) {cycle : Cycle String} (h : ts.IsCycle key cycle) :
    ∃ name ∈ cs, name ∈ cycle := by
  have entered : ∀ name ∈ cycle, name ∈ f.left := fun name member =>
    Forest.mem_left_iff.2 ((tour.order object).mem_iff.2 (h.reached name member))
  obtain ⟨name, member, noted⟩ := exists_exception f.left (tour.left_pairwise (List.nil_subset _))
    (fun a ha e => tour.notes.2 a (Forest.mem_left_iff.1 ha) a e (.inl rfl))
    h.nonempty entered (exists_next_of_chain h.chain)
  exact ⟨name, noted, member⟩

/-- What is known of the path when a tour goes through the parents `todo` of the last type on it:
each type on it extends the one that stands before it in the list, and can be reached from `key`. -/
structure Stands (ts : TypeSystem) (key : String) (path todo : List String) : Prop where
  chain : path.IsChain fun b a => ts.Extends a b
  apart : path.Nodup
  reached : ∀ a ∈ path, ReachedFrom ts.supertypes [key] a
  objects : ∀ a ∈ path, ts.namesObject a = true
  step : ∀ a ∈ path.head?, ∀ b ∈ todo, ts.namesObject b = true → ts.Extends a b
  ahead : ∀ b ∈ todo, ts.namesObject b = true → ReachedFrom ts.supertypes [key] b

theorem stands_start (ts : TypeSystem) (key : String) : ts.Stands key [] [key] where
  chain := .nil
  apart := .nil
  reached := by simp
  objects := by simp
  step := by simp
  ahead := fun _ h _ => .start h

theorem Stands.rest {p : String} {rest : List String} (h : ts.Stands key path (p :: rest)) :
    ts.Stands key path rest :=
  { h with
    step := fun a ha b hb => h.step a ha b (List.mem_cons_of_mem _ hb)
    ahead := fun b hb => h.ahead b (List.mem_cons_of_mem _ hb) }

theorem Stands.enter {p : String} {rest : List String} {d : Definition}
    (h : ts.Stands key path (p :: rest)) (off : p ∉ path) (found : ts.find? p = some d)
    (isObject : d.isObject = true) : ts.Stands key (p :: path) d.parents := by
  have object := namesObject_iff.2 ⟨d, found, isObject⟩
  have here := h.ahead p List.mem_cons_self object
  have parents : ∀ b ∈ d.parents, ts.namesObject b = true → b ∈ ts.supertypes p := by
    intro b hb objectB
    rw [← parentsOf_of_find found] at hb
    exact List.mem_filter.2 ⟨hb, objectB⟩
  refine ⟨?_, List.nodup_cons.2 ⟨off, h.apart⟩, ?_, ?_, ?_, fun b hb o => ?_⟩
  · refine List.isChain_cons.2 ⟨fun a ha => ?_, h.chain⟩
    exact h.step a ha p List.mem_cons_self object
  · exact List.forall_mem_cons.2 ⟨here, h.reached⟩
  · exact List.forall_mem_cons.2 ⟨object, h.objects⟩
  · rintro a ha b hb o
    obtain rfl : p = a := by simpa using ha
    exact parents b hb o
  · exact here.step (parents b hb o)

/-- A parent on the path closes a cycle: the types on the path from it on. -/
theorem Stands.isCycle {p : String} {rest : List String} (h : ts.Stands key path (p :: rest))
    (on : p ∈ path) : ∃ cycle, ts.IsCycle key cycle ∧ cycle.Nodup ∧ p ∈ cycle := by
  obtain ⟨above, below, rfl⟩ := List.append_of_mem on
  have whole : (above ++ p :: below).IsChain fun b a => ts.Extends a b := h.chain
  rw [List.append_cons] at whole
  have part : (above ++ [p]).IsChain fun b a => ts.Extends a b := whole.left_of_append
  have closed : (p :: (above ++ [p])).IsChain fun b a => ts.Extends a b := by
    refine List.isChain_cons.2 ⟨fun a ha => ?_, part⟩
    have top : a ∈ (above ++ p :: below).head? := by cases above <;> simpa using ha
    exact h.step a top p List.mem_cons_self (h.objects p on)
  have distinct : (above ++ [p]).Nodup := by
    have apart := h.apart
    rw [List.append_cons] at apart
    exact (List.nodup_append.1 apart).1
  refine ⟨(p :: above.reverse : List String), ⟨⟨p, by simp⟩, ?_, ?_⟩, ?_, by simp⟩
  · rw [Cycle.chain_coe_cons, ← List.isChain_reverse]
    simpa using closed
  · intro name member
    refine h.reached name ?_
    rw [Cycle.mem_coe_iff, List.mem_cons, List.mem_reverse] at member
    rw [List.mem_append, List.mem_cons]
    exact member.elim (fun e => .inr (.inl e)) .inl
  · rw [Cycle.nodup_coe_iff]
    have turned := List.nodup_reverse.2 distinct
    simpa using turned

/-- Every noted parent lies on a cycle of ancestors. -/
theorem Tour.cycles_sound (tour : ts.Tour path met todo f us cs) (h : ts.Stands key path todo) :
    ∀ name ∈ cs, ∃ cycle, ts.IsCycle key cycle ∧ cycle.Nodup ∧ name ∈ cycle := by
  induction tour with
  | done _ _ => exact fun _ h => absurd h List.not_mem_nil
  | cycle on _ ih => exact List.forall_mem_cons.2 ⟨h.isCycle on, ih h.rest⟩
  | again _ _ _ ih | missing _ _ _ _ ih | plain _ _ _ _ _ ih => exact ih h.rest
  | enter off _ found isObject _ _ ih ih' =>
      intro name member
      exact (List.mem_append.1 member).elim (ih (h.enter off found isObject) name)
        (ih' h.rest name)

/-! ## Undeclared parents -/

/-- Each mention of a parent that nothing is declared under is noted once. -/
theorem Tour.unresolved_perm (tour : ts.Tour path met todo f us cs) (onPath : path ⊆ met)
    (objects : ∀ a ∈ met, ts.namesObject a = true) :
    us.Perm (todo.filter ts.lacks ++ f.entered.flatMap ts.missingParents) := by
  have declared : ∀ {p}, ts.namesObject p = true → ¬ts.lacks p = true := fun object => by
    simp [lacks_of_namesObject object]
  induction tour with
  | done _ _ => exact .nil
  | cycle on _ ih =>
      rw [List.filter_cons_of_neg (declared (objects _ (onPath on)))]
      exact ih onPath objects
  | again _ before _ ih =>
      rw [List.filter_cons_of_neg (declared (objects _ before))]
      exact ih onPath objects
  | missing _ _ undeclared _ ih =>
      rw [List.filter_cons_of_pos (by simp [lacks, undeclared])]
      exact (ih onPath objects).cons _
  | plain _ _ found _ _ ih =>
      rw [List.filter_cons_of_neg (by simp [lacks, found])]
      exact ih onPath objects
  | @enter path met rest us us' cs cs' inside f p d _ _ found isObject within _ ih ih' =>
      have object := namesObject_iff.2 ⟨d, found, isObject⟩
      have inner : us.Perm (ts.missingParents p ++ inside.entered.flatMap ts.missingParents) := by
        rw [missingParents, parentsOf_of_find found]
        refine ih (List.cons_subset.2 ⟨by simp, fun _ h => List.mem_append_left _ (onPath h)⟩) ?_
        exact List.forall_mem_append.2 ⟨objects, List.forall_mem_singleton.2 object⟩
      have outer : us'.Perm (rest.filter ts.lacks ++ f.entered.flatMap ts.missingParents) := by
        refine ih' (fun _ h => List.mem_append_left _ (onPath h)) ?_
        exact List.forall_mem_append.2
          ⟨objects, List.forall_mem_cons.2 ⟨object, within.namesObject_of_entered⟩⟩
      rw [List.filter_cons_of_neg (declared object), Forest.entered, List.flatMap_cons,
        List.flatMap_append, ← List.append_assoc (ts.missingParents p)]
      exact (inner.append outer).trans (List.perm_append_comm_assoc _ _ _)

/-- Where no parent is noted, nothing is inherited in a circle. -/
theorem not_isCycle_of_cycles_nil (keyed : ts.WellKeyed) {d : Definition}
    (found : ts.find? key = some d) (isObject : d.isObject = true)
    (none : (ts.flatten d).cycles = []) (cycle : Cycle String) : ¬ts.IsCycle key cycle := by
  intro h
  obtain ⟨f, tour, _⟩ := exists_tour_flatten keyed found isObject
  obtain ⟨name, noted, _⟩ :=
    tour.cycles_complete (namesObject_iff.2 ⟨d, found, isObject⟩) h
  rw [none] at noted
  exact List.not_mem_nil noted

/-- A noted parent closes a cycle, so where there is none, none is noted. -/
theorem cycles_nil_of_not_isCycle (keyed : ts.WellKeyed) {d : Definition}
    (found : ts.find? key = some d) (isObject : d.isObject = true)
    (none : ∀ cycle, ¬ts.IsCycle key cycle) : (ts.flatten d).cycles = [] := by
  obtain ⟨f, tour, _⟩ := exists_tour_flatten keyed found isObject
  refine List.eq_nil_iff_forall_not_mem.2 fun name noted => ?_
  obtain ⟨cycle, h, _⟩ := tour.cycles_sound (ts.stands_start key) name noted
  exact none cycle h

/-- What is noted about the ancestors of a type is exact. A noted parent lies on a cycle of
ancestors, without repetition, and every cycle of ancestors, repetitions or not, has a noted parent,
so none is noted exactly if there is no cycle. The undeclared names that are noted are those that
the type and its ancestors, each taken once, mention as parents, one for each mention. -/
theorem flatten_reports_ancestors (keyed : ts.WellKeyed) {d : Definition}
    (found : ts.find? key = some d) (isObject : d.isObject = true) :
    (∀ name ∈ (ts.flatten d).cycles,
      ∃ cycle, ts.IsCycle key cycle ∧ cycle.Nodup ∧ name ∈ cycle) ∧
    (∀ cycle, ts.IsCycle key cycle → ∃ name ∈ (ts.flatten d).cycles, name ∈ cycle) ∧
    ((ts.flatten d).cycles = [] ↔ ∀ cycle, ¬ts.IsCycle key cycle) ∧
    ∃ ancestors : List String, ancestors.Nodup ∧
      (∀ name, name ∈ ancestors ↔ ReachedFrom ts.supertypes [key] name) ∧
      (ts.flatten d).unresolved.Perm (ancestors.flatMap ts.missingParents) := by
  have object := namesObject_iff.2 ⟨d, found, isObject⟩
  obtain ⟨f, tour, _⟩ := exists_tour_flatten keyed found isObject
  refine ⟨tour.cycles_sound (ts.stands_start key), fun cycle => tour.cycles_complete object,
    ⟨not_isCycle_of_cycles_nil keyed found isObject,
      cycles_nil_of_not_isCycle keyed found isObject⟩, _,
    (tour.entered_new (List.nil_subset _)).1, fun _ => (tour.order object).mem_iff, ?_⟩
  have each := tour.unresolved_perm (List.nil_subset _) (fun _ h => absurd h List.not_mem_nil)
  rwa [List.filter_cons_of_neg (by simp [lacks_of_namesObject object]), List.filter_nil,
    List.nil_append] at each

/-- The trailer and its coupling extend each other; that both extend the vehicle is no cycle. -/
theorem flatten_reports_depot : Depot.types.WellKeyed ∧
    Depot.types.find? "depot.Trailer" = some Depot.trailer ∧ Depot.trailer.isObject = true ∧
    (Depot.types.flatten Depot.trailer).cycles = ["depot.Trailer"] ∧
    (Depot.types.flatten Depot.trailer).unresolved = ["depot.Gone", "depot.Gone"] ∧
    (∃ cycle, Depot.types.IsCycle "depot.Trailer" cycle ∧ "depot.Trailer" ∈ cycle) ∧
    ∃ ancestors : List String, "depot.Vehicle" ∈ ancestors ∧
      ["depot.Gone", "depot.Gone"].Perm (ancestors.flatMap Depot.types.missingParents) := by
  have found : Depot.types.find? "depot.Trailer" = some Depot.trailer := rfl
  have cycles : (Depot.types.flatten Depot.trailer).cycles = ["depot.Trailer"] := by
    decide +kernel
  have unresolved : (Depot.types.flatten Depot.trailer).unresolved =
      ["depot.Gone", "depot.Gone"] := by decide +kernel
  obtain ⟨sound, _, _, ancestors, _, reached, each⟩ :=
    flatten_reports_ancestors Depot.keyed found rfl
  rw [cycles] at sound
  rw [unresolved] at each
  obtain ⟨cycle, h, _, member⟩ := sound _ List.mem_cons_self
  refine ⟨Depot.keyed, found, rfl, cycles, unresolved, ⟨cycle, h, member⟩, ancestors, ?_, each⟩
  exact (reached _).2 (.step (.start List.mem_cons_self) (by decide +kernel))

end TypeSystem

end ManifestSchema
