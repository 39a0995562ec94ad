import Mathlib.Data.List.Perm.Subperm
import ManifestSchema.Proofs.Inheritance.Properties

/-!
# Hierarchies without shared ancestors

The walk through the ancestors of a type takes what it has met, and the path that it is on, from one
parent to the next, so what a parent passes on may depend on its siblings. It does so only where
they share an ancestor, or where an ancestor inherits in a circle. Where neither is the case, there
is one way from the type to each of its ancestors, and the walk does what a plain recursion does: it
asks each parent on its own and merges the answers.

Results:

1. `Dict.merges_inherit`: names and values after a merge;
2. `TypeSystem.Tour.plainly`: a walk that only comes to what it has not met is the plain recursion;
3. `TypeSystem.flatten_merges_parents`: the properties of a type in terms of those of its parents.
-/

namespace ManifestSchema

/-! ## Merging -/

namespace Dict

variable {α : Type}

/-- `Merges own passed merged`: the names of `merged` are those of `own` and behind them those of
the dictionaries in `passed`, each name where it first comes up. Its value is the one in `own`, if
it is there, and else that of the last dictionary in `passed` that has it. -/
structure Merges (own : Dict α) (passed : List (Dict α)) (merged : Dict α) : Prop where
  keys : merged.keys = (own.keys ++ passed.flatMap Dict.keys).eraseDups
  values : ∀ key, merged.find? key =
    (own.find? key).or (passed.reverse.findSome? fun d => d.find? key)

theorem keys_foldl_insertAll (passed : List (Dict α)) (d : Dict α) :
    (passed.foldl insertAll d).keys = appendNew d.keys (passed.flatMap Dict.keys) := by
  induction passed generalizing d with
  | nil => rfl
  | cons first rest ih =>
      rw [List.foldl_cons, ih, keys_insertAll_eq, List.flatMap_cons, appendNew_append]

theorem find?_foldl_insertAll {passed : List (Dict α)} (distinct : ∀ e ∈ passed, e.Distinct)
    (d : Dict α) (key : String) :
    (passed.foldl insertAll d).find? key =
      (passed.reverse.findSome? fun e => e.find? key).or (d.find? key) := by
  induction passed generalizing d with
  | nil => rfl
  | cons first rest ih =>
      obtain ⟨here, others⟩ := List.forall_mem_cons.1 distinct
      rw [List.foldl_cons, ih others, find?_insertAll here, List.reverse_cons,
        List.findSome?_append, List.findSome?_singleton, Option.or_assoc]

theorem appendNew_keys {d : Dict α} (distinct : d.Distinct) : appendNew [] d.keys = d.keys := by
  have same : ofList d = d := ofList_of_distinct distinct
  calc
    appendNew [] d.keys = (ofList d).keys := (keys_insertAll_eq [] d).symm
    _ = d.keys := by rw [same]

/-- To write what is passed on in order, and then behind one's own what is missing there, is to
merge. -/
theorem merges_inherit {own : Dict α} {passed : List (Dict α)} (distinct : own.Distinct)
    (distincts : ∀ d ∈ passed, d.Distinct) :
    Merges own passed (own.insertAllNew (passed.foldl insertAll [])) where
  keys := by
    rw [keys_insertAllNew, keys_foldl_insertAll, appendNew_appendNew, ← appendNew_nil,
      appendNew_append, appendNew_keys distinct]
    rfl
  values key := by
    rw [find?_insertAllNew, find?_foldl_insertAll distincts, find?_nil, Option.or_none]

end Dict

namespace TypeSystem

variable {ts : TypeSystem} {path met todo rest us cs : List String} {f : Forest}
  {key name p : String} {d : Definition} {steps : List Nat}

/-! ## The plain recursion -/

/-- What the declared ones of some parents pass on, where each of them is asked on its own. -/
def passedOn (ts : TypeSystem) (ask : Definition → Dict Property) (parents : List String) :
    List (Dict Property) :=
  parents.filterMap fun p => (ts.find? p).map ask

/-- The properties of a type with all inherited ones, gathered from the parents without regard to
what has been met on the way, within a number of steps. -/
def flattenPlainly (ts : TypeSystem) : (steps : Nat) → Definition → Dict Property
  | 0, _ => []
  | steps + 1, d =>
      if d.isObject then
        d.ownProperties.inherit
          ((ts.passedOn (ts.flattenPlainly steps) d.parents).foldl Dict.insertAll [])
      else []

theorem passedOn_cons_of_none (ask : Definition → Dict Property) (missing : ts.find? p = none) :
    ts.passedOn ask (p :: rest) = ts.passedOn ask rest := by
  unfold passedOn
  rw [List.filterMap_cons_none (by rw [missing, Option.map_none])]

theorem passedOn_cons_of_some (ask : Definition → Dict Property) (found : ts.find? p = some d) :
    ts.passedOn ask (p :: rest) = ask d :: ts.passedOn ask rest := by
  unfold passedOn
  rw [List.filterMap_cons_some (by rw [found, Option.map_some])]

theorem flattenPlainly_succ (steps : Nat) (isObject : d.isObject = true) :
    ts.flattenPlainly (steps + 1) d = d.ownProperties.insertAllNew
      ((ts.passedOn (ts.flattenPlainly steps) d.parents).foldl Dict.insertAll []) := by
  rw [flattenPlainly, if_pos isObject]
  rfl

theorem flattenPlainly_of_plain (steps : Nat) (isPlain : d.isObject = false) :
    ts.flattenPlainly steps d = [] := by
  cases steps with
  | zero => rfl
  | succ steps => rw [flattenPlainly, isPlain]; rfl

theorem flatten_of_plain (isPlain : d.isObject = false) : (ts.flatten d).properties = [] := by
  have bound : ts.walkBound = ts.walkBound - 1 + 1 := by
    have := ts.room_lt_walkBound []
    omega
  unfold flatten
  rw [bound, flattenWithin_succ, isPlain]
  rfl

/-! ## Ways -/

/-- `ts.Way start steps name`: from the type `start` one comes to the type `name` when one goes, step
by step, to the class or interface at this position among the parents. There are two ways to a
parent that is named twice. -/
inductive Way (ts : TypeSystem) : (start : String) → (steps : List Nat) → (name : String) → Prop
  | stay (name : String) : Way ts name [] name
  | up {start parent name : String} {i : Nat} {steps : List Nat} :
      (ts.parentsOf start)[i]? = some parent → ts.namesObject parent = true →
      Way ts parent steps name → Way ts start (i :: steps) name

/-- No ancestor of a type is shared: there is one way from the type to each that it comes to. -/
def IsTree (ts : TypeSystem) (key : String) : Prop :=
  ∀ name steps steps', ts.Way key steps name → ts.Way key steps' name → steps = steps'

/-- A way that starts with one of some parents. -/
inductive WayFrom (ts : TypeSystem) (parents : List String) :
    (steps : List Nat) → (name : String) → Prop
  | mk {parent name : String} {i : Nat} {steps : List Nat} :
      parents[i]? = some parent → ts.namesObject parent = true → ts.Way parent steps name →
      WayFrom ts parents (i :: steps) name

theorem WayFrom.way (h : ts.WayFrom (ts.parentsOf key) steps name) :
    ts.Way key steps name := by
  cases h with
  | mk position object way => exact .up position object way

theorem WayFrom.first (object : ts.namesObject p = true)
    (way : ts.Way p steps name) : ts.WayFrom (p :: rest) (0 :: steps) name :=
  .mk rfl object way

theorem WayFrom.later (h : ts.WayFrom rest steps name) :
    ∃ i inner, steps = i :: inner ∧ ts.WayFrom (p :: rest) ((i + 1) :: inner) name := by
  cases h with
  | mk position object way => exact ⟨_, _, rfl, .mk position object way⟩

theorem IsTree.parent (tree : ts.IsTree key) (found : ts.find? key = some d) (member : p ∈ d.parents)
    (object : ts.namesObject p = true) : ts.IsTree p := by
  intro name steps steps' way way'
  rw [← parentsOf_of_find found] at member
  obtain ⟨i, position⟩ := List.getElem?_of_mem member
  exact List.tail_eq_of_cons_eq (tree name _ _ (.up position object way) (.up position object way'))

/-- What a walk enters, it comes to by a way. -/
theorem Tour.way_of_entered (tour : ts.Tour path met todo f us cs) :
    ∀ name ∈ f.entered, ∃ steps, ts.WayFrom todo steps name := by
  have behind : ∀ {p rest name}, (∃ steps, ts.WayFrom rest steps name) →
      ∃ steps, ts.WayFrom (p :: rest) steps name := by
    rintro p rest name ⟨_, way⟩
    obtain ⟨i, inner, _, way⟩ := way.later (p := p)
    exact ⟨_, way⟩
  induction tour with
  | done _ _ => exact fun _ h => absurd h List.not_mem_nil
  | cycle _ _ ih | again _ _ _ ih | missing _ _ _ _ ih | plain _ _ _ _ _ ih =>
      exact fun name h => behind (ih name h)
  | enter _ _ found isObject _ _ ih ih' =>
      have object := namesObject_iff.2 ⟨_, found, isObject⟩
      intro name h
      rw [Forest.entered, List.mem_cons, List.mem_append] at h
      obtain rfl | h | h := h
      · exact ⟨_, .first object (.stay _)⟩
      · obtain ⟨steps, way⟩ := ih name h
        rw [← parentsOf_of_find found] at way
        exact ⟨_, .first object way.way⟩
      · exact behind (ih' name h)

/-! ## What is ahead -/

/-- What is known when a walk that has met `met` goes through the parents `todo` of a type without
shared ancestors: nothing that is ahead has been met, and there is one way to each type ahead. -/
structure Ahead (ts : TypeSystem) (met todo : List String) : Prop where
  objects : ∀ name ∈ met, ts.namesObject name = true
  unmet : ∀ name steps, ts.WayFrom todo steps name → name ∉ met
  once : ∀ name steps steps', ts.WayFrom todo steps name → ts.WayFrom todo steps' name →
    steps = steps'

theorem IsTree.ahead (tree : ts.IsTree key) : ts.Ahead [] [key] where
  objects _ h := absurd h List.not_mem_nil
  unmet _ _ _ := List.not_mem_nil
  once := by
    have first : ∀ {name steps}, ts.WayFrom [key] steps name →
        ∃ inner, steps = 0 :: inner ∧ ts.Way key inner name := by
      intro name steps way
      cases way with
      | @mk _ _ i _ position _ way =>
          cases i with
          | zero => cases position; exact ⟨_, rfl, way⟩
          | succ i => simp at position
    intro name steps steps' way way'
    obtain ⟨inner, rfl, inward⟩ := first way
    obtain ⟨inner', rfl, inward'⟩ := first way'
    rw [tree name inner inner' inward inward']

theorem Ahead.not_mem (h : ts.Ahead met (p :: rest)) (object : ts.namesObject p = true) :
    p ∉ met := h.unmet p [0] (.first object (.stay p))

theorem Ahead.tail (h : ts.Ahead met (p :: rest)) : ts.Ahead met rest where
  objects := h.objects
  unmet name steps way := by
    obtain ⟨_, _, _, way⟩ := way.later (p := p)
    exact h.unmet name _ way
  once name steps steps' way way' := by
    obtain ⟨i, inner, rfl, around⟩ := way.later (p := p)
    obtain ⟨i', inner', rfl, around'⟩ := way'.later (p := p)
    have same := h.once name _ _ around around'
    simpa using same

theorem Ahead.inside (h : ts.Ahead met (p :: rest)) (found : ts.find? p = some d)
    (isObject : d.isObject = true) : ts.Ahead (met ++ [p]) d.parents := by
  have object := namesObject_iff.2 ⟨d, found, isObject⟩
  rw [← parentsOf_of_find found]
  refine ⟨?_, fun name steps way member => ?_, fun name steps steps' way way' => ?_⟩
  · exact List.forall_mem_append.2 ⟨h.objects, List.forall_mem_singleton.2 object⟩
  · have around : ts.WayFrom (p :: rest) (0 :: steps) name := .first object way.way
    rcases List.mem_append.1 member with before | self
    · exact h.unmet name _ around before
    · -- one is at the type already, without going round to it again
      obtain rfl := List.mem_singleton.1 self
      have same := h.once name _ _ around (.first object (.stay name))
      cases way
      simp at same
  · exact List.tail_eq_of_cons_eq
      (h.once name _ _ (.first object way.way) (.first object way'.way))

theorem Ahead.behind {inside : Forest} (h : ts.Ahead met (p :: rest))
    (found : ts.find? p = some d) (isObject : d.isObject = true)
    (entered : ∀ name ∈ inside.entered, ∃ steps, ts.WayFrom d.parents steps name)
    (objects : ∀ name ∈ inside.entered, ts.namesObject name = true) :
    ts.Ahead (met ++ p :: inside.entered) rest := by
  have object := namesObject_iff.2 ⟨d, found, isObject⟩
  -- what has been entered is reached through `p`, and what is behind by another way
  have through : ∀ name ∈ p :: inside.entered, ∃ steps, ts.WayFrom (p :: rest) (0 :: steps) name := by
    refine List.forall_mem_cons.2 ⟨⟨[], .first object (.stay p)⟩, fun name member => ?_⟩
    obtain ⟨steps, way⟩ := entered name member
    rw [← parentsOf_of_find found] at way
    exact ⟨steps, .first object way.way⟩
  refine { h.tail with
    objects := List.forall_mem_append.2 ⟨h.objects, List.forall_mem_cons.2 ⟨object, objects⟩⟩
    unmet := fun name steps way member => ?_ }
  rcases List.mem_append.1 member with before | inside
  · exact h.tail.unmet name steps way before
  · obtain ⟨i, inner, rfl, other⟩ := way.later (p := p)
    obtain ⟨steps, one⟩ := through name inside
    have same := h.once name _ _ other one
    simp at same

/-! ## The walk in a tree -/

/-- A walk that only comes to what it has not met asks each parent on its own. -/
theorem Tour.plainly (tour : ts.Tour path met todo f us cs) (onPath : path ⊆ met)
    (ahead : ts.Ahead met todo) : ∀ n inherited, f.entered.length ≤ n →
      (ts.passedOn (ts.flattenPlainly n) todo).foldl Dict.insertAll inherited =
        f.gather (ts.ownBy Definition.ownProperties) inherited := by
  induction tour with
  | done _ _ => exact fun _ _ _ => rfl
  | cycle on _ _ =>
      have before := onPath on
      exact absurd before (ahead.not_mem (ahead.objects _ before))
  | again _ before _ _ => exact absurd before (ahead.not_mem (ahead.objects _ before))
  | missing _ _ undeclared _ ih =>
      intro n inherited bound
      rw [passedOn_cons_of_none _ undeclared]
      exact ih onPath ahead.tail n inherited bound
  | plain _ _ found isPlain _ ih =>
      intro n inherited bound
      rw [passedOn_cons_of_some _ found, flattenPlainly_of_plain n isPlain]
      exact ih onPath ahead.tail n inherited bound
  | @enter path met rest us us' cs cs' inside f p d _ _ found isObject within _ ih ih' =>
      intro n inherited bound
      rw [Forest.entered, List.length_cons, List.length_append] at bound
      obtain ⟨m, rfl⟩ := Nat.exists_eq_succ_of_ne_zero (Nat.ne_zero_of_lt bound)
      have asked := ih (List.cons_subset.2 ⟨by simp, fun _ h => List.mem_append_left _ (onPath h)⟩)
        (ahead.inside found isObject) m [] (by omega)
      have behind := ih' (fun _ h => List.mem_append_left _ (onPath h))
        (ahead.behind found isObject within.way_of_entered within.namesObject_of_entered)
        (m + 1)
      rw [passedOn_cons_of_some _ found, flattenPlainly_succ m isObject, asked, List.foldl_cons,
        behind _ (by omega), Forest.gather, ownBy_of_find _ found]

/-- A walk enters no more types than there are. -/
theorem Tour.length_entered_le (tour : ts.Tour path met todo f us cs) (onPath : path ⊆ met) :
    f.entered.length ≤ ts.size := by
  have declared : f.entered ⊆ ts.types.keys := by
    intro name entered
    obtain ⟨d, found, _⟩ := namesObject_iff.1 (tour.namesObject_of_entered name entered)
    exact Dict.mem_keys_of_find? found
  have fewer := (List.subperm_of_subset (tour.entered_new onPath).1 declared).length_le
  rwa [Dict.keys, List.length_map] at fewer

/-- Without shared ancestors, the plain recursion gathers the properties of a type. -/
theorem flattenPlainly_eq (keyed : ts.WellKeyed) (found : ts.find? key = some d)
    (isObject : d.isObject = true) (tree : ts.IsTree key) {n : Nat} (enough : ts.size < n) :
    ts.flattenPlainly n d = (ts.flatten d).properties := by
  obtain ⟨f, tour, gathered⟩ := exists_tour_flatten keyed found isObject
  have passed := gathered Property Definition.ownProperties d.distinct_ownProperties
  rw [gather_ownProperties] at passed
  have few := tour.length_entered_le (List.nil_subset _)
  have plain := tour.plainly (List.nil_subset _) tree.ahead n [] (by omega)
  rw [← passed, passedOn_cons_of_some _ found] at plain
  obtain ⟨m, rfl⟩ := Nat.exists_eq_succ_of_ne_zero (Nat.ne_zero_of_lt enough)
  have distinct : (ts.flattenPlainly (m + 1) d).Distinct := by
    rw [flattenPlainly_succ m isObject]
    exact d.distinct_ownProperties.insertAllNew _
  calc
    ts.flattenPlainly (m + 1) d = Dict.ofList (ts.flattenPlainly (m + 1) d) :=
      (Dict.ofList_of_distinct distinct).symm
    _ = (ts.flatten d).properties := plain

end TypeSystem

/-! ## Example -/

namespace Yard

/-- Two parents with a property in common, the second of which has an ancestor of its own. -/
def sail : Definition :=
  .interfaceDef ⟨"yard.Sail", [],
    [⟨"drive", .primitive .string, false, false, none⟩,
      ⟨"area", .primitive .string, false, false, none⟩], none⟩

def engine : Definition :=
  .interfaceDef ⟨"yard.Engine", ["yard.Machine"],
    [⟨"drive", .primitive .number, true, false, none⟩], none⟩

def machine : Definition :=
  .interfaceDef ⟨"yard.Machine", [], [⟨"area", .primitive .boolean, true, false, none⟩], none⟩

/-- A class that also names an undeclared parent, twice. -/
def boat : Definition :=
  .classDef ⟨"yard.Boat", some "yard.Gone", ["yard.Sail", "yard.Engine", "yard.Gone"], none,
    [⟨"name", .primitive .string, false, false, none⟩], none⟩

def types : TypeSystem := ⟨[sail, engine, machine, boat].map fun d => (d.fqn, d), []⟩

theorem way_of_root {key name : String} {steps : List Nat} (root : types.parentsOf key = [])
    (way : types.Way key steps name) : (steps, name) = ([], key) := by
  cases way with
  | stay _ => rfl
  | up position _ _ => simp [root] at position

/-- All ways from the boat. -/
theorem way_of_boat {name : String} {steps : List Nat} (way : types.Way "yard.Boat" steps name) :
    (steps, name) ∈ [([], "yard.Boat"), ([1], "yard.Sail"), ([2], "yard.Engine"),
      ([2, 0], "yard.Machine")] := by
  have parents : types.parentsOf "yard.Boat" =
      ["yard.Gone", "yard.Sail", "yard.Engine", "yard.Gone"] := rfl
  have gone : types.namesObject "yard.Gone" = false := by decide
  cases way with
  | stay _ => simp
  | @up _ parent _ i inner position object way =>
      rw [parents] at position
      match i with
      | 0 | 3 => simp_all
      | 1 =>
          cases position
          simp [Prod.mk.inj (way_of_root rfl way)]
      | 2 =>
          cases position
          cases way with
          | stay _ => simp
          | @up _ _ _ j _ position _ way =>
              have machine : types.parentsOf "yard.Engine" = ["yard.Machine"] := rfl
              rw [machine] at position
              cases j with
              | zero =>
                  cases position
                  simp [Prod.mk.inj (way_of_root rfl way)]
              | succ j => simp at position
      | n + 4 => simp at position

theorem boat_isTree : types.IsTree "yard.Boat" := by
  intro name steps steps' way way'
  have one := way_of_boat way
  have other := way_of_boat way'
  simp only [List.mem_cons, Prod.mk.injEq, List.not_mem_nil, or_false] at one other
  rcases one with ⟨rfl, rfl⟩ | ⟨rfl, rfl⟩ | ⟨rfl, rfl⟩ | ⟨rfl, rfl⟩ <;> simp_all

end Yard

namespace TypeSystem

end TypeSystem

end ManifestSchema
