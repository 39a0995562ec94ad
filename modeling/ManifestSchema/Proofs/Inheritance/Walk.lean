import ManifestSchema.Proofs.Ancestors
import ManifestSchema.Proofs.DepthFirst

/-!
# The forest of ancestors

The walk through the ancestors of a type enters classes and interfaces inside each other, so what it
enters is a forest. Everything that the walk gathers is read off this forest: the ancestors in the
order in which they are entered, the order in which they are left again, and what each of them
passes on. Nothing in the walk depends on what is passed on, so types may declare values of any
kind (`TypeSystem.gather`); for properties this is the walk itself.

Results:

1. `TypeSystem.gather_ownProperties`: the properties of types are gathered by this walk;
2. `TypeSystem.exists_tour_flatten`: every walk is a tour, which has a forest, and gathers what its
   forest passes on;
3. `TypeSystem.Tour.depthFirst` and `TypeSystem.Tour.order`: the types are entered in depth-first
   order.
-/

namespace ManifestSchema

/-! ## Values of any kind -/

namespace TypeSystem

variable {α : Type} {ts : TypeSystem}

/-- Go through the parents of a type in order with `visit` and gather the values that they pass
on. -/
def gatherParents (ts : TypeSystem) (visit : Definition → Walk → Dict α × Walk)
    (path : List String) : (parents : List String) → (inherited : Dict α) → Walk → Dict α × Walk
  | [], inherited, w => (inherited, w)
  | parent :: rest, inherited, w =>
      if parent ∈ path then
        ts.gatherParents visit path rest inherited { w with cycles := w.cycles ++ [parent] }
      else if parent ∈ w.seen then ts.gatherParents visit path rest inherited w
      else
        match ts.find? parent with
        | none =>
            ts.gatherParents visit path rest inherited
              { w with unresolved := w.unresolved ++ [parent] }
        | some d =>
            ts.gatherParents visit path rest (inherited.insertAll (visit d w).1) (visit d w).2

/-- The values of a type that is reached on a path, within a number of steps, where `own` gives the
values that a type declares itself. -/
def gatherWithin (ts : TypeSystem) (own : Definition → Dict α) : (steps : Nat) →
    (path : List String) → Definition → Walk → Dict α × Walk
  | 0, _, _, w => ([], w)
  | steps + 1, path, d, w =>
      if d.isObject then
        let found := ts.gatherParents (ts.gatherWithin own steps (d.fqn :: path)) (d.fqn :: path)
          d.parents [] { w with seen := d.fqn :: w.seen }
        ((own d).insertAllNew found.1, found.2)
      else ([], w)

theorem gatherParents_eq_walkParents (visit : Definition → Walk → Dict Property × Walk)
    (path parents : List String) (inherited : Dict Property) (w : Walk) :
    ts.gatherParents visit path parents inherited w =
      ts.walkParents visit path parents inherited w := by
  induction parents generalizing inherited w with
  | nil => rfl
  | cons parent rest ih =>
      cases found : ts.find? parent <;> simp only [gatherParents, walkParents, found, ih]

/-- The properties of types are gathered like any other values. -/
theorem gatherWithin_ownProperties (ts : TypeSystem) (steps : Nat) :
    ts.gatherWithin Definition.ownProperties steps = ts.flattenWithin steps := by
  induction steps with
  | zero => rfl
  | succ steps ih =>
      funext path d w
      rw [gatherWithin, flattenWithin_succ, ih, gatherParents_eq_walkParents]
      rfl

/-- All values of a type, its own and those that it inherits, where `own` gives the values that a
type declares itself. -/
def gather (ts : TypeSystem) (own : Definition → Dict α) (d : Definition) : Dict α :=
  (ts.gatherWithin own ts.walkBound [] d ⟨[], [], []⟩).1

theorem gather_ownProperties (ts : TypeSystem) (d : Definition) :
    ts.gather Definition.ownProperties d = (ts.flatten d).properties := by
  rw [gather, gatherWithin_ownProperties]
  rfl

end TypeSystem

/-! ## Forests -/

/-- The types that are entered on a walk. With each of them stand those that are entered inside it,
and the ones that are entered after it has been left. -/
inductive Forest
  | empty
  | tree (name : String) (inside rest : Forest)

namespace Forest

/-- The types in the order in which they are entered. -/
def entered : Forest → List String
  | empty => []
  | tree name inside rest => name :: (inside.entered ++ rest.entered)

/-- The types in the order in which they are left. -/
def left : Forest → List String
  | empty => []
  | tree name inside rest => inside.left ++ name :: rest.left

/-- What the types of a forest pass on, where `own` gives the values that a type has itself. What a
type has itself hides what is passed on to it, and of two types side by side the later one wins. -/
def gather {α : Type} (own : String → Dict α) : Forest → (inherited : Dict α) → Dict α
  | empty, inherited => inherited
  | tree name inside rest, inherited =>
      rest.gather own (inherited.insertAll ((own name).insertAllNew (inside.gather own [])))

theorem left_perm_entered : (f : Forest) → f.left.Perm f.entered
  | empty => .nil
  | tree _ inside rest =>
      List.perm_middle.trans
        ((inside.left_perm_entered.append rest.left_perm_entered).cons _)

theorem mem_left_iff {f : Forest} {name : String} : name ∈ f.left ↔ name ∈ f.entered :=
  f.left_perm_entered.mem_iff

end Forest

/-! ## Tours -/

/-- A walk adds what it meets to what it has seen, which it keeps with the last one first. -/
def Walk.after (w : Walk) (f : Forest) (unresolved cycles : List String) : Walk :=
  ⟨(w.seen.reverse ++ f.entered).reverse, w.unresolved ++ unresolved, w.cycles ++ cycles⟩

namespace TypeSystem

variable {ts : TypeSystem}

/-- Whether a name is that of a class or interface. -/
def namesObject (ts : TypeSystem) (name : String) : Bool :=
  (ts.find? name).any Definition.isObject

/-- Whether nothing is declared under a name. -/
def lacks (ts : TypeSystem) (name : String) : Bool := (ts.find? name).isNone

/-- The names that the type of a name extends, declared or not, in order. -/
def parentsOf (ts : TypeSystem) (name : String) : List String :=
  ((ts.find? name).map Definition.parents).getD []

/-- The classes and interfaces that the type of a name extends, in order. -/
def supertypes (ts : TypeSystem) (name : String) : List String :=
  (ts.parentsOf name).filter ts.namesObject

/-- The names that the type of a name extends although nothing is declared under them, in order. -/
def missingParents (ts : TypeSystem) (name : String) : List String :=
  (ts.parentsOf name).filter ts.lacks

/-- What the type of a name declares. -/
def ownBy {α : Type} (ts : TypeSystem) (own : Definition → Dict α) (name : String) : Dict α :=
  ((ts.find? name).map own).getD []

/-- `ts.Tour path met todo forest unresolved cycles`: a walk that has met `met` on the way and goes
through the parents `todo` of the last type on `path` enters `forest`, and notes `unresolved` and
`cycles`. -/
inductive Tour (ts : TypeSystem) : (path met todo : List String) → Forest →
    (unresolved cycles : List String) → Prop
  | done (path met : List String) : Tour ts path met [] .empty [] []
  | cycle {path met rest us cs : List String} {f : Forest} {p : String} :
      p ∈ path → Tour ts path met rest f us cs → Tour ts path met (p :: rest) f us (p :: cs)
  | again {path met rest us cs : List String} {f : Forest} {p : String} :
      p ∉ path → p ∈ met → Tour ts path met rest f us cs → Tour ts path met (p :: rest) f us cs
  | missing {path met rest us cs : List String} {f : Forest} {p : String} :
      p ∉ path → p ∉ met → ts.find? p = none → Tour ts path met rest f us cs →
      Tour ts path met (p :: rest) f (p :: us) cs
  | plain {path met rest us cs : List String} {f : Forest} {p : String} {d : Definition} :
      p ∉ path → p ∉ met → ts.find? p = some d → d.isObject = false →
      Tour ts path met rest f us cs → Tour ts path met (p :: rest) f us cs
  | enter {path met rest us us' cs cs' : List String} {inside f : Forest} {p : String}
      {d : Definition} :
      p ∉ path → p ∉ met → ts.find? p = some d → d.isObject = true →
      Tour ts (p :: path) (met ++ [p]) d.parents inside us cs →
      Tour ts path (met ++ p :: inside.entered) rest f us' cs' →
      Tour ts path met (p :: rest) (.tree p inside f) (us ++ us') (cs ++ cs')

theorem namesObject_iff {name : String} :
    ts.namesObject name = true ↔ ∃ d, ts.find? name = some d ∧ d.isObject = true := by
  cases found : ts.find? name <;> simp [namesObject, found]

theorem lacks_of_namesObject {name : String} (object : ts.namesObject name = true) :
    ts.lacks name = false := by
  obtain ⟨d, found, _⟩ := namesObject_iff.1 object
  simp [lacks, found]

theorem parentsOf_of_find {name : String} {d : Definition} (found : ts.find? name = some d) :
    ts.parentsOf name = d.parents := by
  simp [parentsOf, found]

theorem ownBy_of_find {α : Type} (own : Definition → Dict α) {name : String} {d : Definition}
    (found : ts.find? name = some d) : ts.ownBy own name = own d := by
  simp [ownBy, found]

/-- What a walk finds that has more steps than there are types off its path, whatever values it
gathers. -/
def Finds (ts : TypeSystem) (steps : Nat) (path parents : List String) (w : Walk) (f : Forest)
    (unresolved cycles : List String) : Prop :=
  ∀ (α : Type) (own : Definition → Dict α) (inherited : Dict α),
    ts.gatherParents (ts.gatherWithin own steps path) path parents inherited w =
      (f.gather (ts.ownBy own) inherited, w.after f unresolved cycles)

section Steps

variable {steps : Nat} {path rest us us' cs cs' : List String} {w : Walk} {f inside : Forest}
  {p : String} {d : Definition}

theorem finds_nil (steps : Nat) (path : List String) (w : Walk) :
    ts.Finds steps path [] w .empty [] [] := by
  intro α own inherited
  simp [gatherParents, Forest.gather, Walk.after, Forest.entered]

theorem Finds.cycle (on : p ∈ path)
    (h : ts.Finds steps path rest { w with cycles := w.cycles ++ [p] } f us cs) :
    ts.Finds steps path (p :: rest) w f us (p :: cs) := by
  intro α own inherited
  rw [gatherParents, if_pos on, h]
  simp [Walk.after]

theorem Finds.again (off : p ∉ path) (met : p ∈ w.seen) (h : ts.Finds steps path rest w f us cs) :
    ts.Finds steps path (p :: rest) w f us cs := by
  intro α own inherited
  rw [gatherParents, if_neg off, if_pos met, h]

theorem Finds.missing (off : p ∉ path) (new : p ∉ w.seen) (undeclared : ts.find? p = none)
    (h : ts.Finds steps path rest { w with unresolved := w.unresolved ++ [p] } f us cs) :
    ts.Finds steps path (p :: rest) w f (p :: us) cs := by
  intro α own inherited
  rw [gatherParents, if_neg off, if_neg new, undeclared]
  simp [h α own, Walk.after]

/-- What is neither a class nor an interface passes nothing on and is not remembered. -/
theorem Finds.plain (off : p ∉ path) (new : p ∉ w.seen) (found : ts.find? p = some d)
    (isPlain : d.isObject = false) (h : ts.Finds (steps + 1) path rest w f us cs) :
    ts.Finds (steps + 1) path (p :: rest) w f us cs := by
  intro α own inherited
  have visited : ts.gatherWithin own (steps + 1) path d w = ([], w) := by
    simp [gatherWithin, isPlain]
  rw [gatherParents, if_neg off, if_neg new, found]
  simp only [visited]
  exact h α own inherited

theorem Finds.enter (off : p ∉ path) (new : p ∉ w.seen) (found : ts.find? p = some d)
    (isObject : d.isObject = true) (named : d.fqn = p)
    (within : ts.Finds steps (p :: path) d.parents { w with seen := p :: w.seen } inside us cs)
    (behind : ts.Finds (steps + 1) path rest
      ({ w with seen := p :: w.seen }.after inside us cs) f us' cs') :
    ts.Finds (steps + 1) path (p :: rest) w (.tree p inside f) (us ++ us') (cs ++ cs') := by
  intro α own inherited
  have visited : ts.gatherWithin own (steps + 1) path d w =
      ((own d).insertAllNew (inside.gather (ts.ownBy own) []),
        { w with seen := p :: w.seen }.after inside us cs) := by
    rw [gatherWithin, if_pos isObject, named, within]
  rw [gatherParents, if_neg off, if_neg new, found]
  simp only [visited, behind α own, Forest.gather, ownBy_of_find own found]
  simp [Walk.after, Forest.entered]

end Steps

/-- A walk that has more steps than there are types off its path is a tour. -/
theorem exists_tour (keyed : ts.WellKeyed) (steps : Nat) :
    ∀ path parents (w : Walk), ts.room path < steps →
      ∃ f us cs, ts.Tour path w.seen.reverse parents f us cs ∧
        ts.Finds steps path parents w f us cs := by
  induction steps with
  | zero => exact fun _ _ _ room => absurd room (Nat.not_lt_zero _)
  | succ steps ih =>
      intro path parents
      induction parents with
      | nil => exact fun w _ => ⟨_, _, _, .done _ _, finds_nil _ _ _⟩
      | cons p rest others =>
          intro w room
          by_cases on : p ∈ path
          · obtain ⟨f, us, cs, tour, finds⟩ := others { w with cycles := w.cycles ++ [p] } room
            exact ⟨_, _, _, .cycle on tour, .cycle on finds⟩
          by_cases met : p ∈ w.seen
          · obtain ⟨f, us, cs, tour, finds⟩ := others w room
            exact ⟨_, _, _, .again on (List.mem_reverse.2 met) tour, .again on met finds⟩
          have new : p ∉ w.seen.reverse := fun h => met (List.mem_reverse.1 h)
          cases found : ts.find? p with
          | none =>
              obtain ⟨f, us, cs, tour, finds⟩ :=
                others { w with unresolved := w.unresolved ++ [p] } room
              exact ⟨_, _, _, .missing on new found tour, .missing on met found finds⟩
          | some d =>
              cases isObject : d.isObject with
              | false =>
                  obtain ⟨f, us, cs, tour, finds⟩ := others w room
                  exact ⟨_, _, _, .plain on new found isObject tour,
                    .plain on met found isObject finds⟩
              | true =>
                  -- the type stands under its own name, so it takes up room on the path
                  have named : d.fqn = p := keyed _ (Dict.mem_of_find? found)
                  have less := room_cons_lt (Dict.mem_keys_of_find? found) on
                  obtain ⟨inside, us, cs, tour, finds⟩ :=
                    ih (p :: path) d.parents { w with seen := p :: w.seen } (by omega)
                  obtain ⟨f, us', cs', tour', finds'⟩ :=
                    others ({ w with seen := p :: w.seen }.after inside us cs) room
                  refine ⟨_, _, _, .enter on new found isObject ?_ ?_,
                    .enter on met found isObject named finds finds'⟩
                  · simpa using tour
                  · simpa [Walk.after] using tour'

/-- The walk through the ancestors of a type is a tour that starts at its name, and what it gathers
for the type is what the forest of the tour passes on. -/
theorem exists_tour_of (keyed : ts.WellKeyed) {key : String} {d : Definition}
    (found : ts.find? key = some d) (isObject : d.isObject = true) :
    ∃ f us cs, ts.Tour [] [] [key] (.tree key f .empty) us cs ∧
      ∀ (α : Type) (own : Definition → Dict α),
        ts.gatherWithin own ts.walkBound [] d ⟨[], [], []⟩ =
          ((own d).insertAllNew (f.gather (ts.ownBy own) []),
            ⟨(key :: f.entered).reverse, us, cs⟩) := by
  have named : d.fqn = key := keyed _ (Dict.mem_of_find? found)
  have less : ts.room [key] < ts.walkBound - 1 := by
    have room := ts.room_cons_lt (Dict.mem_keys_of_find? found) (List.not_mem_nil (a := key))
    have bound := ts.room_lt_walkBound []
    omega
  obtain ⟨f, us, cs, tour, finds⟩ :=
    exists_tour keyed _ [key] d.parents ⟨[key], [], []⟩ less
  refine ⟨f, us, cs, ?_, fun α own => ?_⟩
  · have whole := Tour.enter List.not_mem_nil List.not_mem_nil found isObject tour (.done _ _)
    rwa [List.append_nil, List.append_nil] at whole
  · have bound : ts.walkBound = ts.walkBound - 1 + 1 := by omega
    rw [bound, gatherWithin, if_pos isObject, named, finds]
    simp [Walk.after]

/-- What is known of the ancestors of a type, and what they pass on to it, comes from one tour. -/
theorem exists_tour_flatten (keyed : ts.WellKeyed) {key : String} {d : Definition}
    (found : ts.find? key = some d) (isObject : d.isObject = true) :
    ∃ f, ts.Tour [] [] [key] (.tree key f .empty) (ts.flatten d).unresolved
        (ts.flatten d).cycles ∧
      ∀ (α : Type) (own : Definition → Dict α), (own d).Distinct →
        ts.gather own d = (Forest.tree key f .empty).gather (ts.ownBy own) [] := by
  obtain ⟨f, us, cs, tour, gathered⟩ := exists_tour_of keyed found isObject
  have walked := gathered Property Definition.ownProperties
  rw [gatherWithin_ownProperties] at walked
  refine ⟨f, by simpa only [flatten, walked] using tour, fun α own distinct => ?_⟩
  calc
    ts.gather own d = (own d).insertAllNew (f.gather (ts.ownBy own) []) :=
      congrArg Prod.fst (gathered α own)
    _ = Dict.ofList ((own d).insertAllNew (f.gather (ts.ownBy own) [])) :=
      (Dict.ofList_of_distinct (distinct.insertAllNew _)).symm
    _ = (Forest.tree key f .empty).gather (ts.ownBy own) [] := by
      rw [← ownBy_of_find own found]
      rfl

/-! ## Order -/

/-- The types that a tour enters are met in depth-first order behind those that were met before. -/
theorem Tour.depthFirst {path met todo us cs : List String} {f : Forest}
    (tour : ts.Tour path met todo f us cs) (onPath : path ⊆ met) :
    DepthFirst ts.supertypes met (todo.filter ts.namesObject) (met ++ f.entered) := by
  induction tour with
  | done path met => simpa [Forest.entered] using .done met
  | @cycle path met rest us cs f p on _ ih =>
      by_cases object : ts.namesObject p = true
      · rw [List.filter_cons_of_pos object]
        exact .again (onPath on) (ih onPath)
      · rw [List.filter_cons_of_neg object]
        exact ih onPath
  | @again path met rest us cs f p _ before _ ih =>
      by_cases object : ts.namesObject p = true
      · rw [List.filter_cons_of_pos object]
        exact .again before (ih onPath)
      · rw [List.filter_cons_of_neg object]
        exact ih onPath
  | missing _ _ undeclared _ ih =>
      rw [List.filter_cons_of_neg (by simp [namesObject, undeclared])]
      exact ih onPath
  | plain _ _ found isPlain _ ih =>
      rw [List.filter_cons_of_neg (by simp [namesObject, found, isPlain])]
      exact ih onPath
  | @enter path met rest us us' cs cs' inside f p d _ new found isObject _ _ ih ih' =>
      rw [List.filter_cons_of_pos (namesObject_iff.2 ⟨d, found, isObject⟩)]
      have within := ih (List.cons_subset.2 ⟨by simp, fun _ h => List.mem_append_left _ (onPath h)⟩)
      have behind := ih' fun _ h => List.mem_append_left _ (onPath h)
      rw [← parentsOf_of_find found, List.append_assoc, List.singleton_append] at within
      rw [List.append_assoc, List.cons_append] at behind
      exact .first new within behind

section Entered

variable {path met todo us cs : List String} {f : Forest}

/-- A tour enters each type once, and none that was met before. -/
theorem Tour.entered_new (tour : ts.Tour path met todo f us cs) (onPath : path ⊆ met) :
    f.entered.Nodup ∧ ∀ name ∈ f.entered, name ∉ met := by
  obtain ⟨_, same, apart, new⟩ := (tour.depthFirst onPath).exists_added
  obtain rfl := List.append_cancel_left same
  exact ⟨apart, new⟩

theorem Tour.namesObject_of_entered (tour : ts.Tour path met todo f us cs) :
    ∀ name ∈ f.entered, ts.namesObject name = true := by
  induction tour with
  | done _ _ => exact fun _ h => absurd h List.not_mem_nil
  | cycle _ _ ih | again _ _ _ ih | missing _ _ _ _ ih | plain _ _ _ _ _ ih => exact ih
  | enter _ _ found isObject _ _ ih ih' =>
      refine List.forall_mem_cons.2 ⟨namesObject_iff.2 ⟨_, found, isObject⟩, fun name h => ?_⟩
      exact (List.mem_append.1 h).elim (ih name) (ih' name)

/-- A tour that starts at a class or interface enters it and its ancestors in depth-first order. -/
theorem Tour.order {key : String} (tour : ts.Tour [] [] [key] f us cs)
    (object : ts.namesObject key = true) : DepthFirst ts.supertypes [] [key] f.entered := by
  have order := tour.depthFirst (List.nil_subset _)
  rwa [List.filter_cons_of_pos object] at order

end Entered

end TypeSystem

/-! ## Example -/

namespace Depot

/-- An interface that several others extend. -/
def vehicle : Definition :=
  .interfaceDef ⟨"depot.Vehicle", [],
    [⟨"name", .primitive .string, false, false, none⟩,
      ⟨"wheels", .primitive .number, false, false, none⟩], none⟩

/-- An interface that declares a property once more, and twice itself. -/
def motor : Definition :=
  .interfaceDef ⟨"depot.Motor", ["depot.Vehicle"],
    [⟨"name", .primitive .any, false, false, none⟩,
      ⟨"power", .primitive .number, false, false, none⟩,
      ⟨"COUNT", .primitive .number, false, true, none⟩,
      ⟨"name", .primitive .string, true, false, none⟩], none⟩

/-- A class that reaches the vehicle before the motor, which extends it. -/
def truck : Definition :=
  .classDef ⟨"depot.Truck", some "depot.Vehicle", ["depot.Motor", "depot.Vehicle"], none,
    [⟨"load", .primitive .number, false, false, none⟩], none⟩

/-- Two interfaces that extend each other. The first one names an undeclared one twice. -/
def trailer : Definition :=
  .interfaceDef ⟨"depot.Trailer",
    ["depot.Vehicle", "depot.Gone", "depot.Coupling", "depot.Gone"],
    [⟨"axles", .primitive .number, false, false, none⟩], none⟩

def coupling : Definition :=
  .interfaceDef ⟨"depot.Coupling", ["depot.Trailer", "depot.Vehicle"],
    [⟨"pin", .primitive .string, false, false, none⟩,
      ⟨"axles", .primitive .any, false, false, none⟩], none⟩

def types : TypeSystem :=
  ⟨[vehicle, motor, truck, trailer, coupling].map fun d => (d.fqn, d), []⟩

theorem keyed : types.WellKeyed := by
  unfold TypeSystem.WellKeyed
  decide

end Depot

end ManifestSchema
