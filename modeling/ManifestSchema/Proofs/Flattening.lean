import ManifestSchema.Proofs.Registry
import ManifestSchema.TypeSystem.Inheritance

/-!
# What the properties of a type depend on

The properties that a type ends up with, and what is noted about its ancestors, depend on the
definitions of the type and of its ancestors and on nothing else in the type system, not even on
its size, although the walk through the ancestors is given a number of steps that grows with it.

Results:

1. `TypeSystem.flattenWithin_steps`: once there are more steps than types off the current path, the
   number of steps makes no difference;
2. `TypeSystem.flatten_congr`: two type systems that agree on a type and its ancestors give it the
   same properties.
-/

namespace ManifestSchema

namespace TypeSystem

variable {ts ts' : TypeSystem}

/-- `ts.Inherits a b`: the name `b` is `a` or that of an ancestor of `a`, declared or not. -/
inductive Inherits (ts : TypeSystem) (a : String) : String → Prop
  | self : Inherits ts a a
  | parent {b c : String} {d : Definition} :
      Inherits ts a b → ts.find? b = some d → c ∈ d.parents → Inherits ts a c

theorem Inherits.above {a b c : String} {d : Definition} (found : ts.find? a = some d)
    (parent : b ∈ d.parents) (h : ts.Inherits b c) : ts.Inherits a c := by
  induction h with
  | self => exact Inherits.self.parent found parent
  | parent _ found' parent' ih => exact ih.parent found' parent'

/-- Names that contain a type and the parents of each of them contain all its ancestors. -/
theorem Inherits.mem_of_closed {a b : String} {names : List String} (h : ts.Inherits a b)
    (start : a ∈ names)
    (closed : ∀ name ∈ names, ∀ d, ts.find? name = some d → d.parents ⊆ names) : b ∈ names := by
  induction h with
  | self => exact start
  | parent _ found parent ih => exact closed _ ih _ found parent

/-! ## Parents -/

theorem walkParents_congr {visit visit' : Definition → Walk → Dict Property × Walk}
    {path : List String} : {parents : List String} → {inherited : Dict Property} → {w : Walk} →
    (∀ p ∈ parents, ts.find? p = ts'.find? p) →
    (∀ p ∈ parents, p ∉ path → ∀ d, ts.find? p = some d → visit d = visit' d) →
    ts.walkParents visit path parents inherited w = ts'.walkParents visit' path parents inherited w
  | [], _, _, _, _ => rfl
  | p :: rest, _, _, same, visits => by
      have others : ∀ i w,
          ts.walkParents visit path rest i w = ts'.walkParents visit' path rest i w := fun i w =>
        walkParents_congr (fun q hq => same q (List.mem_cons_of_mem _ hq))
          (fun q hq => visits q (List.mem_cons_of_mem _ hq))
      unfold walkParents
      simp only [others]
      rw [← same p List.mem_cons_self]
      split
      · rfl
      · next off =>
          cases found : ts.find? p with
          | none => rfl
          | some d => simp only [visits p List.mem_cons_self off d found]

theorem flattenWithin_succ (ts : TypeSystem) (n : Nat) (path : List String) (d : Definition)
    (w : Walk) :
    ts.flattenWithin (n + 1) path d w =
      if d.isObject then
        let found := ts.walkParents (ts.flattenWithin n (d.fqn :: path)) (d.fqn :: path) d.parents
          [] { w with seen := d.fqn :: w.seen }
        (d.ownProperties.inherit found.1, found.2)
      else ([], w) := rfl

/-! ## Steps -/

/-- The number of types that are not on a path. -/
def room (ts : TypeSystem) (path : List String) : Nat :=
  (ts.types.keys.filter fun name => name ∉ path).length

theorem room_cons_lt {name : String} {path : List String} (declared : name ∈ ts.types.keys)
    (off : name ∉ path) : ts.room (name :: path) < ts.room path := by
  have fewer : (ts.types.keys.filter fun n => n ∉ name :: path) =
      (ts.types.keys.filter fun n => n ∉ path).filter fun n => n ≠ name := by
    rw [List.filter_filter]
    simp
  unfold room
  rw [fewer, List.length_filter_lt_length_iff_exists]
  exact ⟨name, List.mem_filter.2 ⟨declared, by simpa using off⟩, by simp⟩

theorem room_le_size (ts : TypeSystem) (path : List String) : ts.room path ≤ ts.size := by
  have h := List.length_filter_le (fun name => decide (name ∉ path)) ts.types.keys
  rwa [Dict.keys, List.length_map] at h

/-- Each step deeper puts another type on the path, so the steps beyond the types that are not yet
on it are never used. -/
theorem flattenWithin_steps (keyed : ts.WellKeyed) (n : Nat) :
    ∀ m path d w, ts.room (d.fqn :: path) < n → ts.room (d.fqn :: path) < m →
      ts.flattenWithin n path d w = ts.flattenWithin m path d w := by
  induction n with
  | zero => exact fun _ _ _ _ h => absurd h (Nat.not_lt_zero _)
  | succ n ih =>
      intro m path d w hn hm
      cases m with
      | zero => exact absurd hm (Nat.not_lt_zero _)
      | succ m =>
          rw [flattenWithin_succ, flattenWithin_succ]
          have visits : ∀ p ∈ d.parents, p ∉ d.fqn :: path → ∀ d', ts.find? p = some d' →
              ts.flattenWithin n (d.fqn :: path) d' = ts.flattenWithin m (d.fqn :: path) d' := by
            intro p _ off d' found
            -- the parent stands under its own name, so it takes up room on the path
            have name : d'.fqn = p := keyed _ (Dict.mem_of_find? found)
            have less := room_cons_lt (Dict.mem_keys_of_find? found) off
            funext w
            apply ih <;> rw [name] <;> omega
          rw [walkParents_congr (fun _ _ => rfl) visits]

/-! ## Agreement -/

theorem flattenWithin_congr (n : Nat) :
    ∀ path d w, (∀ p ∈ d.parents, ∀ name, ts.Inherits p name → ts.find? name = ts'.find? name) →
      ts.flattenWithin n path d w = ts'.flattenWithin n path d w := by
  induction n with
  | zero => exact fun _ _ _ _ => rfl
  | succ n ih =>
      intro path d w same
      rw [flattenWithin_succ, flattenWithin_succ]
      have visits : ∀ p ∈ d.parents, p ∉ d.fqn :: path → ∀ d', ts.find? p = some d' →
          ts.flattenWithin n (d.fqn :: path) d' = ts'.flattenWithin n (d.fqn :: path) d' := by
        intro p parent _ d' found
        funext w
        exact ih _ d' w fun q hq name h => same p parent name (h.above found hq)
      rw [walkParents_congr (fun p hp => same p hp p .self) visits]

/-- Two type systems that agree on a type and all its ancestors give it the same properties and
note the same about its ancestors. -/
theorem flatten_congr (keyed : ts.WellKeyed) (keyed' : ts'.WellKeyed) {key : String}
    {d : Definition} (found : ts.find? key = some d)
    (same : ∀ name, ts.Inherits key name → ts.find? name = ts'.find? name) :
    ts.flatten d = ts'.flatten d := by
  have enough : ∀ t : TypeSystem, ∀ path, t.room path < t.walkBound := by
    intro t path
    calc
      t.room path < t.size + 1 := Nat.lt_succ_of_le (t.room_le_size path)
      _ ≤ t.walkBound := Nat.le_mul_of_pos_right _ (Nat.succ_pos _)
  have steps : ∀ w,
      ts.flattenWithin ts.walkBound [] d w = ts'.flattenWithin ts'.walkBound [] d w := by
    intro w
    have agree := flattenWithin_congr (ts.walkBound + ts'.walkBound) [] d w
      fun p hp name h => same name (h.above found hp)
    rw [flattenWithin_steps keyed _ (ts.walkBound + ts'.walkBound) [] d w (enough ts _)
        (Nat.lt_add_right _ (enough ts _)), agree,
      flattenWithin_steps keyed' _ _ [] d w (Nat.lt_add_left _ (enough ts' _)) (enough ts' _)]
  unfold flatten
  rw [steps]

end TypeSystem

end ManifestSchema
