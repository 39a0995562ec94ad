import ManifestSchema.Proofs.Flattening

/-!
# The walk through ancestors ends

The properties of a type are gathered on a walk through its ancestors, which may extend each other
in a circle or be reached on several paths. Each step of the walk puts another name on its path, so
the number of steps that it is given is never used up, and what has been entered is never entered
again.

Results:

1. `TypeSystem.visitWith_iff`: the walk is the only solution of its recursion;
2. `TypeSystem.once_entered`: it enters each class or interface at most once.
-/

namespace ManifestSchema

namespace TypeSystem

variable {ts : TypeSystem}

/-! ## Steps -/

/-- One visit of the walk through ancestors, where the ancestors are visited with `visit`. -/
def visitWith (ts : TypeSystem) (visit : List String → Definition → Walk → Dict Property × Walk)
    (path : List String) (d : Definition) (w : Walk) : Dict Property × Walk :=
  if d.isObject then
    let found := ts.walkParents (visit (d.fqn :: path)) (d.fqn :: path) d.parents []
      { w with seen := d.fqn :: w.seen }
    (d.ownProperties.inherit found.1, found.2)
  else ([], w)

theorem room_lt_walkBound (ts : TypeSystem) (path : List String) : ts.room path < ts.walkBound :=
  calc
    ts.room path < ts.size + 1 := Nat.lt_succ_of_le (ts.room_le_size path)
    _ ≤ ts.walkBound := Nat.le_mul_of_pos_right _ (Nat.succ_pos _)

/-- The walk visits the ancestors as it visits the type. -/
theorem flattenWithin_visits (keyed : ts.WellKeyed) (path : List String) (d : Definition)
    (w : Walk) :
    ts.flattenWithin ts.walkBound path d w =
      ts.visitWith (ts.flattenWithin ts.walkBound) path d w := by
  have bound := ts.room_lt_walkBound (d.fqn :: path)
  calc
    ts.flattenWithin ts.walkBound path d w = ts.flattenWithin (ts.walkBound + 1) path d w :=
      flattenWithin_steps keyed _ _ path d w bound (Nat.lt_succ_of_lt bound)
    _ = ts.visitWith (ts.flattenWithin ts.walkBound) path d w := flattenWithin_succ ts _ path d w

/-- What visits ancestors as it visits the type is the walk, as soon as the walk has a step for each
type off the path. -/
theorem eq_flattenWithin (keyed : ts.WellKeyed)
    {visit : List String → Definition → Walk → Dict Property × Walk}
    (visits : ∀ path d w, visit path d w = ts.visitWith visit path d w) (n : Nat) :
    ∀ path d w, ts.room (d.fqn :: path) < n → visit path d w = ts.flattenWithin n path d w := by
  induction n with
  | zero => exact fun _ _ _ h => absurd h (Nat.not_lt_zero _)
  | succ n ih =>
      intro path d w hn
      have ancestors : ∀ p ∈ d.parents, p ∉ d.fqn :: path → ∀ d', ts.find? p = some d' →
          visit (d.fqn :: path) d' = ts.flattenWithin n (d.fqn :: path) d' := by
        intro p _ off d' found
        have name : d'.fqn = p := keyed _ (Dict.mem_of_find? found)
        have less := room_cons_lt (Dict.mem_keys_of_find? found) off
        funext w
        apply ih
        rw [name]
        omega
      rw [visits, visitWith, walkParents_congr (fun _ _ => rfl) ancestors, flattenWithin_succ]

/-- The walk is the only solution of its recursion. -/
theorem visitWith_iff (keyed : ts.WellKeyed)
    {visit : List String → Definition → Walk → Dict Property × Walk} :
    (∀ path d w, visit path d w = ts.visitWith visit path d w) ↔
      visit = ts.flattenWithin ts.walkBound := by
  constructor
  · intro visits
    funext path d w
    exact eq_flattenWithin keyed visits _ path d w (ts.room_lt_walkBound _)
  · rintro rfl
    exact flattenWithin_visits keyed

/-! ## Visits -/

/-- The names of the classes and interfaces that are entered to flatten a type, the last one first:
each of them is noted as seen when it is entered, and nothing else is. -/
def entered (ts : TypeSystem) (d : Definition) : List String :=
  (ts.flattenWithin ts.walkBound [] d ⟨[], [], []⟩).2.seen

/-- No name comes up twice, and each is `start` or the name of a class or interface. -/
structure Once (ts : TypeSystem) (start : String) (names : List String) : Prop where
  apart : names.Nodup
  objects : ∀ name ∈ names, name = start ∨ ∃ d, ts.find? name = some d ∧ d.isObject = true

theorem Once.nil (ts : TypeSystem) (start : String) : ts.Once start [] :=
  ⟨List.nodup_nil, fun _ h => absurd h List.not_mem_nil⟩

theorem Once.enter {start name : String} {names : List String} {d : Definition}
    (once : ts.Once start names) (new : name ∉ names) (found : ts.find? name = some d)
    (isObject : d.isObject = true) : ts.Once start (name :: names) :=
  ⟨List.nodup_cons.2 ⟨new, once.apart⟩,
    List.forall_mem_cons.2 ⟨.inr ⟨d, found, isObject⟩, once.objects⟩⟩

theorem Once.walkParents {start : String} {visit : Definition → Walk → Dict Property × Walk}
    {path : List String}
    (visits : ∀ name d w, ts.find? name = some d → name ∉ w.seen → ts.Once start w.seen →
      ts.Once start (visit d w).2.seen) :
    ∀ parents inherited w, ts.Once start w.seen →
      ts.Once start (ts.walkParents visit path parents inherited w).2.seen := by
  intro parents
  induction parents with
  | nil => exact fun _ _ once => once
  | cons parent rest ih =>
      intro inherited w once
      rw [TypeSystem.walkParents]
      split
      · exact ih _ _ once
      · split
        · exact ih _ _ once
        · next new =>
            cases found : ts.find? parent with
            | none => exact ih _ _ once
            | some d => exact ih _ _ (visits parent d w found new once)

theorem Once.flattenWithin (keyed : ts.WellKeyed) {start : String} (n : Nat) :
    ∀ path d w, (d.isObject = true → ts.Once start (d.fqn :: w.seen)) → ts.Once start w.seen →
      ts.Once start (ts.flattenWithin n path d w).2.seen := by
  induction n with
  | zero => exact fun _ _ _ _ once => once
  | succ n ih =>
      intro path d w entering once
      rw [flattenWithin_succ]
      split
      · next isObject =>
          refine Once.walkParents (fun name d' w' found new once' => ?_) _ _ _ (entering isObject)
          -- the walk asks for names that it has not seen, and a visit notes the name of the type
          have named : d'.fqn = name := keyed _ (Dict.mem_of_find? found)
          exact ih _ d' w' (fun isObject' => named ▸ once'.enter new found isObject') once'
      · exact once

/-- To flatten a type, the type and its ancestors are entered at most once each. -/
theorem once_entered (keyed : ts.WellKeyed) (d : Definition) : ts.Once d.fqn (ts.entered d) := by
  refine Once.flattenWithin keyed _ [] d ⟨[], [], []⟩ (fun _ => ?_) (.nil ts d.fqn)
  exact ⟨List.pairwise_singleton _ _, fun name h => .inl (List.mem_singleton.1 h)⟩

end TypeSystem

end ManifestSchema
