import ManifestSchema.Proofs.Declarations

/-!
# Prefixes to skip

A class whose name starts with one of the prefixes to skip is no root. Whether it leaves a trace
depends on the order of the checks: the initializer is looked at before the prefixes, so a class
that descends from the base class and cannot be constructed is noted whatever its name is. The
prefixes make no difference at all to what is noted.

Results:

1. `RootSelection.select_eq`: the selection as two passes, one for the roots and one for the notes;
2. `RootSelection.skipsSilently_iff`: prefixes skip without a trace exactly if they match no class
   that cannot be constructed;
3. `RootSelection.select_skips`: both, against the selection without prefixes.
-/

namespace ManifestSchema

namespace Diagnostics

/-- The first scope is the outermost one. -/
def Rooted (d : Diagnostics) : Prop :=
  ∃ root rest, d.scopes = root :: rest ∧ root.isRoot = true

theorem Rooted.scopes_pos {d : Diagnostics} (rooted : d.Rooted) : 0 < d.scopes.length := by
  obtain ⟨_, _, scopes, _⟩ := rooted
  rw [scopes]
  exact Nat.succ_pos _

theorem Rooted.gain {d d' : Diagnostics} {opened : List Scope} (rooted : d.Rooted)
    (gains : Gains 0 [] [] opened d d') : d'.Rooted := by
  obtain ⟨root, rest, scopes, isRoot⟩ := rooted
  obtain ⟨inside, scopes'⟩ := gains
  refine ⟨root.gain [] [] inside, rest ++ opened, ?_, isRoot⟩
  rw [scopes', scopes]
  rfl

end Diagnostics

namespace RootSelection

variable {s : RootSelection} {ts : TypeSystem} {d d' : Diagnostics}

/-- The same selection with no prefixes to skip. -/
def unfiltered (s : RootSelection) : RootSelection := { s with skipPrefixes := [] }

/-- The names of the classes that descend from the base class but cannot be constructed, in
order. -/
def unconstructible (s : RootSelection) (ts : TypeSystem) : List String :=
  (ts.classes.filter (s.isSkipped ts)).map ClassType.fqn

/-- Note that a class cannot be constructed. -/
def note (s : RootSelection) (d : Diagnostics) (fqn : String) : Diagnostics :=
  (d.child 0 "skipped" fqn).2.warn (d.child 0 "skipped" fqn).1 (skippedWarning s.propsIndex)

/-- The scope of a class that cannot be constructed. -/
def skippedScope (s : RootSelection) (fqn : String) : Scope :=
  ⟨Scope.nameOf "skipped" fqn, "skipped" ++ "." ++ fqn, false, [skippedWarning s.propsIndex], [],
    []⟩

/-! ## Two passes -/

theorem among_notes (s : RootSelection) (ts : TypeSystem) (classes : List ClassType)
    (d : Diagnostics) :
    (s.among ts classes d).2 =
      ((classes.filter (s.isSkipped ts)).map ClassType.fqn).foldl s.note d := by
  induction classes generalizing d with
  | nil => rfl
  | cons c rest ih =>
      rw [among, List.filter_cons]
      by_cases descends : ts.classExtends c s.baseClass = true
      · cases props : c.propsType? s.propsIndex with
        | none => simp only [descends, isSkipped, props, if_true, Option.isNone_none,
            Bool.and_true, List.map_cons, List.foldl_cons, ih, note]
        | some type =>
            by_cases skipped : s.skips c.fqn = true <;>
              simp [descends, isSkipped, props, skipped, ih]
      · simp [descends, isSkipped, ih]

/-- Prefixes take out of the roots those that they match, and nothing else. -/
theorem root?_eq (s : RootSelection) (ts : TypeSystem) (c : ClassType) :
    s.root? ts c = (s.unfiltered.root? ts c).filter fun root => !s.skips root.definition.fqn := by
  have unmatched : s.unfiltered.skips c.fqn = false := rfl
  unfold root?
  rw [unmatched]
  show (if ts.classExtends c s.baseClass = true then _ else _) =
    Option.filter _ (if ts.classExtends c s.baseClass = true then _ else _)
  split
  · show (c.propsType? s.propsIndex).bind _ = Option.filter _ ((c.propsType? s.propsIndex).bind _)
    cases c.propsType? s.propsIndex with
    | none => rfl
    | some props => by_cases skipped : s.skips c.fqn = true <;> simp [skipped, Option.filter]
  · rfl

theorem filterMap_root? (s : RootSelection) (ts : TypeSystem) (classes : List ClassType) :
    classes.filterMap (s.root? ts) =
      (classes.filterMap (s.unfiltered.root? ts)).filter
        fun root => !s.skips root.definition.fqn := by
  rw [List.filter_filterMap, funext (s.root?_eq ts)]

/-- The roots are the constructible classes that no prefix matches, and the notes are about the
other ones, matched or not. -/
theorem select_eq (base : (ts.findClass? s.baseClass).isSome) (d : Diagnostics) :
    s.select ts d = .ok
      ((ts.classes.filterMap (s.unfiltered.root? ts)).filter
        (fun root => !s.skips root.definition.fqn), (s.unconstructible ts).foldl s.note d) := by
  obtain ⟨c, found⟩ := Option.isSome_iff_exists.1 base
  unfold select unconstructible
  rw [found, ← filterMap_root?, ← among_notes, ← (s.among_eq ts ts.classes d).1]

/-! ## Notes -/

/-- A note opens one scope, in the outermost one. -/
theorem gains_note (rooted : d.Rooted) (fqn : String) :
    Diagnostics.Gains 0 [] [] [s.skippedScope fqn] d (s.note d fqn) := by
  obtain ⟨root, rest, scopes, isRoot⟩ := rooted
  refine ⟨[d.scopes.length], ?_⟩
  rw [Scope.gain_children]
  unfold note Diagnostics.warn Diagnostics.child Diagnostics.scope? Scope.pathInside
  simp only
  rw [Diagnostics.modify_last (by rw [List.length_modify]), scopes]
  simp [isRoot, skippedScope]

theorem gains_notes (rooted : d.Rooted) (names : List String) :
    Diagnostics.Gains 0 [] [] (names.map s.skippedScope) d (names.foldl s.note d) := by
  induction names generalizing d with
  | nil => exact .nothing 0 d
  | cons fqn rest ih =>
      have first := s.gains_note rooted fqn
      exact first.trans rooted.scopes_pos (ih (rooted.gain first))

/-! ## Skipping without a trace -/

/-- As if the prefixes were applied to the answer of the selection without them, to its roots and to
its notes alike. -/
def SkipsSilently (s : RootSelection) (ts : TypeSystem) (d : Diagnostics) : Prop :=
  ∃ roots d' d'', s.unfiltered.select ts d = .ok (roots, d') ∧
    s.select ts d = .ok (roots.filter fun root => !s.skips root.definition.fqn, d'') ∧
    Diagnostics.Gains 0 [] [] ((s.unconstructible ts).map s.skippedScope) d d' ∧
    Diagnostics.Gains 0 [] []
      (((s.unconstructible ts).filter fun fqn => !s.skips fqn).map s.skippedScope) d d''

/-- Both selections, with the notes that they make. -/
theorem select_both (base : (ts.findClass? s.baseClass).isSome) (rooted : d.Rooted) :
    ∃ roots d', s.unfiltered.select ts d = .ok (roots, d') ∧
      s.select ts d = .ok (roots.filter fun root => !s.skips root.definition.fqn, d') ∧
      Diagnostics.Gains 0 [] [] ((s.unconstructible ts).map s.skippedScope) d d' := by
  refine ⟨ts.classes.filterMap (s.unfiltered.root? ts), (s.unconstructible ts).foldl s.note d, ?_,
    s.select_eq base d, s.gains_notes rooted _⟩
  have without : s.unfiltered.select ts d = _ := s.unfiltered.select_eq base d
  -- the prefixes are looked at for the roots alone, and here there are none
  have same : s.unfiltered.unfiltered = s.unfiltered := rfl
  have notes : s.unfiltered.note = s.note := rfl
  have classes : s.unfiltered.unconstructible ts = s.unconstructible ts := rfl
  have unmatched : ∀ fqn, s.unfiltered.skips fqn = false := fun _ => rfl
  rw [without, same, notes, classes]
  simp [unmatched]

/-- A note is made about a matched class too, so there is no trace only of prefixes that match no
class of that kind. -/
theorem skipsSilently_iff (base : (ts.findClass? s.baseClass).isSome) (rooted : d.Rooted) :
    s.SkipsSilently ts d ↔ ∀ fqn ∈ s.unconstructible ts, s.skips fqn = false := by
  obtain ⟨roots, d', without, selected, notes⟩ := select_both base rooted
  constructor
  · rintro ⟨roots', _, d'', _, selected', _, fewer⟩
    obtain ⟨_, rfl⟩ : _ ∧ d' = d'' := by
      rw [selected, Except.ok.injEq, Prod.mk.injEq] at selected'
      exact selected'
    obtain ⟨_, scopes⟩ := notes
    obtain ⟨_, scopes'⟩ := fewer
    have counts := congrArg List.length (scopes.symm.trans scopes')
    simp only [List.length_append, List.length_modify, List.length_map,
      Nat.add_left_cancel_iff] at counts
    simpa using List.length_filter_eq_length_iff.1 counts.symm
  · intro apart
    refine ⟨roots, d', d', without, selected, notes, ?_⟩
    rwa [List.filter_eq_self.2 fun fqn member => by rw [apart fqn member]; rfl]

/-- Prefixes take out of the roots exactly those that they match, and leave the rest in order. Of a
matched class that would be a root there is no trace. The notes stay what they are, those about
matched classes included, so that prefixes skip without a trace exactly if they match no class that
descends from the base class and cannot be constructed. -/
theorem select_skips (base : (ts.findClass? s.baseClass).isSome) (rooted : d.Rooted) :
    (∃ roots d', s.unfiltered.select ts d = .ok (roots, d') ∧
      s.select ts d = .ok (roots.filter fun root => !s.skips root.definition.fqn, d') ∧
      Diagnostics.Gains 0 [] [] ((s.unconstructible ts).map s.skippedScope) d d') ∧
    (s.SkipsSilently ts d ↔ ∀ fqn ∈ s.unconstructible ts, s.skips fqn = false) :=
  ⟨select_both base rooted, skipsSilently_iff base rooted⟩

end RootSelection

/-! ## Example -/

namespace Market

def part : ClassType := ⟨"shop.Part", none, [], none, [], none⟩

def vendorPart : ClassType := ⟨"vendor.Part", some "shop.Part", [], none, [], none⟩

/-- A class that can be constructed. -/
def lamp (fqn : String) : ClassType :=
  ⟨fqn, some "shop.Part", [], some [⟨"props", .named "shop.LampProps"⟩], [], none⟩

def types : TypeSystem :=
  ⟨[part, vendorPart, lamp "vendor.Lamp", lamp "shop.Lamp"].map fun c => (c.fqn, .classDef c), []⟩

def selection : RootSelection := ⟨"shop.Part", 0, ["vendor."]⟩

theorem rooted_empty : Diagnostics.empty.Rooted := ⟨.root, [], rfl, rfl⟩

end Market

namespace RootSelection

/-- In the example the prefix takes the vendor's lamp out of the roots, and leaves the note about
the vendor's part. -/
theorem select_skips_market : ∃ roots d',
    Market.selection.unfiltered.select Market.types .empty = .ok (roots, d') ∧
      roots.map (fun root => root.definition.fqn) = ["vendor.Lamp", "shop.Lamp"] ∧
      Market.selection.select Market.types .empty =
        .ok (roots.filter fun root => !Market.selection.skips root.definition.fqn, d') ∧
      Diagnostics.Gains 0 [] []
        (["shop.Part", "vendor.Part"].map Market.selection.skippedScope) .empty d' := by
  have base : (Market.types.findClass? Market.selection.baseClass).isSome := rfl
  obtain ⟨⟨roots, d', without, selected, notes⟩, _⟩ := select_skips base Market.rooted_empty
  have names : (Market.selection.unfiltered.select Market.types .empty).toOption.map
      (fun answer => answer.1.map fun root => root.definition.fqn) =
        some ["vendor.Lamp", "shop.Lamp"] := by
    decide +kernel
  have classes : Market.selection.unconstructible Market.types = ["shop.Part", "vendor.Part"] := by
    decide +kernel
  rw [without] at names
  rw [classes] at notes
  exact ⟨roots, d', without, Option.some.inj names, selected, notes⟩

/-- The note about the vendor's part is a trace of a class that the prefix matches. -/
theorem select_notes_vendor : ¬Market.selection.SkipsSilently Market.types .empty ∧
    ∃ roots d', Market.selection.select Market.types .empty = .ok (roots, d') ∧
      (d'.find? "skipped.vendor.Part").isSome := by
  constructor
  · rw [skipsSilently_iff rfl Market.rooted_empty]
    intro silent
    exact absurd (silent "vendor.Part" (by decide +kernel)) (by decide +kernel)
  · have found : (Market.selection.select Market.types .empty).toOption.map
        (fun answer => (answer.2.find? "skipped.vendor.Part").isSome) = some true := by
      decide +kernel
    obtain ⟨⟨roots, d'⟩, selected⟩ : ∃ answer,
        Market.selection.select Market.types .empty = .ok answer := ⟨_, rfl⟩
    rw [selected] at found
    exact ⟨roots, d', selected, Option.some.inj found⟩

end RootSelection

end ManifestSchema
