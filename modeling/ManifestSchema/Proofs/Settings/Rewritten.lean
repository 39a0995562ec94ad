import ManifestSchema.Proofs.Registry
import ManifestSchema.Proofs.Settings.Layers
import ManifestSchema.Proofs.Settings.Printed

/-!
# Fields that are written again

A write that comes last leaves a field from which a value is read. The same write comes once more,
over a field that was printed, so that the value is read from it before the write. It is read from
it afterwards as well: a write that goes on into a field leaves so much of it to see that the value
must be in what is written, or where nothing is written.

Results:

1. `Configured.Covers.apply`: the keys of a field after the same writes;
2. `Configured.ReadsScalars.sticks`, `Configured.sticks_asChoice` and `Configured.sticks_asList`: a
   value that is read after a write is read after the same write of another field too.
-/

namespace ManifestSchema

namespace Configured

/-! ## Elements of lists -/

/-- Change an element of a list, which is filled up to there. -/
def setAt (es : List Configured) (i : Nat) (change : Configured → Configured) : List Configured :=
  (es ++ List.replicate (i + 1 - es.length) nothing).modify i change

theorem length_setAt (es : List Configured) (i : Nat) (change : Configured → Configured) :
    (setAt es i change).length = max es.length (i + 1) := by
  rw [setAt, List.length_modify, List.length_append, List.length_replicate]
  omega

theorem getElem?_setAt_self (es : List Configured) (i : Nat) (change : Configured → Configured) :
    (setAt es i change)[i]? = some (change (es[i]?.getD nothing)) := by
  rw [setAt, List.getElem?_modify_eq, List.getElem?_append]
  by_cases inside : i < es.length
  · rw [if_pos inside, List.getElem?_eq_getElem inside]
    rfl
  · rw [if_neg inside, List.getElem?_replicate_of_lt (by omega), List.getElem?_eq_none (by omega)]
    rfl

theorem getElem?_setAt_other {es : List Configured} {i j : Nat} (other : j ≠ i)
    (inside : j < es.length) (change : Configured → Configured) :
    (setAt es i change)[j]? = es[j]? := by
  rw [setAt, List.getElem?_modify_ne _ _ (Ne.symm other), List.getElem?_append_left inside]

theorem atIndex_eq (index : Int) (change : Configured → Configured) (v : Configured) :
    ∃ origin, KeyPath.atIndex index change v =
      .list (setAt v.elements (KeyPath.position index v.elements.length) change) origin := by
  cases v with
  | list es origin => exact ⟨origin, rfl⟩
  | scalar value origin => exact ⟨none, rfl⟩
  | table entries origin => exact ⟨none, rfl⟩

/-- A position stays what it is in the list that is filled up to it. -/
theorem position_filled (index : Int) (length : Nat) :
    KeyPath.position index (max length (KeyPath.position index length + 1)) =
      KeyPath.position index length := by
  unfold KeyPath.position
  split
  · rfl
  · omega

/-! ## Keys of tables -/

/-- Whether one value has all the keys of another one. -/
def Covers (x y : Configured) : Prop :=
  ∀ key, (y.entry key).isSome = true → (x.entry key).isSome = true

theorem covers_of_other {y : Configured} (other : y.isTable = false) (x : Configured) :
    Covers x y := by
  intro key held
  rw [entry_eq_none other] at held
  cases held

theorem Covers.apply {x y : Configured} (h : Covers x y) (w : Write) :
    Covers (w.apply x) (w.apply y) := by
  cases w with
  | replace value => exact fun _ => id
  | element index rest => exact covers_of_other (isTable_atIndex _ _ _) _
  | entry key rest =>
      intro other held
      rw [Write.apply, entry_atKey] at held ⊢
      by_cases same : key = other
      · rw [if_pos same]
        rfl
      · rw [if_neg same] at held ⊢
        exact h other held

theorem atKey_eq (key : String) (change : Configured → Configured) (v : Configured) :
    KeyPath.atKey key change v =
      .table (Dict.insert v.asTable.1 key (change ((v.entry key).getD nothing))) v.asTable.2 := rfl

/-- A table with one key after a write of an entry had no other key before. -/
theorem insert_single {d : List (String × Configured)} {key : String} {v : Configured}
    {p : String × Configured} (single : Dict.insert d key v = [p]) :
    p.1 = key ∧ ∀ other, (Dict.find? d other).isSome = true → other = key := by
  have keys : Dict.keys [p] = if key ∈ Dict.keys d then Dict.keys d else Dict.keys d ++ [key] := by
    rw [← single, Dict.keys_insert]
  have member : key ∈ Dict.keys [p] := by
    rw [keys]
    split
    · assumption
    · exact List.mem_append_right _ List.mem_cons_self
  refine ⟨(List.mem_singleton.1 member).symm, fun other held => ?_⟩
  have member' : other ∈ Dict.keys [p] := by
    have before : other ∈ Dict.keys d := Dict.contains_iff.1 held
    rw [keys]
    split
    · exact before
    · exact List.mem_append_left _ before
  rw [List.mem_singleton.1 member', List.mem_singleton.1 member]

/-! ## Reading after writes -/

/-- Whether what is read from one field after a write is read after the same write of another one,
if that one has no further keys and it was read from it before. -/
def Sticks (reads : Configured → Prop) : Prop :=
  ∀ {w : Write} {x y : Configured}, reads (w.apply x) → reads y → Covers x y → reads (w.apply y)

/-- Whether lists and tables are refused by a decoder. -/
structure ReadsScalars {α : Type} (decode : Decoder α) : Prop where
  list : ∀ path es origin value, decode path (.list es origin) ≠ .ok value
  table : ∀ path es origin value, decode path (.table es origin) ≠ .ok value

section Scalars

variable {α : Type} {decode : Decoder α} {path : List SettingStep} {value : α}

/-- A write after which a scalar is read puts the scalar there. -/
theorem ReadsScalars.apply (h : ReadsScalars decode) {w : Write} {x : Configured}
    (final : decode path (w.apply x) = .ok value) (y : Configured) :
    decode path (w.apply y) = .ok value := by
  cases w with
  | replace v => exact final
  | entry key rest => exact absurd final (h.table _ _ _ _)
  | element index rest =>
      obtain ⟨origin, list⟩ := atIndex_eq index rest.apply x
      rw [Write.apply, list] at final
      exact absurd final (h.list _ _ _ _)

theorem ReadsScalars.sticks (h : ReadsScalars decode) :
    Sticks fun v => decode path v = .ok value := fun final _ _ => h.apply final _

end Scalars

theorem readsScalars_asText : ReadsScalars asText := ⟨nofun, nofun⟩

theorem readsScalars_asNatural : ReadsScalars asNatural := ⟨nofun, nofun⟩

theorem readsScalars_asFlag : ReadsScalars asFlag := ⟨nofun, nofun⟩

theorem readsScalars_asOptional : ReadsScalars (asOptional asText) := ⟨nofun, nofun⟩

section Choices

variable {α : Type} {name : String} {choices : List α} {text : α → String}
  {path : List SettingStep} {value : α}

/-- A choice may be the one key of a table, whatever stands under it. -/
theorem asChoice_table_iff {es : List (String × Configured)} {origin : Option String} :
    asChoice name choices text path (.table es origin) = .ok value ↔
      ∃ p, es = [p] ∧ choices.find? (fun c => text c = Text.lower p.1) = some value := by
  match es with
  | [] => exact ⟨nofun, fun ⟨_, same, _⟩ => nomatch same⟩
  | _ :: _ :: _ => exact ⟨nofun, fun ⟨_, same, _⟩ => nomatch same⟩
  | [p] =>
      simp only [asChoice, List.cons.injEq, and_true, exists_eq_left']
      cases choices.find? fun c => text c = Text.lower p.1 <;> simp

theorem sticks_asChoice (path : List SettingStep) :
    Sticks fun v => asChoice name choices text path v = .ok value := by
  intro w x y final here covers
  cases w with
  | replace v => exact final
  | element index rest =>
      obtain ⟨origin, list⟩ := atIndex_eq index rest.apply x
      rw [Write.apply, list] at final
      cases final
  | entry key rest =>
      rw [Write.apply, atKey_eq] at final ⊢
      obtain ⟨p, single, chosen⟩ := asChoice_table_iff.1 final
      obtain ⟨named, only⟩ := insert_single single
      refine asChoice_table_iff.2
        ⟨(key, rest.apply ((y.entry key).getD nothing)), ?_, named ▸ chosen⟩
      -- what was read before has no key but this one
      cases y with
      | scalar value origin => rfl
      | list elements origin => cases here
      | table es origin =>
          obtain ⟨⟨k, u⟩, rfl, _⟩ := asChoice_table_iff.1 here
          have held : Dict.find? [(k, u)] k = some u := if_pos rfl
          obtain rfl : k = key := only k (covers k (by rw [entry_table, held]; rfl))
          rw [asTable, Dict.insert, if_pos rfl]

end Choices

/-! ## Lists -/

theorem asElements_ok_iff {α : Type} {decode : Decoder α} {path : List SettingStep} {position : Nat}
    {es : List Configured} {values : List α} :
    asElements decode path position es = .ok values ↔
      es.length = values.length ∧ ∀ j v, es[j]? = some v →
        ∃ value, values[j]? = some value ∧
          decode (path ++ [.index (position + j)]) v = .ok value := by
  induction es generalizing position values with
  | nil =>
      constructor
      · rintro ⟨⟩
        exact ⟨rfl, fun j v found => nomatch found⟩
      · rintro ⟨length, _⟩
        rw [List.length_eq_zero_iff.1 length.symm]
        rfl
  | cons e es ih =>
      rw [asElements, bind_eq_ok_iff]
      constructor
      · rintro ⟨first, here, decoded⟩
        obtain ⟨others, behind, ⟨⟩⟩ := bind_eq_ok_iff.1 decoded
        obtain ⟨length, each⟩ := ih.1 behind
        refine ⟨congrArg (· + 1) length, fun j v found => ?_⟩
        cases j with
        | zero => exact ⟨first, rfl, Option.some.inj found ▸ here⟩
        | succ j =>
            obtain ⟨value, member, reads⟩ := each j v found
            have step : position + (j + 1) = position + 1 + j := by omega
            exact ⟨value, member, step ▸ reads⟩
      · rintro ⟨length, each⟩
        obtain ⟨first, others, rfl⟩ := List.exists_cons_of_length_eq_add_one length.symm
        obtain ⟨_, ⟨⟩, here⟩ := each 0 e rfl
        refine ⟨first, here, bind_eq_ok_iff.2 ⟨others, ih.2 ⟨Nat.succ.inj length, ?_⟩, rfl⟩⟩
        intro j v found
        have step : position + (j + 1) = position + 1 + j := by omega
        exact step ▸ each (j + 1) v found

theorem elements_of_asList {α : Type} {decode : Decoder α} {path : List SettingStep}
    {v : Configured} {values : List α} (read : asList decode path v = .ok values) :
    asElements decode path 0 v.elements = .ok values := by
  cases v with
  | list es origin => exact read
  | scalar value origin => cases value <;> cases read
  | table es origin => cases read

theorem sticks_asList {α : Type} {decode : Decoder α} (scalars : ReadsScalars decode)
    {path : List SettingStep} {values : List α} :
    Sticks fun v => asList decode path v = .ok values := by
  intro w x y final here _
  cases w with
  | replace v => exact final
  | entry key rest => cases final
  | element index rest =>
      obtain ⟨_, list⟩ := atIndex_eq index rest.apply x
      obtain ⟨_, list'⟩ := atIndex_eq index rest.apply y
      rw [Write.apply, list] at final
      rw [Write.apply, list']
      obtain ⟨length, each⟩ := asElements_ok_iff.1 final
      obtain ⟨length', each'⟩ := asElements_ok_iff.1 (elements_of_asList here)
      rw [length_setAt] at length
      -- the list has its final length already, so the position is the one of the last write
      have same : KeyPath.position index y.elements.length =
          KeyPath.position index x.elements.length := by
        rw [length', ← length, position_filled]
      rw [same]
      refine asElements_ok_iff.2 ⟨by rw [length_setAt]; omega, fun j v found => ?_⟩
      rcases Decidable.em (j = KeyPath.position index x.elements.length) with rfl | other
      · obtain ⟨value, member, reads⟩ := each _ _ (getElem?_setAt_self _ _ _)
        rw [getElem?_setAt_self] at found
        exact ⟨value, member, Option.some.inj found ▸ scalars.apply reads _⟩
      · have inside : j < y.elements.length := by
          have bound := (List.getElem?_eq_some_iff.1 found).1
          rw [length_setAt] at bound
          omega
        rw [getElem?_setAt_other other inside] at found
        exact each' j v found

end Configured

end ManifestSchema
