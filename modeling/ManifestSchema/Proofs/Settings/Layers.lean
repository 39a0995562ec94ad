import ManifestSchema.Proofs.Dict
import ManifestSchema.Settings.Environment

/-!
# Layers as writes

A layer is put over a configuration by writes, each at a place: under keys of tables, at positions of
lists, and at the end of the way a value that replaces what is there. A write changes nothing beside
its way, and along the way makes tables and lists where there are none.

Results:

1. `Configured.entry_putAll`: what a table holds after values have been put into it;
2. `Configured.overlayEntry_eq`: a variable is one write, which goes into a section by a key unless
   it replaces the section;
3. `Configured.reaches_of_countsUp`: a layer is reached wherever no key counts from the end of a list.
-/

namespace ManifestSchema

namespace Configured

/-! ## Entries of tables -/

/-- The value under a key; only tables have any. -/
def entry (v : Configured) (key : String) : Option Configured := Dict.find? v.asTable.1 key

def isTable : Configured → Bool
  | .table _ _ => true
  | _ => false

def isScalar : Configured → Bool
  | .scalar _ _ => true
  | _ => false

theorem isTable_iff {v : Configured} :
    v.isTable = true ↔ ∃ entries origin, v = .table entries origin := by
  cases v <;> simp [isTable]

@[simp] theorem entry_table (entries : List (String × Configured)) (origin : Option String)
    (key : String) : (Configured.table entries origin).entry key = Dict.find? entries key := rfl

theorem asTable_of_other {v : Configured} (other : v.isTable = false) : v.asTable = ([], none) := by
  cases v with
  | table entries origin => cases other
  | scalar value origin => rfl
  | list elements origin => rfl

theorem entry_eq_none {v : Configured} (other : v.isTable = false) (key : String) :
    v.entry key = none := by
  rw [entry, asTable_of_other other]
  rfl

theorem isTable_of_entry {v u : Configured} {key : String} (found : v.entry key = some u) :
    v.isTable = true := by
  cases v with
  | table entries origin => rfl
  | scalar value origin => cases found
  | list elements origin => cases found

@[simp] theorem entry_atKey (key : String) (change : Configured → Configured) (v : Configured)
    (other : String) : (KeyPath.atKey key change v).entry other =
      if key = other then some (change ((v.entry key).getD nothing)) else v.entry other := by
  rw [KeyPath.atKey, entry_table, Dict.find?_insert]
  rfl

@[simp] theorem isTable_atIndex (index : Int) (change : Configured → Configured) (v : Configured) :
    (KeyPath.atIndex index change v).isTable = false := by
  cases v <;> rfl

/-! ## Values that are put into a table -/

theorem put_eq_atKey {value : Configured} (other : value.isTable = false) (key : String)
    (target : Configured) :
    put key value target = KeyPath.atKey (Text.lower key) (fun _ => value) target := by
  cases value with
  | table entries origin => cases other
  | scalar value origin => simp only [put]; rfl
  | list elements origin => simp only [put]; rfl

/-- A table is put under its key into what is there. -/
theorem entry_put_table (key : String) (incoming : List (String × Configured))
    (origin : Option String) (target : Configured) (other : String) :
    (put key (.table incoming origin) target).entry other =
      if Text.lower key = other then
        some (putAll incoming ((target.entry (Text.lower key)).getD emptyTable))
      else target.entry other := by
  rw [put, entry_table, Dict.find?_insert]
  rfl

/-- Of values that are put into a table each one is found under its key, and nothing else changes. -/
theorem entry_putAll {incoming : List (String × Configured)}
    (simple : ∀ p ∈ incoming, p.2.isTable = false ∧ Text.lower p.1 = p.1)
    (distinct : Dict.Distinct incoming) (target : Configured) (key : String) :
    (putAll incoming target).entry key = (Dict.find? incoming key).or (target.entry key) := by
  induction incoming generalizing target with
  | nil => rw [putAll]; rfl
  | cons p incoming ih =>
      obtain ⟨⟨single, lower⟩, simple⟩ := List.forall_mem_cons.1 simple
      obtain ⟨missing, distinct⟩ := List.nodup_cons.1 distinct
      rw [putAll, ih simple distinct, put_eq_atKey single, entry_atKey, lower, Dict.find?_cons]
      by_cases same : p.1 = key
      · have absent : Dict.find? incoming key = none := Dict.find?_eq_none_iff.2 (same ▸ missing)
        rw [if_pos same, if_pos same, absent]
        rfl
      · rw [if_neg same, if_neg same]

/-! ## Writes -/

/-- A write into a value: it replaces the value, or goes on into an entry or an element of it. -/
inductive Write
  | replace (value : Configured)
  | entry (key : String) (rest : Write)
  | element (index : Int) (rest : Write)

namespace Write

/-- The value after a write. -/
def apply : Write → Configured → Configured
  | .replace value => fun _ => value
  | .entry key rest => KeyPath.atKey key rest.apply
  | .element index rest => KeyPath.atIndex index rest.apply

/-- Whether a write into a section goes into a field by its key, or replaces the section by a value
that holds no fields. -/
def ByKey : Write → Prop
  | .replace value => value.isScalar = true
  | .entry _ _ => True
  | .element _ _ => False

end Write

namespace KeyPath

def isSection : KeyPath → Bool
  | .name _ => true
  | _ => false

/-- Whether a place is not in a field that is named by its position in a section. -/
def isKeyed : KeyPath → Bool
  | .name _ => true
  | .child parent _ => parent.isKeyed
  | .element parent _ => !parent.isSection && parent.isKeyed

/-- The section that a place lies in. -/
def root : KeyPath → String
  | .name key => key
  | .child parent _ => parent.root
  | .element parent _ => parent.root

/-- The way from the section of a place to the place, where a write goes on. -/
def inner : KeyPath → Write → Write
  | .name _, rest => rest
  | .child parent key, rest => parent.inner (.entry key rest)
  | .element parent index, rest => parent.inner (.element index rest)

theorem modify_eq (path : KeyPath) (rest : Write) (v : Configured) :
    path.modify rest.apply v = atKey path.root (path.inner rest).apply v := by
  induction path generalizing rest with
  | name key => rfl
  | child parent key ih => exact ih (.entry key rest)
  | element parent index ih => exact ih (.element index rest)

theorem byKey_inner (path : KeyPath) (keyed : path.isKeyed = true) {rest : Write}
    (field : path.isSection = true → rest.ByKey) : (path.inner rest).ByKey := by
  induction path generalizing rest with
  | name key => exact field rfl
  | child parent key ih => exact ih keyed fun _ => trivial
  | element parent index ih =>
      obtain ⟨inside, keyed⟩ := Bool.and_eq_true_iff.1 keyed
      refine ih keyed fun outside => ?_
      rw [outside] at inside
      cases inside

/-- A value is put at a place by one write. -/
theorem put_eq (path : KeyPath) {value : Configured} (other : value.isTable = false) :
    ∃ key rest, (∀ v, path.put value v = (Write.entry key rest).apply v) ∧
      ((key = path.root → path.isKeyed = true) →
        (path.isSection = true → value.isScalar = true) → rest.ByKey) := by
  cases path with
  | name key =>
      exact ⟨Text.lower key, .replace value, put_eq_atKey other key, fun _ whole => whole rfl⟩
  | child parent key =>
      have put : Configured.put key value =
          (Write.entry (Text.lower key) (.replace value)).apply := funext (put_eq_atKey other key)
      refine ⟨parent.root, parent.inner (.entry (Text.lower key) (.replace value)), fun v => ?_,
        fun keyed _ => parent.byKey_inner (keyed rfl) fun _ => trivial⟩
      rw [KeyPath.put, put, modify_eq]
      rfl
  | element parent index =>
      refine ⟨parent.root, parent.inner (.element index (.replace value)), fun v => ?_,
        fun keyed _ => ?_⟩
      · exact parent.modify_eq (.element index (.replace value)) v
      · have byKey : ((KeyPath.element parent index).inner (.replace value)).ByKey :=
          byKey_inner _ (keyed rfl) fun outside => nomatch outside
        exact byKey

end KeyPath

/-! ## Variables -/

/-- Whether a key, if it goes into one of some sections, names the field there by its key. -/
def KeyedIn (sections : List String) (key : String) : Prop :=
  ∀ path, KeyPath.ofText? (Text.lower key) = some path → path.root ∈ sections →
    path.isKeyed = true

/-- What variables set: a value that is no table, and no list in the place of a section. -/
structure IsVariable (p : String × Configured) : Prop where
  single : p.2.isTable = false
  whole : (∀ path, KeyPath.ofText? (Text.lower p.1) = some path → path.isSection = true) →
    p.2.isScalar = true

/-- A variable is one write. -/
theorem overlayEntry_eq {p : String × Configured} (variable_ : IsVariable p) :
    ∃ outer rest, (∀ v, overlayEntry p.1 p.2 v = (Write.entry outer rest).apply v) ∧
      ∀ sections, KeyedIn sections p.1 → outer ∈ sections → rest.ByKey := by
  unfold overlayEntry
  cases place : KeyPath.ofText? (Text.lower p.1) with
  | none =>
      refine ⟨Text.lower p.1, .replace p.2, put_eq_atKey variable_.single p.1, fun _ _ _ => ?_⟩
      exact variable_.whole fun path found => nomatch place.symm.trans found
  | some path =>
      obtain ⟨outer, rest, put, byKey⟩ := path.put_eq variable_.single
      refine ⟨outer, rest, put, fun sections keyed listed => byKey ?_ fun whole => ?_⟩
      · exact fun same => keyed path place (same ▸ listed)
      · refine variable_.whole fun other found => ?_
        rwa [Option.some.inj (place.symm.trans found)] at whole

end Configured

namespace Environment

open Configured

theorem isScalar_valueOf (key text : String) : (valueOf key text).isScalar = true ∨
    (valueOf key text).isTable = false ∧ key ∈ listKeys := by
  unfold valueOf
  split
  · exact .inl rfl
  · exact .inl rfl
  · split
    · exact .inl rfl
    · split
      · exact .inl rfl
      · split
        · next listed => exact .inr ⟨rfl, List.contains_iff_mem.1 listed⟩
        · exact .inl rfl

theorem place_of_mem_listKeys : ∀ key ∈ listKeys,
    ∃ path, KeyPath.ofText? (Text.lower key) = some path ∧ path.isSection = false := by
  simp only [listKeys, List.forall_mem_cons]
  exact ⟨⟨_, rfl, rfl⟩, ⟨_, rfl, rfl⟩, fun _ member => nomatch member⟩

theorem isVariable_valueOf (key text : String) : IsVariable (key, valueOf key text) := by
  rcases isScalar_valueOf key text with scalar | ⟨single, listed⟩
  · refine ⟨?_, fun _ => scalar⟩
    cases value : valueOf key text with
    | scalar value origin => rfl
    | list elements origin => rw [value] at scalar; cases scalar
    | table entries origin => rw [value] at scalar; cases scalar
  · refine ⟨single, fun whole => ?_⟩
    obtain ⟨path, place, inside⟩ := place_of_mem_listKeys key listed
    exact nomatch inside.symm.trans (whole path place)

theorem isVariable_layer (entries : List (String × String)) :
    ∀ p ∈ layer entries, IsVariable p := by
  intro p member
  obtain ⟨given, _, set⟩ := List.mem_filterMap.1 (Dict.mem_of_mem_ofList member)
  obtain ⟨_, same⟩ := Option.ite_none_right_eq_some.1 set
  rw [← Option.some.inj same]
  exact isVariable_valueOf _ _

end Environment

namespace Configured

/-! ## Layers one behind the other -/

theorem overlay_append (root : Configured) (layer more : List (String × Configured)) :
    overlay root (layer ++ more) = overlay (overlay root layer) more := by
  induction layer generalizing root with
  | nil => rfl
  | cons p layer ih => exact ih _

theorem reaches_cons (root : Configured) (p : String × Configured)
    (layer : List (String × Configured)) : root.reaches (p :: layer) =
      (((KeyPath.ofText? (Text.lower p.1)).all fun path => path.isReached root) &&
        (overlayEntry p.1 p.2 root).reaches layer) := rfl

/-! ## Places that are reached -/

/-- Whether no position on the way to a place is counted from the end of a list. -/
def KeyPath.countsUp : KeyPath → Bool
  | .name _ => true
  | .child parent _ => parent.countsUp
  | .element parent index => parent.countsUp && decide (0 ≤ index)

theorem KeyPath.isReached_of_countsUp {path : KeyPath} (up : path.countsUp = true)
    (root : Configured) : path.isReached root = true := by
  induction path with
  | name key => rfl
  | child parent key ih => exact ih up
  | element parent index ih =>
      obtain ⟨before, bound⟩ := Bool.and_eq_true_iff.1 up
      have bound := of_decide_eq_true bound
      exact Bool.and_eq_true_iff.2 ⟨ih before, decide_eq_true (by omega)⟩

/-- Whether the place that a key names, if it names one, is not counted from the end of a list. -/
def countsUp (key : String) : Bool := (KeyPath.ofText? (Text.lower key)).all KeyPath.countsUp

theorem reaches_of_countsUp {layer : List (String × Configured)}
    (up : ∀ p ∈ layer, countsUp p.1 = true) (root : Configured) : root.reaches layer = true := by
  induction layer generalizing root with
  | nil => rfl
  | cons p layer ih =>
      obtain ⟨here, up⟩ := List.forall_mem_cons.1 up
      rw [reaches_cons, ih up, Bool.and_true]
      unfold countsUp at here
      cases place : KeyPath.ofText? (Text.lower p.1) with
      | none => rfl
      | some path =>
          rw [place] at here
          exact path.isReached_of_countsUp here root

end Configured

end ManifestSchema
