import Mathlib.Data.List.Nodup
import ManifestSchema.Proofs.Declarations

/-!
# Types under their own names

A manifest names a type twice: by the key under which it stands, and by the name that the type gives
itself. Loading looks at the keys alone, so a key that comes up again is refused and a name is not.
Walks through ancestors, the lineage of classes and the entries of roots go by names, while look-ups
go by keys. The two agree exactly when every declaration stands under its own name.

Results:

1. `TypeSystem.ofAssemblies_ok` and `TypeSystem.exists_ofAssemblies_iff`: which manifests are loaded
   together, and what there is then;
2. `Assembly.distinct_ofText`: a key that a text repeats is settled before loading sees it;
3. `TypeSystem.ofAssemblies_identifies_iff`: when types are identified by their names;
4. `TypeSystem.ofAssemblies_two_lamps`: two types of one name that are loaded.
-/

namespace ManifestSchema

namespace TypeSystem

variable {ts ts' : TypeSystem} {files : List (String × Assembly)}

/-! ## What is loaded -/

/-- Types that are all added were new, each under a key of its own. -/
theorem distinct_of_addAll {origin : String} (tracked : ts.Tracked) (distinct : ts.types.Distinct)
    {pairs : Dict Definition} (added : addAll origin ts pairs = (.ok (), ts')) :
    Dict.Distinct (ts.types ++ pairs) := by
  have merges := addAll_merges ⟨tracked, distinct⟩ origin pairs
  rw [added] at merges
  cases merges with
  | all distinct => exact distinct

theorem distinct_of_addFiles (tracked : ts.Tracked) (distinct : ts.types.Distinct)
    (loaded : ts.addFiles files = .ok ts') : Dict.Distinct (ts.types ++ declarations files) := by
  induction files generalizing ts with
  | nil => rwa [declarations, List.flatMap_nil, List.append_nil]
  | cons f rest ih =>
      obtain ⟨origin, assembly⟩ := f
      have split : declarations ((origin, assembly) :: rest) =
          assembly.types ++ declarations rest := List.flatMap_cons
      rw [addFiles, add] at loaded
      cases outcome : addAll origin ts assembly.types with
      | mk result ts1 =>
          rw [outcome] at loaded
          cases result with
          | error e => cases loaded
          | ok _ =>
              have here := distinct_of_addAll tracked distinct outcome
              obtain ⟨_, added, types, tracked1⟩ := addAll_of_distinct origin tracked here
              cases outcome.symm.trans added
              rw [split, ← List.append_assoc, ← types]
              exact ih tracked1 (types ▸ here) loaded

/-- Manifests that are loaded together repeat no key, and the type system has their declarations in
order. -/
theorem ofAssemblies_ok (loaded : ofAssemblies files = .ok ts) :
    (declarations files).Distinct ∧ ts.types = declarations files := by
  have added : Dict.Distinct (empty.types ++ declarations files) :=
    distinct_of_addFiles rfl List.nodup_nil loaded
  have distinct : (declarations files).Distinct := added
  obtain ⟨_, loaded', types⟩ := ofAssemblies_of_distinct distinct
  cases loaded.symm.trans loaded'
  exact ⟨distinct, types⟩

/-- Manifests are loaded together when no key comes up twice in them, whatever names the types give
themselves. -/
theorem exists_ofAssemblies_iff :
    (∃ ts, ofAssemblies files = .ok ts) ↔ (declarations files).Distinct := by
  constructor
  · rintro ⟨ts, loaded⟩
    exact (ofAssemblies_ok loaded).1
  · intro distinct
    obtain ⟨ts, loaded, _⟩ := ofAssemblies_of_distinct distinct
    exact ⟨ts, loaded⟩

end TypeSystem

/-! ## Keys of one text -/

namespace Located

/-- A key that comes up again in `types` takes the place of the one before it. -/
theorem distinct_readDefinitions {path : List PathStep} {types types' : Dict Definition}
    (distinct : types.Distinct) : {members : Members} →
    readDefinitions path types members = .ok types' → types'.Distinct
  | .close _, read => by
      rw [readDefinitions] at read
      exact Except.ok.inj read ▸ distinct
  | .broken _ _, read => by
      rw [readDefinitions] at read
      cases read
  | .noColon (.ok _) _ _, read | .noColon (.error _) _ _, read
  | .cons (.error _) _ _ _ _, read => by
      rw [readDefinitions] at read
      cases read
  | .cons (.ok key) _ value afterValue rest, read => by
      rw [readDefinitions] at read
      cases definition : readDefinition (path ++ [.key key]) afterValue value with
      | error e =>
          rw [definition] at read
          cases read
      | ok d =>
          rw [definition] at read
          exact distinct_readDefinitions (distinct.insert key d) read

theorem distinct_readTypes {path : List PathStep} {value : Located} {types : Dict Definition}
    (read : value.readTypes path = .ok types) : types.Distinct := by
  cases value with
  | obj start members =>
      have none : Dict.Distinct ([] : Dict Definition) := List.nodup_nil
      exact distinct_readDefinitions none read
  | null | bool | num | str | arr | broken => cases read

/-- The types among the fields that have been read repeat no key. -/
def AssemblyFields.Settled (fields : AssemblyFields) : Prop :=
  ∀ types, fields.types = some types → types.Distinct

theorem AssemblyFields.Settled.read {fields fields' : AssemblyFields} (settled : fields.Settled) :
    {members : Members} → readAssemblyFields fields members = .ok fields' → fields'.Settled
  | .close _, read => by
      rw [readAssemblyFields] at read
      exact Except.ok.inj read ▸ settled
  | .broken _ _, read | .noColon (.error _) _ _, read | .cons (.error _) _ _ _ _, read => by
      rw [readAssemblyFields] at read
      cases read
  | .noColon (.ok key) _ _, read => by
      rw [readAssemblyFields] at read
      split at read <;> cases read
  | .cons (.ok key) _ value _ rest, read => by
      rw [readAssemblyFields] at read
      split at read
      · cases read
      · split at read
        · obtain ⟨name, _, read⟩ := bind_eq_ok_iff.1 read
          have named : AssemblyFields.Settled ⟨some name, fields.types⟩ := settled
          exact named.read read
        · split at read
          · obtain ⟨types, found, read⟩ := bind_eq_ok_iff.1 read
            refine AssemblyFields.Settled.read (fun types' h => ?_) read
            exact Option.some.inj h ▸ distinct_readTypes found
          · split at read
            · cases read
            · exact settled.read read

end Located

/-- The types of a manifest that was decoded from a text repeat no key, whatever the text
repeats. -/
theorem Assembly.distinct_ofText {text : String} {assembly : Assembly}
    (decoded : Assembly.ofText text = .ok assembly) : assembly.types.Distinct := by
  unfold Assembly.ofText at decoded
  have none : Dict.Distinct ([] : Dict Definition) := List.nodup_nil
  cases tree : Located.ofText text with
  | obj start members =>
      rw [tree] at decoded
      obtain ⟨fields, read, done⟩ := bind_eq_ok_iff.1 decoded
      cases done
      have settled : Located.AssemblyFields.Settled ⟨.none, .none⟩ := fun _ h => by cases h
      have settled := settled.read read
      unfold Located.AssemblyFields.toAssembly
      cases types : fields.types with
      | none => exact none
      | some types' => exact settled types' types
  | arr start elements =>
      rw [tree] at decoded
      cases elements with
      | close _ => exact Except.ok.inj decoded ▸ none
      | broken _ _ => cases decoded
      | cons _ name rest =>
          obtain ⟨name, _, decoded⟩ := bind_eq_ok_iff.1 decoded
          cases rest with
          | close _ => exact Except.ok.inj decoded ▸ none
          | broken _ _ => cases decoded
          | cons _ types rest =>
              obtain ⟨types, read, decoded⟩ := bind_eq_ok_iff.1 decoded
              split at decoded
              · exact Except.ok.inj decoded ▸ Located.distinct_readTypes read
              · cases decoded
  | null | bool | num | str | broken =>
      rw [tree] at decoded
      cases decoded

/-- A text that declares a lamp twice is decoded to one lamp. -/
example : (Assembly.ofText
    ("\x7b\"types\":\x7b\"Lamp\":\x7b\"kind\":\"enum\",\"fqn\":\"Lamp\"\x7d," ++
      "\"Lamp\":\x7b\"kind\":\"enum\",\"fqn\":\"Lamp\"\x7d\x7d\x7d")).toOption.map (fun a => a.types.keys) = some ["Lamp"] := by decide +kernel

/-! ## Names and keys -/

namespace TypeSystem

variable {ts : TypeSystem}

/-- Types are identified by their names: each is found under the name that it gives itself, and no
two of them give themselves the same name. -/
structure Identifies (ts : TypeSystem) : Prop where
  found : ∀ p ∈ ts.types, ts.find? p.2.fqn = some p.2
  apart : (ts.types.map fun p => p.2.fqn).Nodup

/-- Two types of one name cannot both be found under it, so a type that is found under its name
stands there. -/
theorem identifies_iff_wellKeyed (distinct : ts.types.Distinct) :
    ts.Identifies ↔ ts.WellKeyed := by
  constructor
  · intro identifies p member
    have named : (p.2.fqn, p.2) ∈ ts.types := Dict.mem_of_find? (identifies.found p member)
    have same := List.inj_on_of_nodup_map identifies.apart named member rfl
    exact congrArg Prod.fst same
  · intro keyed
    have names : (ts.types.map fun p => p.2.fqn) = ts.types.keys :=
      List.map_congr_left fun p member => keyed p member
    refine ⟨fun p member => ?_, names ▸ distinct⟩
    rw [keyed p member]
    exact (Dict.find?_eq_some_iff distinct).2 member

/-- Manifests are loaded together when they repeat no key. What is loaded identifies types by their
names exactly when every declaration stands under its own name, and then manifests that declare a
name twice, in one file or in several, are the ones that are refused. -/
theorem ofAssemblies_identifies_iff (files : List (String × Assembly)) :
    ((∃ ts, ofAssemblies files = .ok ts) ↔ (declarations files).Distinct) ∧
    (∀ ts, ofAssemblies files = .ok ts →
      (ts.Identifies ↔ ∀ p ∈ declarations files, p.2.fqn = p.1)) ∧
    ((∀ p ∈ declarations files, p.2.fqn = p.1) →
      ((∃ e, ofAssemblies files = .error e) ↔
        ¬((declarations files).map fun p => p.2.fqn).Nodup)) := by
  refine ⟨exists_ofAssemblies_iff, fun ts loaded => ?_, fun keyed => ?_⟩
  · obtain ⟨distinct, types⟩ := ofAssemblies_ok loaded
    rw [identifies_iff_wellKeyed (types ▸ distinct), WellKeyed, types]
  · have names : ((declarations files).map fun p => p.2.fqn) = (declarations files).keys :=
      List.map_congr_left keyed
    have accepted : (∃ ts, ofAssemblies files = .ok ts) ↔ (declarations files).Distinct :=
      exists_ofAssemblies_iff
    unfold Dict.Distinct at accepted
    rw [names, ← accepted]
    cases ofAssemblies files <;> simp

end TypeSystem

/-! ## An example -/

namespace Shop

/-- A file with two lamps: one under its name, another one under a key that is not its name. -/
def lampFile : Assembly :=
  ⟨"shop", [("shop.Lamp", .classDef ⟨"shop.Lamp", none, [], none, [], none⟩),
    ("shop.Spare", .enumDef ⟨"shop.Lamp", ["OLD", "NEW"], none⟩)]⟩

end Shop

/-- The file is loaded although it declares the name of lamps twice, and under that name the spare
one is not found. -/
theorem TypeSystem.ofAssemblies_two_lamps : ∃ ts,
    ofAssemblies [("shop.json", Shop.lampFile)] = .ok ts ∧
      (ts.types.map fun p => p.2.fqn) = ["shop.Lamp", "shop.Lamp"] ∧
      ∃ p ∈ ts.types, p.2.fqn = "shop.Lamp" ∧ ts.find? p.2.fqn ≠ some p.2 := by
  refine ⟨_, rfl, rfl, ("shop.Spare", .enumDef ⟨"shop.Lamp", ["OLD", "NEW"], none⟩), ?_, rfl, ?_⟩
  · exact List.mem_cons_of_mem _ List.mem_cons_self
  · intro found
    cases Option.some.inj found

end ManifestSchema
