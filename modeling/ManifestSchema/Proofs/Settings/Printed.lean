import ManifestSchema.Proofs.TomlText.Documents
import ManifestSchema.Settings.Load

/-!
# Settings that are printed

The text of settings is a document again, and each of its values is decoded to what was printed.

Results:

1. `Settings.parse_toToml`: the layer that printed settings are;
2. `Settings.asText_print` and its likes: each value of the layer.
-/

namespace ManifestSchema

namespace Configured

theorem ofTomlAll_eq (origin : String) (vs : List Toml) :
    ofTomlAll origin vs = vs.map (ofToml origin) := by
  induction vs with
  | nil => rfl
  | cons v vs ih => rw [ofTomlAll, ih, List.map_cons]

theorem ofTomlEntries_eq (origin : String) (entries : List (String × Toml)) :
    ofTomlEntries origin entries = entries.map fun e => (e.1, ofToml origin e.2) := by
  induction entries with
  | nil => rfl
  | cons e entries ih => rw [ofTomlEntries, ih, List.map_cons]

end Configured

namespace Settings

/-- The value of an entry in a layer. -/
def printed (origin : String) (e : Toml.Entry) : Configured := .ofToml origin e.value

/-- The values of a section in a layer. -/
def printedFields (origin : String) (entries : Dict Toml.Entry) : List (String × Configured) :=
  entries.map fun e => (e.1, printed origin e.2)

/-- The sections of settings with their values in a layer. -/
def printedSections (origin : String) (s : Settings) : List (String × List (String × Configured)) :=
  s.sections.map fun section_ => (section_.1, printedFields origin section_.2)

/-- The layer of some sections. -/
def sectionLayer (origin : String) (sections : List (String × List (String × Configured))) :
    List (String × Configured) :=
  sections.map fun section_ => (section_.1, .table section_.2 (some origin))

/-- The names of all sections and fields. -/
def names : List String :=
  ["roots", "base_class", "props_param_index", "skip_prefixes", "output", "envelope",
    "resource_pattern", "format", "symbolic_alternatives", "diagnostics", "emit", "suppress",
    "color"]

theorem bareKey_of_mem_names : ∀ name ∈ names, Toml.BareKey name := by decide +kernel

theorem lower_of_mem_names : ∀ name ∈ names, Text.lower name = name := by decide +kernel

theorem place_of_mem_names : ∀ name ∈ names,
    Configured.KeyPath.ofText? (Text.lower name) = some (.name name) := by
  simp only [names, List.forall_mem_cons]
  refine ⟨rfl, rfl, rfl, rfl, rfl, rfl, rfl, rfl, rfl, rfl, rfl, rfl, rfl, ?_⟩
  exact fun _ member => nomatch member

theorem keys_sections (s : Settings) : s.sections.keys = ["roots", "output", "diagnostics"] := rfl

theorem distinct_sections (s : Settings) : s.sections.Distinct := by
  rw [Dict.Distinct, keys_sections]
  decide

theorem mem_names_of_sections (s : Settings) : ∀ section_ ∈ s.sections, section_.1 ∈ names := by
  have known : ∀ name ∈ s.sections.keys, name ∈ names := by
    rw [keys_sections]
    decide
  exact fun section_ member => known _ (List.mem_map_of_mem member)

theorem fields_of_keys (keys : List String) {entries : Dict Toml.Entry}
    (same : entries.keys = keys) (distinct : keys.Nodup) (known : ∀ key ∈ keys, key ∈ names) :
    entries.Distinct ∧ ∀ e ∈ entries, e.1 ∈ names := by
  subst same
  exact ⟨distinct, fun e member => known _ (List.mem_map_of_mem member)⟩

/-- The keys of a section are distinct names of fields. -/
theorem fields_sections (s : Settings) : ∀ section_ ∈ s.sections,
    section_.2.Distinct ∧ ∀ e ∈ section_.2, e.1 ∈ names := by
  obtain ⟨roots, ⟨envelope, pattern, format, symbolic⟩, diagnostics⟩ := s
  refine List.forall_mem_cons.2 ⟨?roots, List.forall_mem_cons.2 ⟨?output,
    List.forall_mem_cons.2 ⟨?diagnostics, fun _ member => nomatch member⟩⟩⟩
  case roots =>
    exact fields_of_keys ["base_class", "props_param_index", "skip_prefixes"] rfl (by decide)
      (by decide)
  case output =>
    cases envelope with
    | none =>
        exact fields_of_keys ["resource_pattern", "format", "symbolic_alternatives"] rfl (by decide)
          (by decide)
    | some path =>
        exact fields_of_keys ["envelope", "resource_pattern", "format", "symbolic_alternatives"] rfl
          (by decide) (by decide)
  case diagnostics =>
    exact fields_of_keys ["emit", "suppress", "color"] rfl (by decide) (by decide)

theorem inRange_sections {s : Settings} (printable : s.isPrintable = true) :
    ∀ section_ ∈ s.sections, ∀ e ∈ section_.2, e.2.inRange := by
  have index : s.roots.propsIndex < Word.signedLimit := of_decide_eq_true printable
  obtain ⟨roots, ⟨envelope, pattern, format, symbolic⟩, diagnostics⟩ := s
  cases envelope <;>
    simp only [sections, envelopeEntry, List.nil_append, List.cons_append, List.forall_mem_cons,
      Toml.Entry.inRange, index, List.not_mem_nil, false_implies, implies_true, and_self]

theorem printable_sections {s : Settings} (printable : s.isPrintable = true) :
    ∀ section_ ∈ s.sections, Toml.BareKey section_.1 ∧ Toml.Printable section_.2 := by
  intro section_ member
  obtain ⟨distinct, known⟩ := s.fields_sections section_ member
  exact ⟨bareKey_of_mem_names _ (s.mem_names_of_sections section_ member), distinct,
    fun e inside => bareKey_of_mem_names _ (known e inside), inRange_sections printable _ member⟩

theorem parse_toToml [ForeignFormats] {s : Settings} (printable : s.isPrintable = true)
    (origin : String) : ConfigFormat.toml.parse? origin s.toToml =
      some (sectionLayer origin (s.printedSections origin)) := by
  have read := Toml.ofText?_documentText s.distinct_sections (printable_sections printable)
  rw [ConfigFormat.parse?, toToml, read, Option.map_some, Configured.ofTomlEntries_eq,
    List.map_map, sectionLayer, printedSections, List.map_map]
  refine congrArg some (List.map_congr_left fun section_ _ => ?_)
  simp only [Function.comp, Toml.sectionValue, Configured.ofToml, Configured.ofTomlEntries_eq,
    List.map_map, printedFields]
  rfl

/-! ## The values of the layer -/

open Configured

theorem asText_print (origin s : String) (path : List SettingStep) :
    asText path (printed origin (.text s)) = .ok s := rfl

theorem asNatural_print (origin : String) (n : Nat) (path : List SettingStep) :
    asNatural path (printed origin (.number n)) = .ok n := by
  simp only [printed, Toml.Entry.value, ofToml, asNatural]
  rw [if_neg (by omega), Int.toNat_natCast]

theorem asFlag_print (origin : String) (b : Bool) (path : List SettingStep) :
    asFlag path (printed origin (.flag b)) = .ok b := rfl

theorem asOptional_print (origin s : String) (path : List SettingStep) :
    asOptional asText path (printed origin (.text s)) = .ok (some s) := rfl

theorem asFormat_print (origin : String) (f : OutputFormat) (path : List SettingStep) :
    asChoice "OutputFormat" OutputFormat.all OutputFormat.text path (printed origin (.text f.text)) =
      .ok f := by
  cases f <;> rfl

theorem asColor_print (origin : String) (m : ColorMode) (path : List SettingStep) :
    asChoice "ColorMode" ColorMode.all ColorMode.text path (printed origin (.text m.text)) =
      .ok m := by
  cases m <;> rfl

theorem asElements_print (origin : String) (values : List String) (path : List SettingStep)
    (position : Nat) : asElements asText path position
      (values.map fun s => printed origin (.text s)) = .ok values := by
  induction values generalizing position with
  | nil => rfl
  | cons s values ih =>
      rw [List.map_cons, asElements, asText_print, ih]
      rfl

theorem asList_print (origin : String) (values : List String) (path : List SettingStep) :
    asList asText path (printed origin (.texts values)) = .ok values := by
  have elements : printed origin (.texts values) =
      .list (values.map fun s => printed origin (.text s)) origin := by
    simp only [printed, Toml.Entry.value, ofToml, ofTomlAll_eq, List.map_map]
    rfl
  rw [elements, asList, asElements_print]

end Settings

end ManifestSchema
