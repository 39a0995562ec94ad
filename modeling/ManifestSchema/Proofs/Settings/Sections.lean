import Mathlib.Data.List.Induction
import ManifestSchema.Proofs.Settings.Fields

/-!
# Sections of settings that are loaded again

The sections of printed settings are put over those that are there, and variables over both, in any
order. Each variable comes last in some run that gives the settings, so that what is read from its
field after it is what was printed. Only an envelope can be another: none is printed when there is
none, and the field is then read from whatever is there.

Results:

1. `Settings.reads_of_decode`: what is read from the fields of a configuration with these settings;
2. `Settings.Shows.write` and `Settings.Shows.overlay`: each field that was printed shows under one
   variable, and under all in any order;
3. `Settings.Shows.decode_iff`: when the settings are decoded that were printed.
-/

namespace ManifestSchema

namespace Settings

open Configured

variable {origin : String} {s : Settings}

/-! ## Fields -/

/-- A field of settings: where it stands, how it is decoded, to which value, and what is printed of
it, if anything is. -/
structure Field : Type 1 where
  section_ : String
  key : String
  position : Nat
  Value : Type
  default : Value
  decode : Decoder Value
  value : Value
  entry : Option Toml.Entry

namespace Field

/-- Whether a value is decoded to that of the field. -/
def Reads (f : Field) (v : Configured) : Prop :=
  f.decode [.key f.section_, .key f.key] v = .ok f.value

/-- Whether the field is decoded from a section. -/
def DecodesIn (f : Field) (section_ : Configured) : Prop :=
  section_.fieldOf f.position f.key f.default f.decode [.key f.section_] = .ok f.value

/-- Whether the field is decoded from a configuration whose sections are tables. -/
def HoldsIn (f : Field) (v : Configured) : Prop :=
  match v.field f.section_ f.key with
  | some u => f.Reads u
  | none => f.default = f.value

end Field

def rootsFields (r : RootSelection) : List Field :=
  [⟨"roots", "base_class", 0, _, Settings.default.roots.baseClass, asText, r.baseClass,
      some (.text r.baseClass)⟩,
    ⟨"roots", "props_param_index", 1, _, Settings.default.roots.propsIndex, asNatural, r.propsIndex,
      some (.number r.propsIndex)⟩,
    ⟨"roots", "skip_prefixes", 2, _, [], asList asText, r.skipPrefixes,
      some (.texts r.skipPrefixes)⟩]

def envelopeField (o : OutputSettings) : Field :=
  ⟨"output", "envelope", 0, _, none, asOptional asText, o.envelope, o.envelope.map .text⟩

def outputFields (o : OutputSettings) : List Field :=
  [envelopeField o,
    ⟨"output", "resource_pattern", 1, _, Settings.default.output.resourcePattern, asText,
      o.resourcePattern, some (.text o.resourcePattern)⟩,
    ⟨"output", "format", 2, _, Settings.default.output.format,
      asChoice "OutputFormat" OutputFormat.all OutputFormat.text, o.format,
      some (.text o.format.text)⟩,
    ⟨"output", "symbolic_alternatives", 3, _, false, asFlag, o.symbolicAlternatives,
      some (.flag o.symbolicAlternatives)⟩]

def diagnosticsFields (d : DiagnosticsSettings) : List Field :=
  [⟨"diagnostics", "emit", 0, _, false, asFlag, d.emit, some (.flag d.emit)⟩,
    ⟨"diagnostics", "suppress", 1, _, [], asList asText, d.suppress, some (.texts d.suppress)⟩,
    ⟨"diagnostics", "color", 2, _, Settings.default.diagnostics.color,
      asChoice "ColorMode" ColorMode.all ColorMode.text, d.color, some (.text d.color.text)⟩]

def fields (s : Settings) : List Field :=
  rootsFields s.roots ++ outputFields s.output ++ diagnosticsFields s.diagnostics

theorem decodeRoots_ok_iff {v : Configured} {r : RootSelection} :
    decodeRoots [.key "roots"] v = .ok r ↔ ∀ f ∈ rootsFields r, f.DecodesIn v := by
  simp only [decodeRoots, rootsFields, bind_eq_ok_iff, List.forall_mem_cons, Field.DecodesIn]
  constructor
  · rintro ⟨_, h₁, _, h₂, _, h₃, ⟨⟩⟩
    exact ⟨h₁, h₂, h₃, nofun⟩
  · rintro ⟨h₁, h₂, h₃, _⟩
    exact ⟨_, h₁, _, h₂, _, h₃, rfl⟩

theorem decodeOutput_ok_iff {v : Configured} {o : OutputSettings} :
    decodeOutput [.key "output"] v = .ok o ↔ ∀ f ∈ outputFields o, f.DecodesIn v := by
  simp only [decodeOutput, outputFields, bind_eq_ok_iff, List.forall_mem_cons, Field.DecodesIn,
    envelopeField]
  constructor
  · rintro ⟨_, h₁, _, h₂, _, h₃, _, h₄, ⟨⟩⟩
    exact ⟨h₁, h₂, h₃, h₄, nofun⟩
  · rintro ⟨h₁, h₂, h₃, h₄, _⟩
    exact ⟨_, h₁, _, h₂, _, h₃, _, h₄, rfl⟩

theorem decodeDiagnostics_ok_iff {v : Configured} {d : DiagnosticsSettings} :
    decodeDiagnostics [.key "diagnostics"] v = .ok d ↔
      ∀ f ∈ diagnosticsFields d, f.DecodesIn v := by
  simp only [decodeDiagnostics, diagnosticsFields, bind_eq_ok_iff, List.forall_mem_cons,
    Field.DecodesIn]
  constructor
  · rintro ⟨_, h₁, _, h₂, _, h₃, ⟨⟩⟩
    exact ⟨h₁, h₂, h₃, nofun⟩
  · rintro ⟨h₁, h₂, h₃, _⟩
    exact ⟨_, h₁, _, h₂, _, h₃, rfl⟩

theorem section_roots (r : RootSelection) : ∀ f ∈ rootsFields r, f.section_ = "roots" := by
  simp [rootsFields]

theorem section_output (o : OutputSettings) : ∀ f ∈ outputFields o, f.section_ = "output" := by
  simp [outputFields, envelopeField]

theorem section_diagnostics (d : DiagnosticsSettings) :
    ∀ f ∈ diagnosticsFields d, f.section_ = "diagnostics" := by
  simp [diagnosticsFields]

theorem sticks_fields (s : Settings) : ∀ f ∈ s.fields, Sticks f.Reads := by
  simp only [fields, rootsFields, outputFields, diagnosticsFields, List.forall_mem_append,
    List.forall_mem_cons]
  refine ⟨⟨⟨?_, ?_, ?_, nofun⟩, ?_, ?_, ?_, ?_, nofun⟩, ?_, ?_, ?_, nofun⟩
  · exact readsScalars_asText.sticks
  · exact readsScalars_asNatural.sticks
  · exact sticks_asList readsScalars_asText
  · exact readsScalars_asOptional.sticks
  · exact readsScalars_asText.sticks
  · exact sticks_asChoice [.key "output", .key "format"]
  · exact readsScalars_asFlag.sticks
  · exact readsScalars_asFlag.sticks
  · exact sticks_asList readsScalars_asText
  · exact sticks_asChoice [.key "diagnostics", .key "color"]

/-- What is printed of a field gives its value back. -/
theorem reads_printed (origin : String) (s : Settings) :
    ∀ f ∈ s.fields, ∀ e ∈ f.entry, f.Reads (printed origin e) := by
  simp only [fields, rootsFields, outputFields, envelopeField, diagnosticsFields,
    List.forall_mem_append, List.forall_mem_cons, Option.mem_def, Option.map_eq_some_iff]
  refine ⟨⟨⟨?_, ?_, ?_, nofun⟩, ?_, ?_, ?_, ?_, nofun⟩, ?_, ?_, ?_, nofun⟩
  · rintro _ ⟨⟩
    exact asText_print origin _ [.key "roots", .key "base_class"]
  · rintro _ ⟨⟩
    exact asNatural_print origin _ [.key "roots", .key "props_param_index"]
  · rintro _ ⟨⟩
    exact asList_print origin _ [.key "roots", .key "skip_prefixes"]
  · rintro _ ⟨path, envelope, rfl⟩
    exact envelope ▸ asOptional_print origin path [.key "output", .key "envelope"]
  · rintro _ ⟨⟩
    exact asText_print origin _ [.key "output", .key "resource_pattern"]
  · rintro _ ⟨⟩
    exact asFormat_print origin _ [.key "output", .key "format"]
  · rintro _ ⟨⟩
    exact asFlag_print origin _ [.key "output", .key "symbolic_alternatives"]
  · rintro _ ⟨⟩
    exact asFlag_print origin _ [.key "diagnostics", .key "emit"]
  · rintro _ ⟨⟩
    exact asList_print origin _ [.key "diagnostics", .key "suppress"]
  · rintro _ ⟨⟩
    exact asColor_print origin _ [.key "diagnostics", .key "color"]

/-- The fields are those of the sections that are printed. -/
theorem entry_fields (s : Settings) : ∀ f ∈ s.fields, ∃ entries,
    (f.section_, entries) ∈ s.sections ∧ Dict.find? entries f.key = f.entry := by
  obtain ⟨roots, ⟨envelope, pattern, format, symbolic⟩, diagnostics⟩ := s
  cases envelope <;>
    simp [fields, rootsFields, outputFields, envelopeField, diagnosticsFields, sections,
      envelopeEntry, Dict.find?_cons]

theorem envelopeField_mem (s : Settings) : envelopeField s.output ∈ s.fields := by
  simp [fields, outputFields]

/-- Only an envelope may not be printed. -/
theorem eq_envelopeField (s : Settings) :
    ∀ f ∈ s.fields, f.entry = none → f = envelopeField s.output := by
  simp [fields, rootsFields, outputFields, diagnosticsFields]

/-! ## Decoding -/

theorem decode_ok_iff {v : Configured} {s : Settings} : decode v = .ok s ↔
    v.fieldOf 0 "roots" Settings.default.roots (asSection "RootsConfig" decodeRoots) [] =
      .ok s.roots ∧
    v.fieldOf 1 "output" Settings.default.output (asSection "OutputConfig" decodeOutput) [] =
      .ok s.output ∧
    v.fieldOf 2 "diagnostics" Settings.default.diagnostics
      (asSection "DiagnosticsConfig" decodeDiagnostics) [] = .ok s.diagnostics := by
  simp only [decode, bind_eq_ok_iff]
  constructor
  · rintro ⟨roots, h₁, output, h₂, diagnostics, h₃, ⟨⟩⟩
    exact ⟨h₁, h₂, h₃⟩
  · rintro ⟨h₁, h₂, h₃⟩
    exact ⟨_, h₁, _, h₂, _, h₃, rfl⟩

/-- A field with an entry under its key is decoded from the entry. -/
theorem fieldOf_entry {α : Type} {v u : Configured} {key : String} (found : v.entry key = some u)
    (position : Nat) (default : α) (decode : Decoder α) (path : List SettingStep) :
    v.fieldOf position key default decode path = decode (path ++ [.key key]) u := by
  obtain ⟨entries, origin, rfl⟩ := isTable_iff.1 (isTable_of_entry found)
  rw [entry_table] at found
  rw [fieldOf, found]

theorem Field.decodesIn_iff (f : Field) {v : Configured} (table : v.isTable = true) :
    f.DecodesIn v ↔ match v.entry f.key with
      | some u => f.Reads u
      | none => f.default = f.value := by
  obtain ⟨entries, origin, rfl⟩ := isTable_iff.1 table
  rw [DecodesIn, fieldOf, entry_table]
  cases Dict.find? entries f.key with
  | some u => exact .rfl
  | none => exact ⟨Except.ok.inj, congrArg _⟩

theorem asSection_ok_iff {α : Type} {name : String} {decode : Decoder α} {path : List SettingStep}
    {v : Configured} {value : α} : asSection name decode path v = .ok value ↔
      v.isScalar = false ∧ decode path v = .ok value := by
  cases v with
  | scalar scalar origin => cases scalar <;> simp [asSection, misshapen, isScalar]
  | list elements origin => simp [asSection, isScalar]
  | table entries origin => simp [asSection, isScalar]

/-- A section that is a table is decoded field by field. -/
theorem section_ok_iff {α : Type} {name key : String} {position : Nat} {value default : α}
    {decode : Decoder α} {fields : List Field}
    (decodes : ∀ {v}, decode [.key key] v = .ok value ↔ ∀ f ∈ fields, f.DecodesIn v)
    (inside : ∀ f ∈ fields, f.section_ = key) {x v : Configured} (found : x.entry key = some v)
    (table : v.isTable = true) :
    x.fieldOf position key default (asSection name decode) [] = .ok value ↔
      ∀ f ∈ fields, f.HoldsIn x := by
  have shape : v.isScalar = false := by
    obtain ⟨entries, origin, rfl⟩ := isTable_iff.1 table
    rfl
  rw [fieldOf_entry found, asSection_ok_iff, List.nil_append, decodes]
  simp only [shape, true_and]
  refine forall₂_congr fun f member => ?_
  rw [f.decodesIn_iff table, Field.HoldsIn, field, inside f member, found]
  rfl

/-- Whether a value that need not be there is absent or null. -/
def IsAbsent : Option Configured → Prop
  | none => True
  | some (.scalar .nothing _) => True
  | _ => False

theorem isAbsent_iff {v : Option Configured} {path : List SettingStep} :
    IsAbsent v ↔ ∀ u, v = some u → asOptional asText path u = .ok none := by
  match v with
  | none => exact ⟨fun _ _ same => (nomatch same), fun _ => trivial⟩
  | some (.scalar .nothing origin) =>
      exact ⟨fun _ _ same => Option.some.inj same ▸ rfl, fun _ => trivial⟩
  | some (.scalar (.flag b) origin) => exact ⟨False.elim, fun read => nomatch read _ rfl⟩
  | some (.scalar (.integer n) origin) => exact ⟨False.elim, fun read => nomatch read _ rfl⟩
  | some (.scalar (.float f) origin) => exact ⟨False.elim, fun read => nomatch read _ rfl⟩
  | some (.scalar (.text t) origin) => exact ⟨False.elim, fun read => nomatch read _ rfl⟩
  | some (.list es origin) => exact ⟨False.elim, fun read => nomatch read _ rfl⟩
  | some (.table es origin) => exact ⟨False.elim, fun read => nomatch read _ rfl⟩

/-! ## What is read from a configuration -/

theorem section_reads {α : Type} {name key : String} {position : Nat} {value default : α}
    {decode : Decoder α} {fields : List Field}
    (decodes : ∀ {v}, decode [.key key] v = .ok value ↔ ∀ f ∈ fields, f.DecodesIn v)
    (inside : ∀ f ∈ fields, f.section_ = key) {x : Configured}
    (read : x.fieldOf position key default (asSection name decode) [] = .ok value) :
    ∀ f ∈ fields, ∀ u, x.field f.section_ f.key = some u → f.Reads u := by
  intro f member u found
  obtain ⟨v, there, under⟩ := exists_section found
  rw [inside f member] at there
  have holds := (section_ok_iff decodes inside there (isTable_of_entry under)).1 read f member
  unfold Field.HoldsIn at holds
  rw [found] at holds
  exact holds

theorem reads_of_decode {x : Configured} (decoded : decode x = .ok s) :
    ∀ f ∈ s.fields, ∀ u, x.field f.section_ f.key = some u → f.Reads u := by
  obtain ⟨roots, output, diagnostics⟩ := decode_ok_iff.1 decoded
  refine List.forall_mem_append.2 ⟨List.forall_mem_append.2 ⟨?_, ?_⟩, ?_⟩
  · exact section_reads decodeRoots_ok_iff (section_roots _) roots
  · exact section_reads decodeOutput_ok_iff (section_output _) output
  · exact section_reads decodeDiagnostics_ok_iff (section_diagnostics _) diagnostics

/-- A section from which settings are decoded is no scalar. -/
theorem isScalar_of_decode {x : Configured} (decoded : decode x = .ok s) {name : String}
    (listed : name ∈ s.sections.keys) {v : Configured} (found : x.entry name = some v) :
    v.isScalar = false := by
  obtain ⟨roots, output, diagnostics⟩ := decode_ok_iff.1 decoded
  simp only [keys_sections, List.mem_cons, List.not_mem_nil, or_false] at listed
  rcases listed with rfl | rfl | rfl
  · rw [fieldOf_entry found] at roots
    exact (asSection_ok_iff.1 roots).1
  · rw [fieldOf_entry found] at output
    exact (asSection_ok_iff.1 output).1
  · rw [fieldOf_entry found] at diagnostics
    exact (asSection_ok_iff.1 diagnostics).1

/-- Each field that is printed is there, and gives its value back. -/
def Shows (s : Settings) (v : Configured) : Prop :=
  ∀ f ∈ s.fields, ∀ e ∈ f.entry, ∃ u, v.field f.section_ f.key = some u ∧ f.Reads u

theorem section_mem_keys {f : Field} (member : f ∈ s.fields) : f.section_ ∈ s.sections.keys := by
  obtain ⟨entries, listed, _⟩ := s.entry_fields f member
  exact List.mem_map_of_mem listed

section Printed

variable {layer : List (String × Configured)}
  (arranged : Arranged (.table (sectionLayer origin (s.printedSections origin)) none)
    (.table layer none)) (root : Configured)

include arranged

theorem field_printed {f : Field} (member : f ∈ s.fields) {e : Toml.Entry} (given : e ∈ f.entry) :
    (overlay root layer).field f.section_ f.key = some (printed origin e) := by
  obtain ⟨entries, listed, found⟩ := s.entry_fields f member
  rw [field_overlay_printed arranged root listed, found, given]
  rfl

theorem shows_printed : s.Shows (overlay root layer) := fun f member e given =>
  ⟨_, field_printed arranged root member given, s.reads_printed origin f member e given⟩

/-- Without an envelope the layer leaves the one that is there. -/
theorem field_envelope (absent : s.output.envelope = none) :
    (overlay root layer).field "output" "envelope" = root.field "output" "envelope" := by
  obtain ⟨entries, listed, found⟩ := s.entry_fields _ (envelopeField_mem s)
  have missing : (envelopeField s.output).entry = none := congrArg (Option.map _) absent
  have field := field_overlay_printed arranged root listed (envelopeField s.output).key
  rw [found, missing] at field
  exact field

end Printed

/-! ## Variables -/

/-- A variable that comes last in a run with these settings, put over a configuration that shows
them. -/
theorem Shows.write {x y : Configured} (shows : s.Shows y) {outer : String} {inner : Write}
    (final : decode ((Write.entry outer inner).apply x) = .ok s)
    (covers : ∀ f ∈ s.fields, ∀ e ∈ f.entry, Covers ((x.field f.section_ f.key).getD nothing)
      ((y.field f.section_ f.key).getD nothing))
    (byKey : outer ∈ s.sections.keys → inner.ByKey) :
    s.Shows ((Write.entry outer inner).apply y) := by
  intro f member e given
  obtain ⟨u, found, reads⟩ := shows f member e given
  rcases Decidable.em (outer = f.section_) with rfl | other
  · have listed := section_mem_keys member
    have byKey := byKey listed
    cases inner with
    | element index rest => exact byKey.elim
    | replace value =>
        have replaced : ((Write.entry f.section_ (.replace value)).apply x).entry f.section_ =
            some value := by rw [Write.apply, entry_atKey, if_pos rfl]; rfl
        have other := isScalar_of_decode final listed replaced
        exact absurd (other.symm.trans byKey) Bool.false_ne_true
    | entry k rest =>
        have last := reads_of_decode final f member
        rw [field_write_entry] at last ⊢
        rcases Decidable.em (k = f.key) with rfl | apart
        · rw [if_pos rfl] at last ⊢
          have covers := covers f member e given
          rw [found] at covers ⊢
          exact ⟨_, rfl, s.sticks_fields f member (last _ rfl) reads covers⟩
        · rw [if_neg apart]
          exact ⟨u, found, reads⟩
  · rw [field_write_other other]
    exact ⟨u, found, reads⟩

/-- Variables in any order, when any order gives the settings over some configuration. -/
theorem Shows.overlay {x y : Configured} {layer : List (String × Configured)}
    (writes : ∀ p ∈ layer, IsVariable p ∧ KeyedIn s.sections.keys p.1)
    (first : ∀ layer', layer'.Perm layer → decode (overlay x layer') = .ok s)
    (shows : s.Shows y)
    (plain : ∀ f ∈ s.fields, ∀ e ∈ f.entry,
      ∀ u, y.field f.section_ f.key = some u → u.isTable = false)
    {before after : List (String × Configured)} (order : (before ++ after).Perm layer) :
    s.Shows (Configured.overlay y before) := by
  -- what has come so far is moved to the end, so that the next variable is the last one
  induction before using List.reverseRecOn generalizing after with
  | nil => exact shows
  | append_singleton before p ih =>
      rw [List.append_assoc] at order
      have shown := ih order
      have known := fun q member => writes q (order.mem_iff.1 member)
      obtain ⟨variable_, keyed⟩ := known p (by simp)
      obtain ⟨outer, inner, write, byKey⟩ := overlayEntry_eq variable_
      have final := first (after ++ (before ++ [p]))
        ((List.perm_append_comm.trans (List.append_assoc _ _ _ ▸ .refl _)).trans order)
      rw [overlay_append, overlay_append] at final
      rw [overlay_append]
      simp only [Configured.overlay, write] at final ⊢
      refine shown.write final (fun f member e given => ?_) (byKey _ keyed)
      refine Carried.covers.overlay (fun q inside => (known q (by simp [inside])).1) ?_
      obtain ⟨u, found, _⟩ := shows f member e given
      rw [found]
      exact covers_of_other (plain f member e given u found) _

/-! ## The settings -/

theorem exists_field (s : Settings) : ∀ name ∈ s.sections.keys,
    ∃ f ∈ s.fields, f.section_ = name ∧ f.entry.isSome = true := by
  simp [keys_sections, fields, rootsFields, outputFields, diagnosticsFields]

theorem Shows.isTable_section {v : Configured} (shows : s.Shows v) :
    ∀ name ∈ s.sections.keys, ∃ u, v.entry name = some u ∧ u.isTable = true := by
  intro name listed
  obtain ⟨f, member, rfl, given⟩ := s.exists_field name listed
  obtain ⟨e, given⟩ := Option.isSome_iff_exists.1 given
  obtain ⟨_, found, _⟩ := shows f member e given
  obtain ⟨u, there, under⟩ := exists_section found
  exact ⟨u, there, isTable_of_entry under⟩

theorem Shows.holdsIn {v : Configured} (shows : s.Shows v) {f : Field} (member : f ∈ s.fields)
    {e : Toml.Entry} (given : e ∈ f.entry) : f.HoldsIn v := by
  obtain ⟨u, found, reads⟩ := shows f member e given
  unfold Field.HoldsIn
  rw [found]
  exact reads

theorem Shows.decode_iff_holds {v : Configured} (shows : s.Shows v) :
    decode v = .ok s ↔ ∀ f ∈ s.fields, f.HoldsIn v := by
  obtain ⟨⟨r, foundRoots, roots⟩, ⟨o, foundOutput, output⟩, ⟨d, foundDiagnostics, diagnostics⟩, _⟩ :
      _ ∧ _ ∧ _ ∧ _ := by
    simpa only [keys_sections, List.forall_mem_cons] using shows.isTable_section
  rw [decode_ok_iff, section_ok_iff decodeRoots_ok_iff (section_roots _) foundRoots roots,
    section_ok_iff decodeOutput_ok_iff (section_output _) foundOutput output,
    section_ok_iff decodeDiagnostics_ok_iff (section_diagnostics _) foundDiagnostics diagnostics,
    fields, List.forall_mem_append, List.forall_mem_append, and_assoc]

theorem holdsIn_envelopeField (absent : s.output.envelope = none) (v : Configured) :
    (envelopeField s.output).HoldsIn v ↔ IsAbsent (v.field "output" "envelope") := by
  have reads (u : Configured) : (envelopeField s.output).Reads u ↔
      asOptional asText [.key "output", .key "envelope"] u = .ok none := by
    unfold Field.Reads envelopeField
    rw [absent]
  have place : v.field (envelopeField s.output).section_ (envelopeField s.output).key =
      v.field "output" "envelope" := rfl
  rw [isAbsent_iff, Field.HoldsIn, place]
  cases v.field "output" "envelope" with
  | none => exact iff_of_true absent.symm nofun
  | some u =>
      refine (reads u).trans ⟨fun read _ same => Option.some.inj same ▸ read, fun read => ?_⟩
      exact read u rfl

/-- The settings are those that were printed, unless an envelope shows that was not there before. -/
theorem Shows.decode_iff {v : Configured} (shows : s.Shows v) :
    decode v = .ok s ↔ (s.output.envelope = none → IsAbsent (v.field "output" "envelope")) := by
  rw [shows.decode_iff_holds]
  constructor
  · exact fun holds absent =>
      (holdsIn_envelopeField absent v).1 (holds _ (envelopeField_mem s))
  · intro absent f member
    cases given : f.entry with
    | some e => exact shows.holdsIn member given
    | none =>
        obtain rfl := eq_envelopeField s f member given
        have none_ : s.output.envelope = none := Option.map_eq_none_iff.1 given
        exact (holdsIn_envelopeField none_ v).2 (absent none_)

end Settings

end ManifestSchema
