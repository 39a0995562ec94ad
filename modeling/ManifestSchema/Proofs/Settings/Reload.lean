import ManifestSchema.Proofs.Settings.Directory
import ManifestSchema.Proofs.Settings.Runs
import ManifestSchema.Proofs.Settings.Sections

/-!
# Loading settings that were printed

Settings are loaded, printed, and loaded again in the same environment from what was printed. Runs go
through the entries of tables and the variables in orders of their own, so settings are meant that
every run loads. The second run gives them again, in every field, unless a field was left out of the
text: settings without an envelope are printed without one, and then an envelope of a lower layer
shows, or of the environment. Variables are meant that name fields by their keys, since sections are
printed as tables. A variable that counts from the end of a list can stop the second run, when the
list came from the file of the first one.

Results:

1. `Settings.requestedLayer_toToml`: the layer that printed settings are;
2. `Settings.decode_again_iff`: when the settings are decoded again, in one order of everything;
3. `Settings.load_toToml_iff`: when every second run gives the settings of the first one;
4. `Settings.toToml_differs`: runs that give other settings, one for each exception.
-/

namespace ManifestSchema

namespace Settings

open Configured

section Load

variable [ForeignFormats] {t t' : FileTree} {environment : List (String × String)}
  {config : Option String} {name : String} {s : Settings}

/-- The layer in a file that settings were printed to. -/
theorem requestedLayer_toToml (printable : s.isPrintable = true) {formats : List ConfigFormat}
    {file : String} (found : findFile formats t name = .ok (file, .toml))
    (text : t.readText file = .ok s.toToml) :
    requestedLayer formats t (some name) = .ok (sectionLayer
      ("/".intercalate (Path.ofText file).steps)
      (s.printedSections ("/".intercalate (Path.ofText file).steps))) := by
  rw [requestedLayer, found]
  change fileLayer t file .toml = _
  rw [fileLayer, text]
  simp only [parse_toToml printable]

theorem mapM_defaultFiles {formats : List ConfigFormat}
    (same : ∀ d ∈ defaultFiles, optionalLayer formats t' d = optionalLayer formats t d) :
    defaultFiles.mapM (optionalLayer formats t') = defaultFiles.mapM (optionalLayer formats t) := by
  simp only [defaultFiles, List.forall_mem_cons] at same
  simp only [defaultFiles, List.mapM_cons, List.mapM_nil, same.1, same.2.1]

/-- A second run in the same environment and with the same files that are read unasked, which is
given the settings that every first run loads as a file, as they are printed. -/
structure Rerun (t t' : FileTree) (environment : List (String × String))
    (config : Option String) (name : String) (s : Settings) : Prop where
  loaded : AlwaysLoads t environment config s
  printable : s.isPrintable = true
  printed : ∃ file, t'.readText file = .ok s.toToml ∧
    ∀ formats : List ConfigFormat, formats.Perm ConfigFormat.all →
      findFile formats t' name = .ok (file, .toml)
  same : ∀ formats : List ConfigFormat, formats.Perm ConfigFormat.all →
    ∀ d ∈ defaultFiles, optionalLayer formats t' d = optionalLayer formats t d

/-- The printed layer between lower layers and variables, each in some order. -/
theorem decode_again_iff (loaded : AlwaysLoads t environment config s)
    (keyed : ∀ p ∈ Environment.layer environment, KeyedIn s.sections.keys p.1)
    {origin : String} {layer given : List (String × Configured)}
    (arranged : Arranged (.table (sectionLayer origin (s.printedSections origin)) none)
      (.table layer none))
    (order : given.Perm (Environment.layer environment))
    (lower : List (List (String × Configured))) :
    decode (configuration (lower ++ [layer, given])) = .ok s ↔ (s.output.envelope = none →
      IsAbsent ((configuration (lower ++ [[], given])).field "output" "envelope")) := by
  have set (p) (member : p ∈ Environment.layer environment) : IsVariable p :=
    Environment.isVariable_layer environment p member
  obtain ⟨readable, decoded⟩ := alwaysLoads_iff.1 loaded
  obtain ⟨_, found⟩ := readable _ (.refl _)
  obtain ⟨defaults, requested, files, asked, _⟩ := layers_ok_iff.1 found
  have first (given') (order' : given'.Perm (Environment.layer environment)) :
      decode (overlay (overlay (configuration defaults) requested) given') = .ok s := by
    rw [← configuration_append]
    exact (decoded _ (layered_iff.2 ⟨_, defaults, requested, defaults, requested, given', .refl _,
      files, asked, .refl _, .refl _, order', rfl⟩)).2
  have shows : s.Shows (overlay (overlay (configuration lower) layer) given) := by
    refine Shows.overlay (fun p member => ⟨set p member, keyed p member⟩) first
      (shows_printed arranged _) (fun f member e printed u there => ?_)
      (List.append_nil given ▸ order)
    rw [field_printed arranged _ member printed] at there
    exact Option.some.inj there ▸ isTable_printed _ _
  rw [configuration_append, shows.decode_iff, configuration_append]
  refine imp_congr_right fun absent => ?_
  rw [Carried.eq.overlay (fun p member => set p (order.mem_iff.1 member))
    (field_envelope arranged (configuration lower) absent)]
  rfl

end Load

/-! ## Runs in a small directory -/

/-- A directory with the files that are read unasked, the second of which is empty, one that is asked
for, and one for printed settings. -/
def directory (shared own printed : String) : FileTree :=
  ⟨[], [(["decl-schema.toml"], .text shared), ([".decl-schema.toml"], .text ""),
    (["own.json"], .text own), (["printed.toml"], .text printed)]⟩

/-- The layer in a file of the directory. -/
def layerIn (format : ConfigFormat) (name text : String) : List (String × Configured) :=
  (format.parse? name text).getD []

theorem parse_layerIn {format : ConfigFormat} {name text : String}
    (readable : (format.parse? name text).isSome = true) :
    format.parse? name text = some (layerIn format name text) := by
  obtain ⟨layer, read⟩ := Option.isSome_iff_exists.1 readable
  rw [layerIn, read]
  rfl

/-- The layers of a run in the directory. -/
def layersIn (shared : String) (requested given : List (String × Configured)) :
    List (List (String × Configured)) :=
  [layerIn .toml "decl-schema.toml" shared, [], requested, given]

/-- The layer that printed settings are. -/
def printedLayer (s : Settings) : List (String × Configured) :=
  sectionLayer "printed.toml" (s.printedSections "printed.toml")

section Directory

variable {shared own printed : String} {environment : List (String × String)}
  {requested named given : List (String × Configured)} {config : Option String} {s : Settings}

theorem requestedLayer_own
    (readable : (ConfigFormat.json.parse? "own.json" own).isSome = true)
    (formats : List ConfigFormat) :
    requestedLayer formats (directory shared own printed) (some "own.json") =
      .ok (layerIn .json "own.json" own) :=
  requestedLayer_plain formats (by decide) rfl (by decide) (parse_layerIn readable)

theorem requestedLayer_printed (shared own : String) (printable : s.isPrintable = true)
    (formats : List ConfigFormat) :
    requestedLayer formats (directory shared own s.toToml) (some "printed.toml") =
      .ok s.printedLayer :=
  requestedLayer_plain formats (by decide) rfl (by decide) (parse_toToml printable _)

variable (readable : (ConfigFormat.toml.parse? "decl-schema.toml" shared).isSome = true)
  (asked : ∀ formats,
    requestedLayer formats (directory shared own printed) config = .ok requested)

include readable

theorem mapM_directory (formats : List ConfigFormat) :
    defaultFiles.mapM (optionalLayer formats (directory shared own printed)) =
      .ok [layerIn .toml "decl-schema.toml" shared, []] := by
  have first : optionalLayer formats (directory shared own printed) "decl-schema.toml" =
      .ok (layerIn .toml "decl-schema.toml" shared) :=
    optionalLayer_plain formats (by decide) rfl (by decide) (parse_layerIn readable)
  have known : ConfigFormat.ofName? ".decl-schema.toml" = some .toml := by decide
  have second : optionalLayer formats (directory shared own printed) ".decl-schema.toml" =
      .ok [] := optionalLayer_plain formats (by decide) rfl known rfl
  rw [defaultFiles, List.mapM_cons, first, List.mapM_cons, second]
  rfl

include asked

/-- A run that goes through its layers as they are written, and through its variables in some
order. -/
theorem loads_directory (set : Environment.layer environment = named) (order : given.Perm named)
    (ends : outcome (layersIn shared requested given) = some s) :
    Loads (directory shared own printed) environment config (some s) := by
  have layered : Layered (directory shared own printed) environment config
      (layersIn shared requested given) :=
    layered_iff.2 ⟨_, _, requested, _, requested, given, .refl _,
      mapM_directory readable ConfigFormat.all, asked _, .refl _, .refl _, set ▸ order, rfl⟩
  exact ends ▸ layered.loads

theorem layers_directory (set : Environment.layer environment = given)
    (formats : List ConfigFormat) :
    layers formats (directory shared own printed) environment config =
      .ok (layersIn shared requested given) :=
  layers_ok_iff.2 ⟨_, requested, mapM_directory readable formats, asked formats, set ▸ rfl⟩

omit asked

/-- A first run that goes through its layers in one order only. -/
theorem rerun_directory
    (asked : ∀ formats,
      requestedLayer formats (directory shared own s.toToml) config = .ok requested)
    (set : Environment.layer environment = given)
    (rigid : (layersIn shared requested given).all isRigidAll = true)
    (ends : outcome (layersIn shared requested given) = some s)
    (printable : s.isPrintable = true) :
    Rerun (directory shared own s.toToml) (directory shared own s.toToml) environment config
      "printed.toml" s where
  loaded := alwaysLoads_of_isRigid (layers_directory readable asked set) rigid ends
  printable := printable
  printed := ⟨_, readText_plain (by decide) rfl,
    fun formats _ => findFile_plain (by decide) rfl (by decide) formats⟩
  same _ _ _ _ := rfl

end Directory

/-- Settings that every first run loads, and that some run does not load from the file that they are
printed to. -/
def Differs (shared own : String) (environment : List (String × String)) (config : Option String)
    (s : Settings) : Prop :=
  Rerun (directory shared own s.toToml) (directory shared own s.toToml) environment config
    "printed.toml" s ∧
  ¬AlwaysLoads (directory shared own s.toToml) environment (some "printed.toml") s

theorem differs_directory {shared own : String} {environment : List (String × String)}
    {config : Option String} {s : Settings} {requested given : List (String × Configured)}
    (readable : (ConfigFormat.toml.parse? "decl-schema.toml" shared).isSome = true)
    (asked : ∀ formats,
      requestedLayer formats (directory shared own s.toToml) config = .ok requested)
    (set : Environment.layer environment = given)
    (rigid : (layersIn shared requested given).all isRigidAll = true)
    (ends : outcome (layersIn shared requested given) = some s)
    (printable : s.isPrintable = true)
    (again : outcome (layersIn shared s.printedLayer given) ≠ some s) :
    Differs shared own environment config s := by
  refine ⟨rerun_directory readable asked set rigid ends printable, fun loaded => again ?_⟩
  have read := layers_directory readable (requestedLayer_printed shared own printable) set
  exact outcome_eq_some_iff.2 ((alwaysLoads_iff.1 loaded).2 _
    ⟨_, _, .refl _, read ConfigFormat.all, .refl _⟩)

/-- The key that a variable sets, from its name behind the prefix. -/
theorem setting?_eq (rest : String) {name key : String}
    (start : Environment.namePrefix.isPrefixOf (Text.lower name).toList = true)
    (behind : String.ofList ((Text.lower name).toList.drop Environment.namePrefix.length) = rest)
    (parts : ".".intercalate (rest.splitOn "__") = key) (text : String) :
    Environment.setting? (name, text) = some (key, Environment.valueOf key text) := by
  rw [Environment.setting?]
  simp only [start, if_true, behind, parts]

theorem setting?_field (text : String) :
    Environment.setting? ("DECL_SCHEMA__OUTPUT[1]", text) =
      some ("output[1]", Environment.valueOf "output[1]" text) := by
  have parts : "output[1]".splitOn "__" = ["output[1]"] := by
    simp +decide [String.splitOn, String.splitOnAux]
  exact setting?_eq "output[1]" (by decide) (by decide) (by rw [parts]; rfl) text

theorem setting?_fromEnd (text : String) :
    Environment.setting? ("DECL_SCHEMA__FOO[-1]", text) =
      some ("foo[-1]", Environment.valueOf "foo[-1]" text) := by
  have parts : "foo[-1]".splitOn "__" = ["foo[-1]"] := by
    simp +decide [String.splitOn, String.splitOnAux]
  exact setting?_eq "foo[-1]" (by decide) (by decide) (by rw [parts]; rfl) text

theorem setting?_list (text : String) :
    Environment.setting? ("DECL_SCHEMA__ROOTS__SKIP_PREFIXES", text) =
      some ("roots.skip_prefixes", Environment.valueOf "roots.skip_prefixes" text) := by
  have parts : "roots__skip_prefixes".splitOn "__" = ["roots", "skip_prefixes"] := by
    simp +decide [String.splitOn, String.splitOnAux]
  exact setting?_eq "roots__skip_prefixes" (by decide) (by decide)
    (by rw [parts]; rfl) text

theorem setting?_element (text : String) :
    Environment.setting? ("DECL_SCHEMA__ROOTS__SKIP_PREFIXES[2]", text) =
      some ("roots.skip_prefixes[2]", Environment.valueOf "roots.skip_prefixes[2]" text) := by
  have parts : "roots__skip_prefixes[2]".splitOn "__" = ["roots", "skip_prefixes[2]"] := by
    simp +decide [String.splitOn, String.splitOnAux]
  exact setting?_eq "roots__skip_prefixes[2]" (by decide) (by decide)
    (by rw [parts]; rfl) text

theorem valueOf_list : Environment.valueOf "roots.skip_prefixes" "x,y" =
    .list [.scalar (.text "x") Environment.origin, .scalar (.text "y") Environment.origin]
      Environment.origin := by
  have lower : Text.lower "x,y" = "x,y" := rfl
  have integer : Environment.integer? "x,y" = none := rfl
  have float : Environment.float? "x,y" = none := rfl
  have parts : "x,y".splitOn "," = ["x", "y"] := by
    simp +decide [String.splitOn, String.splitOnAux]
  unfold Environment.valueOf
  rw [lower, integer, float, parts]
  rfl

/-- Two variables, one for a list and one for an element of it. -/
def twoVariables : List (String × String) :=
  [("DECL_SCHEMA__ROOTS__SKIP_PREFIXES", "x,y"), ("DECL_SCHEMA__ROOTS__SKIP_PREFIXES[2]", "z")]

theorem layer_twoVariables : Environment.layer twoVariables =
    [("roots.skip_prefixes", .list [.scalar (.text "x") Environment.origin,
        .scalar (.text "y") Environment.origin] Environment.origin),
      ("roots.skip_prefixes[2]", Environment.valueOf "roots.skip_prefixes[2]" "z")] := by
  rw [Environment.layer, twoVariables, List.filterMap_cons, setting?_list, List.filterMap_cons,
    setting?_element, valueOf_list]
  rfl

/-- The settings of a run that configures nothing but prefixes. -/
def prefixSettings (prefixes : List String) : Settings :=
  { Settings.default with roots := { Settings.default.roots with skipPrefixes := prefixes } }

/-- A file with a list of prefixes, one of which has to be quoted. -/
def lampDefaults : String := "[roots]\nskip_prefixes = [\"a.\", \"b\\n\"]\n"

/-- A file with an envelope. -/
def lampConfig : String := "\x7b\"output\":\x7b\"envelope\":\"e.json\"\x7d\x7d"

/-- The settings of both files, and of a variable that adds a prefix. -/
def lampSettings : Settings :=
  ⟨⟨defaultBaseClass, 2, ["a.", "b\n", "'c' \"d\""]⟩,
    ⟨some "e.json", Envelope.defaultPattern, .pretty, false⟩, ⟨false, [], .auto⟩⟩

end Settings

end ManifestSchema
