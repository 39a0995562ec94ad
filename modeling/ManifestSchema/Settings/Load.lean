import ManifestSchema.Files.Tree
import ManifestSchema.Settings.Decode
import ManifestSchema.Settings.Environment

/-!
# Loading settings

The layers, lowest first: two files with fixed names, which may be missing, a file that is asked
for, and the environment. The format of a file is told by its extension, which may be left out of
its name. TOML and JSON are read here; the readers of the other formats are given from outside.

`Settings.load` looks for extensions in the order of `ConfigFormat.all`, and goes through entries in
the order in which they are written. The program has an order of its own for both in each run:
`Settings.Loads` says how a run can end.
-/

namespace ManifestSchema

/-- The format of a configuration file. -/
inductive ConfigFormat
  | toml
  | json
  | yaml
  | ini
  | ron
  | json5
deriving DecidableEq, Repr

/-- Readers of the formats other than TOML and JSON: the layer that a text is, unless it is malformed
or no table. Its values have the name of the file as their origin. -/
class ForeignFormats where
  parse? (format : ConfigFormat) (origin text : String) : Option (List (String × Configured))

/-- Without readers of their own such files count as malformed. -/
instance : ForeignFormats := ⟨fun _ _ _ => none⟩

namespace ConfigFormat

/-- The extensions of files of a format. -/
def extensions : ConfigFormat → List String
  | .toml => ["toml"]
  | .json => ["json"]
  | .yaml => ["yaml", "yml"]
  | .ini => ["ini"]
  | .ron => ["ron"]
  | .json5 => ["json5"]

def all : List ConfigFormat := [.toml, .json, .yaml, .ini, .ron, .json5]

/-- The extension of a name: what follows its last point, unless that is where the name starts. -/
def extensionOf (name : String) : String :=
  let reversed := name.toList.reverse
  let last := reversed.takeWhile (· ≠ '.')
  if last.length + 1 < reversed.length then String.ofList last.reverse else ""

/-- The format of a file by its name. -/
def ofName? (name : String) : Option ConfigFormat :=
  all.find? fun f => f.extensions.contains (extensionOf name)

/-- The layer that a text of a format is, unless it is malformed or no table. -/
def parse? [ForeignFormats] (f : ConfigFormat) (origin text : String) :
    Option (List (String × Configured)) :=
  match f with
  | .toml => (Toml.ofText? text).map (Configured.ofTomlEntries origin)
  | .json =>
      if Located.isWhole text then
        match Json.ofText text with
        | .ok (.obj members) => some (Configured.ofJsonEntries origin members)
        | _ => none
      else none
  | .yaml | .ini | .ron | .json5 => ForeignFormats.parse? f origin text

end ConfigFormat

namespace Settings

/-- A name with an extension behind its last part, if it has a part that can take one. -/
def extendedName? (name extension : String) : Option String :=
  let p := Path.ofText name
  match p.steps.getLast? with
  | none => none
  | some last =>
      if last = ".." then none
      else some ((if p.absolute then "/" else "") ++ "/".intercalate p.steps ++ "." ++ extension)

/-- The file that a name stands for, and its format: the file of that very name, or of the name with
an extension, where the formats are tried in order. -/
def findFile (formats : List ConfigFormat) (t : FileTree) (name : String) :
    Except SettingsError (String × ConfigFormat) :=
  if t.isFile name then
    match ConfigFormat.ofName? ((Path.ofText name).steps.getLast?.getD "") with
    | some format => .ok (name, format)
    | none => .error (.unknownFormat name)
  else
    let extended := formats.flatMap fun f =>
      f.extensions.filterMap fun e => (extendedName? name e).map (·, f)
    match extended.find? fun e => t.isFile e.1 with
    | some found => .ok found
    | none => .error (.fileNotFound name)

/-- The names of the files that are read unasked, the lower layer first. -/
def defaultFiles : List String := ["decl-schema.toml", ".decl-schema.toml"]

section Layers

variable [ForeignFormats]

/-- The layer in a file. -/
def fileLayer (t : FileTree) (name : String) (format : ConfigFormat) :
    Except SettingsError (List (String × Configured)) :=
  let origin := "/".intercalate (Path.ofText name).steps
  match t.readText name with
  | .error fault => .error (.unreadable fault)
  | .ok text =>
      match format.parse? origin text with
      | some layer => .ok layer
      | none => .error (.fileSyntax name)

/-- The layer of a file that may be missing or unreadable, but not malformed. -/
def optionalLayer (formats : List ConfigFormat) (t : FileTree) (name : String) :
    Except SettingsError (List (String × Configured)) :=
  match findFile formats t name with
  | .error _ => .ok []
  | .ok (name, format) =>
      match fileLayer t name format with
      | .error (.unreadable _) => .ok []
      | layer => layer

/-- The layer of a file that must be there, if one is asked for. -/
def requestedLayer (formats : List ConfigFormat) (t : FileTree) : Option String →
    Except SettingsError (List (String × Configured))
  | none => .ok []
  | some name => do
      let (name, format) ← findFile formats t name
      fileLayer t name format

/-- All layers, the lowest first. -/
def layers (formats : List ConfigFormat) (t : FileTree) (environment : List (String × String))
    (config : Option String) : Except SettingsError (List (List (String × Configured))) := do
  let defaults ← defaultFiles.mapM (optionalLayer formats t)
  let requested ← requestedLayer formats t config
  return defaults ++ [requested, Environment.layer environment]

/-- The configuration that layers make. -/
def configuration (layers : List (List (String × Configured))) : Configured :=
  Configured.overlay .emptyTable layers.flatten

/-- Load the settings of a run. -/
def load (t : FileTree) (environment : List (String × String)) (config : Option String) :
    Except SettingsError Settings := do
  decode (configuration (← layers ConfigFormat.all t environment config))

/-! ## All runs -/

/-- `Layered t environment config layers`: in some run these are the layers, with their entries in the
order in which the run goes through them. -/
def Layered (t : FileTree) (environment : List (String × String)) (config : Option String)
    (arranged : List (List (String × Configured))) : Prop :=
  ∃ formats read, formats.Perm ConfigFormat.all ∧
    layers formats t environment config = .ok read ∧ Configured.ArrangedAll read arranged

/-- `Loads t environment config outcome`: some run ends with this outcome, the settings that it loads
or none.

* `unread`: a layer cannot be read.
* `stops`: a variable or a key counts a position beyond the start of a list.
* `ends`: the layers are put together, and decoded if that is possible. -/
inductive Loads (t : FileTree) (environment : List (String × String)) (config : Option String) :
    Option Settings → Prop
  | unread {formats : List ConfigFormat} {error : SettingsError} :
      formats.Perm ConfigFormat.all → layers formats t environment config = .error error →
      Loads t environment config none
  | stops {arranged : List (List (String × Configured))} :
      Layered t environment config arranged →
      Configured.emptyTable.reaches arranged.flatten = false → Loads t environment config none
  | ends {arranged : List (List (String × Configured))} :
      Layered t environment config arranged →
      Configured.emptyTable.reaches arranged.flatten = true →
      Loads t environment config (decode (configuration arranged)).toOption

/-- Every run loads these settings. -/
def AlwaysLoads (t : FileTree) (environment : List (String × String)) (config : Option String)
    (s : Settings) : Prop :=
  ∀ outcome, Loads t environment config outcome → outcome = some s

end Layers

end Settings

end ManifestSchema
