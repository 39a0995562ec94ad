import ManifestSchema.Files.Tree
import ManifestSchema.Settings.Basic
import ManifestSchema.Settings.Layer

/-!
# Settings of a configuration

Scalars are converted where that makes sense: a text that shows a number or an answer counts as one,
and a scalar counts as text. Sections may be tables, or lists with the values in order. Unknown keys
are ignored and missing ones have defaults.
-/

namespace ManifestSchema

/-- A step from a configuration into it. -/
inductive SettingStep
  | key (name : String)
  | index (position : Nat)
deriving DecidableEq, Repr

/-- Why a configuration gives no settings. -/
inductive SettingsError
  /-- A value of the wrong type at a key, with the layer that it comes from. -/
  | wrongType (found expected : String) (path : List SettingStep) (origin : Option String)
  /-- A value of the wrong shape. -/
  | wrongShape (found expected : String)
  | notAnEnum (name : String)
  | unknownChoice (name choice : String)
  | fileNotFound (name : String)
  | unknownFormat (name : String)
  | unreadable (fault : FileFault)
  | fileSyntax (name : String)
deriving DecidableEq, Repr

namespace SettingsError

/-- The text of a key. -/
def keyText (path : List SettingStep) : String := go true path
where
  /-- Write the steps; `first` says that none has been written yet. -/
  go (first : Bool) : List SettingStep → String
    | [] => ""
    | .key name :: rest => (if first then "" else ".") ++ name ++ go false rest
    | .index i :: rest => "[" ++ toString i ++ "]" ++ go false rest

/-- Where a key was set. -/
def originText : Option String → String
  | none => ""
  | some origin => " in " ++ origin

/-- The wording of an error. -/
def message : SettingsError → String
  | .wrongType found expected path origin =>
      "invalid type: " ++ found ++ ", expected " ++ expected ++ " for key `" ++ keyText path ++
        "`" ++ originText origin
  | .wrongShape found expected => "invalid type: " ++ found ++ ", expected " ++ expected
  | .notAnEnum name =>
      "value of enum " ++ name ++
        " should be represented by either string or table with exactly one key"
  | .unknownChoice name choice =>
      "enum " ++ name ++ " does not have variant constructor " ++ choice
  | .fileNotFound name => "configuration file \"" ++ name ++ "\" not found"
  | .unknownFormat name =>
      "configuration file \"" ++ name ++ "\" is not of a registered file format"
  | .unreadable fault => fault.message
  | .fileSyntax name => "configuration file \"" ++ name ++ "\" cannot be parsed"

end SettingsError

namespace Configured

/-- A decoder of a value at a place. -/
abbrev Decoder (α : Type) := List SettingStep → Configured → Except SettingsError α

/-- The text of a float. -/
def floatText (x : Float) : String := Decimal.floatText Decimal.plainLayout x

/-- The text of a boolean. -/
def boolText : Bool → String
  | true => "true"
  | false => "false"

/-- The error of a value that cannot be converted. -/
def refuse {α : Type} (expected : String) (path : List SettingStep) (v : Configured) :
    Except SettingsError α :=
  match v with
  | .scalar .nothing origin => .error (.wrongType "unit value" expected path origin)
  | .scalar (.flag b) origin =>
      .error (.wrongType ("boolean `" ++ boolText b ++ "`") expected path origin)
  | .scalar (.integer n) origin =>
      .error (.wrongType ("64-bit integer `" ++ toString n ++ "`") expected path origin)
  | .scalar (.float x) origin =>
      .error (.wrongType ("floating point `" ++ floatText x ++ "`") expected path origin)
  | .scalar (.text s) origin =>
      .error (.wrongType ("string " ++ Text.quoted s) expected path origin)
  | .list _ origin => .error (.wrongType "sequence" expected path origin)
  | .table _ origin => .error (.wrongType "map" expected path origin)

/-- The error of a value that is of another shape. -/
def misshapen {α : Type} (expected : String) (v : Configured) : Except SettingsError α :=
  match v with
  | .scalar .nothing _ => .error (.wrongShape "unit value" expected)
  | .scalar (.flag b) _ => .error (.wrongShape ("boolean `" ++ boolText b ++ "`") expected)
  | .scalar (.integer n) _ => .error (.wrongShape ("integer `" ++ toString n ++ "`") expected)
  | .scalar (.float x) _ =>
      .error (.wrongShape ("floating point `" ++ Decimal.floatText Decimal.messageLayout x ++ "`")
        expected)
  | .scalar (.text s) _ => .error (.wrongShape ("string " ++ Text.quoted s) expected)
  | .list _ _ => .error (.wrongShape "sequence" expected)
  | .table _ _ => .error (.wrongShape "map" expected)

/-- A text; a scalar counts as its text. -/
def asText : Decoder String := fun path v =>
  match v with
  | .scalar (.text s) _ => .ok s
  | .scalar (.flag b) _ => .ok (boolText b)
  | .scalar (.integer n) _ => .ok (toString n)
  | .scalar (.float x) _ => .ok (floatText x)
  | other => other.refuse "a string" path

def yesTexts : List String := ["true", "on", "yes"]

def noTexts : List String := ["false", "off", "no"]

/-- A boolean; a number counts as whether it is not zero. -/
def asFlag : Decoder Bool := fun path v =>
  match v with
  | .scalar (.flag b) _ => .ok b
  | .scalar (.integer n) _ => .ok (n != 0)
  | .scalar (.float x) _ => .ok (x != 0)
  | .scalar (.text s) origin =>
      let t := Text.lower s
      if t = "1" ∨ yesTexts.contains t then .ok true
      else if t = "0" ∨ noTexts.contains t then .ok false
      else refuse "a boolean" path (.scalar (.text t) origin)
  | other => other.refuse "a boolean" path

/-- An unsigned integer; a float counts as its rounded value, and a boolean as one or zero. -/
def asNatural : Decoder Nat := fun path v =>
  match v with
  | .scalar (.integer n) _ =>
      if n < 0 then v.refuse "an unsigned 64 bit or less integer" path else .ok n.toNat
  | .scalar (.flag b) _ => .ok b.toNat
  | .scalar (.float x) _ => .ok x.round.toUInt64.toNat
  | .scalar (.text s) _ =>
      let t := Text.lower s
      if yesTexts.contains t then .ok 1
      else if noTexts.contains t then .ok 0
      else
        match Decimal.natural? s with
        | some n => .ok n
        | none => v.refuse "an integer" path
  | other => other.refuse "an integer" path

/-- A value that may be absent. -/
def asOptional {α : Type} (decode : Decoder α) : Decoder (Option α) := fun path v =>
  match v with
  | .scalar .nothing _ => .ok none
  | other => (decode path other).map some

/-- Decode the elements of a list from a position on. -/
def asElements {α : Type} (decode : Decoder α) (path : List SettingStep) :
    (position : Nat) → List Configured → Except SettingsError (List α)
  | _, [] => .ok []
  | position, v :: rest => do
      let first ← decode (path ++ [.index position]) v
      let others ← asElements decode path (position + 1) rest
      return first :: others

/-- A list. -/
def asList {α : Type} (decode : Decoder α) : Decoder (List α) := fun path v =>
  match v with
  | .list elements _ => asElements decode path 0 elements
  | other => other.misshapen "a sequence"

/-- One of several choices by its name, without regard to case. -/
def asChoice {α : Type} (name : String) (choices : List α) (text : α → String) : Decoder α :=
  fun _ v =>
    let choose (s : String) : Except SettingsError α :=
      match choices.find? fun c => text c = Text.lower s with
      | some c => .ok c
      | none => .error (.unknownChoice name s)
    match v with
    | .scalar (.text s) _ => choose s
    | .table [(key, _)] _ => choose key
    | _ => .error (.notAnEnum name)

/-- The value of a field of a section: by its key in a table, by its position in a list. -/
def fieldOf {α : Type} (section_ : Configured) (position : Nat) (key : String) (default : α)
    (decode : Decoder α) (path : List SettingStep) : Except SettingsError α :=
  match section_ with
  | .table entries _ =>
      match Dict.find? entries key with
      | some v => decode (path ++ [.key key]) v
      | none => .ok default
  | .list elements _ =>
      match elements[position]? with
      | some v => decode (path ++ [.index position]) v
      | none => .ok default
  | _ => .ok default

/-- A section: a table or a list of its values. -/
def asSection {α : Type} (name : String) (decode : Decoder α) : Decoder α := fun path v =>
  match v with
  | .scalar _ _ => v.misshapen ("struct " ++ name)
  | other => decode path other

end Configured

namespace Settings

def decodeRoots : Configured.Decoder RootSelection := fun path v => do
  return {
    baseClass := ← v.fieldOf 0 "base_class" Settings.default.roots.baseClass
      Configured.asText path
    propsIndex := ← v.fieldOf 1 "props_param_index" Settings.default.roots.propsIndex
      Configured.asNatural path
    skipPrefixes := ← v.fieldOf 2 "skip_prefixes" []
      (Configured.asList Configured.asText) path }

def decodeOutput : Configured.Decoder OutputSettings := fun path v => do
  return {
    envelope := ← v.fieldOf 0 "envelope" none (Configured.asOptional Configured.asText) path
    resourcePattern := ← v.fieldOf 1 "resource_pattern" Settings.default.output.resourcePattern
      Configured.asText path
    format := ← v.fieldOf 2 "format" Settings.default.output.format
      (Configured.asChoice "OutputFormat" OutputFormat.all OutputFormat.text) path
    symbolicAlternatives := ← v.fieldOf 3 "symbolic_alternatives" false Configured.asFlag path }

def decodeDiagnostics : Configured.Decoder DiagnosticsSettings := fun path v => do
  return {
    emit := ← v.fieldOf 0 "emit" false Configured.asFlag path
    suppress := ← v.fieldOf 1 "suppress" [] (Configured.asList Configured.asText) path
    color := ← v.fieldOf 2 "color" Settings.default.diagnostics.color
      (Configured.asChoice "ColorMode" ColorMode.all ColorMode.text) path }

/-- The settings of a configuration. -/
def decode (v : Configured) : Except SettingsError Settings := do
  return {
    roots := ← v.fieldOf 0 "roots" Settings.default.roots
      (Configured.asSection "RootsConfig" decodeRoots) []
    output := ← v.fieldOf 1 "output" Settings.default.output
      (Configured.asSection "OutputConfig" decodeOutput) []
    diagnostics := ← v.fieldOf 2 "diagnostics" Settings.default.diagnostics
      (Configured.asSection "DiagnosticsConfig" decodeDiagnostics) [] }

end Settings

end ManifestSchema
