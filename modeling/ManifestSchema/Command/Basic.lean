import ManifestSchema.Command.Option
import ManifestSchema.Settings.Basic
import ManifestSchema.TypeSystem.Load

/-!
# Commands

What can be asked for on the command line: to generate the schema of the manifests, to list the
roots among their classes, and to print the settings of a run.
-/

namespace ManifestSchema

/-- Options that say which classes are roots. -/
structure SelectionOptions where
  config : Option String
  baseClass : Option String
  propsIndex : Option Nat
  skipPrefixes : List String
deriving DecidableEq

/-- Options of the generation of a schema. -/
structure GenerateOptions where
  input : LoadOptions
  selection : SelectionOptions
  envelope : Option String
  out : Option String
  warnings : Bool
  suppress : List String
  symbolic : Bool
  color : Option ColorMode
  format : Option OutputFormat
  noOp : Bool

/-- What a run is asked to do. -/
inductive Command
  | generate (options : GenerateOptions)
  | roots (input : LoadOptions) (selection : SelectionOptions)
  | config (file : Option String)

/-! ## Options of the commands -/

namespace OptionTable

/-- The question that every command answers. -/
def helpAnswer : String × Char × UsageNotice := ("help", 'h', .helpWanted)

/-- Options that say what to load. -/
def inputOptions : List OptionRule :=
  [⟨"input", some 'i', .several, true, .text⟩, .single "jq-expr" .text]

/-- Options that say which classes are roots. -/
def selectionOptions : List OptionRule :=
  [.single "config" .path, .single "base-class" .text, .single "props-index" .natural,
    .repeated "skip-prefix"]

/-- Options of the output and the diagnostics. -/
def outputOptions : List OptionRule :=
  [.single "envelope" .path, ⟨"out", some 'o', .single, false, .path⟩, .flag "warnings",
    .repeated "suppress", .flag "symbolic",
    .single "color" (.oneOf (ColorMode.all.map ColorMode.text)),
    .single "format" (.oneOf (OutputFormat.all.map OutputFormat.text)), .flag "no-op"]

def generate : OptionTable := ⟨inputOptions ++ selectionOptions ++ outputOptions, [helpAnswer]⟩

def roots : OptionTable := ⟨inputOptions ++ selectionOptions, [helpAnswer]⟩

def config : OptionTable := ⟨[.single "config" .path], [helpAnswer]⟩

/-- The options that may stand in place of a command. -/
def outer : OptionTable := ⟨[], [helpAnswer, ("version", 'V', .versionWanted)]⟩

end OptionTable

namespace GivenOptions

/-- What to load; something must be. -/
def loadOptions (g : GivenOptions) : Except UsageNotice LoadOptions :=
  if g.has "input" then .ok ⟨g.values "input", g.value? "jq-expr"⟩ else .error .missingOption

/-- Which classes are roots. -/
def selectionOptions (g : GivenOptions) : SelectionOptions :=
  ⟨g.value? "config", g.value? "base-class", (g.value? "props-index").bind Decimal.natural?,
    g.values "skip-prefix"⟩

/-- What to generate. -/
def generateOptions (g : GivenOptions) (input : LoadOptions) : GenerateOptions where
  input := input
  selection := g.selectionOptions
  envelope := g.value? "envelope"
  out := g.value? "out"
  warnings := g.has "warnings"
  suppress := g.values "suppress"
  symbolic := g.has "symbolic"
  color := (g.value? "color").bind fun s => ColorMode.all.find? fun m => m.text = s
  format := (g.value? "format").bind fun s => OutputFormat.all.find? fun f => f.text = s
  noOp := g.has "no-op"

end GivenOptions

/-! ## Commands in arguments -/

namespace Command

/-- The names that may stand first. -/
def names : List String := ["generate", "roots", "config", "help"]

/-- What a question for help on some commands comes to. No command has commands of its own. -/
def helpOn : List String → UsageNotice
  | [] => .helpWanted
  | [name] => if names.contains name then .helpWanted else .unknownCommand
  | _ => .unknownCommand

/-- What arguments that begin with no command come to. -/
def withoutCommand (first : String) (rest : List String) : UsageNotice :=
  if first = "--" then
    match rest with
    | [] => .nothingWanted
    | name :: _ => if names.contains name then .unknownArgument else .unknownCommand
  else if first.toList.head? = some '-' && 1 < first.length then
    match OptionScan.takeArgument .outer .start first with
    | .error notice => notice
    | .ok _ => .nothingWanted
  else .unknownCommand

/-- The command with some name and arguments. -/
def ofNamed? (name : String) (arguments : List String) : Option (Except UsageNotice Command) :=
  match name with
  | "generate" => some do
      let given ← OptionTable.generate.read arguments
      return .generate (given.generateOptions (← given.loadOptions))
  | "roots" => some do
      let given ← OptionTable.roots.read arguments
      return .roots (← given.loadOptions) given.selectionOptions
  | "config" => some do
      let given ← OptionTable.config.read arguments
      return .config (given.value? "config")
  | "help" => some (.error (helpOn arguments))
  | _ => none

/-- The command that arguments ask for. -/
def ofArguments : List String → Except UsageNotice Command
  | [] => .error .nothingWanted
  | first :: rest => (ofNamed? first rest).getD (.error (withoutCommand first rest))

end Command

end ManifestSchema
