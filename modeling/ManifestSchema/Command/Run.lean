import ManifestSchema.Command.Outline
import ManifestSchema.Settings.Load

/-!
# Running a command

A run takes the directory and the environment that it finds, and leaves output, messages, an exit
code and a directory. Options are the uppermost layer of the settings. The document is written
before any diagnostics are shown, and a run that fails writes nothing.
-/

namespace ManifestSchema

/-- What a run finds around it. -/
structure Surroundings where
  files : FileTree
  environment : List (String × String)
  /-- Whether messages go to a terminal. -/
  terminal : Bool

/-- What a run leaves behind. -/
structure Outcome where
  exitCode : Nat
  output : String
  messages : String
  files : FileTree

/-- Why a run fails. -/
inductive RunError
  | settings (error : SettingsError)
  | engine (error : EngineError)
  | envelope (path : String) (fault : FileFault)
  | directory (fault : FileFault)
  | document (path : String) (fault : FileFault)
  | largeIndex

namespace RunError

/-- An error with what is behind it, the outermost first. A file that cannot be read has its fault
both in the message and behind it. -/
def causes : RunError → List String
  | .settings e => ["failed to load configuration", e.message]
  | .engine (.manifest (.io path fault)) => [(ManifestError.io path fault).message, fault.message]
  | .engine e => [e.message]
  | .envelope path fault => ["failed to read envelope " ++ path, fault.message]
  | .directory fault => [fault.message]
  | .document path fault => ["failed to write " ++ path, fault.message]
  | .largeIndex => ["out-of-range value for u64 type"]

/-- The line that reports an error. -/
def report (e : RunError) : String := "Error: " ++ ": ".intercalate e.causes ++ "\n"

end RunError

/-! ## Settings with options over them -/

/-- The settings of a run that selects roots. -/
def SelectionOptions.settings [ForeignFormats] (o : SelectionOptions) (s : Surroundings) :
    Except RunError Settings := do
  let settings ← (Settings.load s.files s.environment o.config).mapError .settings
  return { settings with
    roots := ⟨o.baseClass.getD settings.roots.baseClass,
      o.propsIndex.getD settings.roots.propsIndex, settings.roots.skipPrefixes ++ o.skipPrefixes⟩ }

/-- The settings of a run that generates a schema. -/
def GenerateOptions.settings [ForeignFormats] (o : GenerateOptions) (s : Surroundings) :
    Except RunError Settings := do
  let settings ← o.selection.settings s
  return { settings with
    output := { settings.output with
      envelope := o.envelope.or settings.output.envelope
      format := o.format.getD settings.output.format
      symbolicAlternatives := settings.output.symbolicAlternatives || o.symbolic }
    diagnostics := ⟨settings.diagnostics.emit || o.warnings,
      settings.diagnostics.suppress ++ o.suppress, o.color.getD settings.diagnostics.color⟩ }

/-! ## Parts of a run -/

/-- The type system of a run. -/
def LoadOptions.loadFor (o : LoadOptions) (s : Surroundings) : Except RunError TypeSystem :=
  (o.load s.files).mapError fun e => .engine (.manifest e)

/-- The envelope in a file. -/
def Envelope.read (t : FileTree) (path : String) : Except RunError Json :=
  match t.readText path with
  | .error fault => .error (.envelope path fault)
  | .ok text => (Json.ofText text).mapError fun e => .engine (.manifest (.ofText path text e))

/-- The envelope of a run. -/
def Settings.envelope (s : Settings) (t : FileTree) : Except RunError Json :=
  match s.output.envelope with
  | some path => Envelope.read t path
  | none => .ok (Envelope.default s.output.resourcePattern)

/-- The text of a document in a layout. -/
def OutputFormat.print : OutputFormat → Json → String
  | .pretty, document => document.pretty
  | .compact, document => document.compact

/-- Write a document to a file, and make the directories around it. -/
def FileTree.publish (t : FileTree) (path document : String) : Except RunError FileTree := do
  let t ← (t.makeParents path).mapError .directory
  (t.write path document).mapError (.document path)

/-- What a run that went well leaves, without messages. -/
def Outcome.printed (t : FileTree) (output : String) : Outcome := ⟨0, output, "", t⟩

/-- Deliver a document: to a file, or as output. -/
def Outcome.deliver (t : FileTree) (document : String) : Option String → Except RunError Outcome
  | none => .ok (.printed t (document ++ "\n"))
  | some path => do return .printed (← t.publish path document) ""

/-- What the run says at its end. -/
def Rendered.summary (r : Rendered) : String :=
  "generated " ++ toString r.resources.length ++ " resources (" ++
    toString r.diagnostics.warningCount ++ " warnings, " ++ toString r.diagnostics.errorCount ++
    " errors)\n"

/-- The messages of a run that rendered a document. -/
def Rendered.messages (r : Rendered) (s : Settings) (terminal : Bool) : String :=
  (if s.diagnostics.emit then
    r.diagnostics.render s.suppressed (s.diagnostics.color.enabled terminal) else "") ++ r.summary

/-! ## Commands -/

/-- Generate the schema, or only tell what would be generated. -/
def GenerateOptions.run [ForeignFormats] (o : GenerateOptions) (s : Surroundings) :
    Except RunError Outcome :=
  if o.noOp then .ok ⟨0, "", o.outline.text ++ "\n", s.files⟩
  else do
    let settings ← o.settings s
    let types ← o.input.loadFor s
    let envelope ← settings.envelope s.files
    let rendered ← (settings.renderOptions.render types envelope).mapError .engine
    let outcome ← Outcome.deliver s.files (settings.output.format.print rendered.document) o.out
    return { outcome with messages := rendered.messages settings s.terminal }

/-- List the roots. -/
def listRoots [ForeignFormats] (input : LoadOptions) (selection : SelectionOptions)
    (s : Surroundings) : Except RunError Outcome := do
  let settings ← selection.settings s
  let types ← input.loadFor s
  let (roots, _) ← (settings.roots.select types .empty).mapError fun e => .engine (.manifest e)
  return .printed s.files ((Json.arr (roots.map Root.summary)).pretty ++ "\n")

/-- Print the settings. -/
def printSettings [ForeignFormats] (file : Option String) (s : Surroundings) :
    Except RunError Outcome := do
  let settings ← (Settings.load s.files s.environment file).mapError .settings
  if settings.isPrintable then return .printed s.files settings.toToml else throw .largeIndex

namespace Command

/-- Carry out a command. -/
def carryOut [ForeignFormats] (c : Command) (s : Surroundings) : Except RunError Outcome :=
  match c with
  | .generate o => o.run s
  | .roots input selection => listRoots input selection s
  | .config file => printSettings file s

/-- Run a command. A run that fails leaves all files as they were. -/
def run [ForeignFormats] (c : Command) (s : Surroundings) : Outcome :=
  match c.carryOut s with
  | .ok outcome => outcome
  | .error e => ⟨1, "", e.report, s.files⟩

end Command

end ManifestSchema
