import ManifestSchema.Schema.Document
import ManifestSchema.Toml.Printer

/-!
# Settings

What a run can be configured with: which classes are roots, what the document looks like, and what
is shown of the diagnostics. Settings are printed as a TOML document.
-/

namespace ManifestSchema

/-- The layout of the document. -/
inductive OutputFormat
  | pretty
  | compact
deriving DecidableEq, Repr

namespace OutputFormat

/-- The name of a layout. -/
def text : OutputFormat → String
  | .pretty => "pretty"
  | .compact => "compact"

def all : List OutputFormat := [.pretty, .compact]

end OutputFormat

/-- When diagnostics are coloured. -/
inductive ColorMode
  | auto
  | always
  | never
deriving DecidableEq, Repr

namespace ColorMode

/-- The name of a mode. -/
def text : ColorMode → String
  | .auto => "auto"
  | .always => "always"
  | .never => "never"

def all : List ColorMode := [.auto, .always, .never]

/-- Whether diagnostics are coloured, where the mode says so by itself. -/
def fixed? : ColorMode → Option Bool
  | .auto => none
  | .always => some true
  | .never => some false

/-- Whether diagnostics are coloured, given whether they go to a terminal. -/
def enabled (terminal : Bool) (m : ColorMode) : Bool := m.fixed?.getD terminal

end ColorMode

/-- What the document is rendered into, and how. -/
structure OutputSettings where
  envelope : Option String
  resourcePattern : String
  format : OutputFormat
  symbolicAlternatives : Bool
deriving DecidableEq

/-- What is shown of the diagnostics. -/
structure DiagnosticsSettings where
  emit : Bool
  suppress : List String
  color : ColorMode
deriving DecidableEq

/-- The configuration of a run. -/
structure Settings where
  roots : RootSelection
  output : OutputSettings
  diagnostics : DiagnosticsSettings
deriving DecidableEq

namespace Settings

/-- The base class of roots unless another is given. -/
def defaultBaseClass : String := "constructs.Construct"

/-- The settings of a run that configures nothing. -/
def default : Settings :=
  ⟨⟨defaultBaseClass, 2, []⟩, ⟨none, Envelope.defaultPattern, .pretty, false⟩, ⟨false, [], .auto⟩⟩

/-- What to render. -/
def renderOptions (s : Settings) : RenderOptions :=
  ⟨s.roots, s.output.resourcePattern, s.output.symbolicAlternatives⟩

/-- Leave out all but the first of equal neighbours. -/
def dropRepeats : List String → List String
  | a :: b :: rest => if a = b then dropRepeats (b :: rest) else a :: dropRepeats (b :: rest)
  | short => short

/-- The paths whose diagnostics are not shown, in order and once each. -/
def suppressed (s : Settings) : List String :=
  dropRepeats (s.diagnostics.suppress.mergeSort fun a b => decide (a ≤ b))

/-- The entry of an envelope, if there is one. -/
def envelopeEntry : Option String → Dict Toml.Entry
  | none => []
  | some path => [("envelope", .text path)]

/-- The settings as sections of a document. -/
def sections (s : Settings) : Dict (Dict Toml.Entry) :=
  [("roots", [("base_class", .text s.roots.baseClass),
      ("props_param_index", .number s.roots.propsIndex),
      ("skip_prefixes", .texts s.roots.skipPrefixes)]),
    ("output", envelopeEntry s.output.envelope ++
      [("resource_pattern", .text s.output.resourcePattern),
      ("format", .text s.output.format.text),
      ("symbolic_alternatives", .flag s.output.symbolicAlternatives)]),
    ("diagnostics", [("emit", .flag s.diagnostics.emit),
      ("suppress", .texts s.diagnostics.suppress),
      ("color", .text s.diagnostics.color.text)])]

/-- Whether the settings can be printed: integers of a document are below `2 ^ 63`. -/
def isPrintable (s : Settings) : Bool := s.roots.propsIndex < Word.signedLimit

/-- The settings as a TOML document. -/
def toToml (s : Settings) : String := Toml.documentText s.sections

end Settings

end ManifestSchema
