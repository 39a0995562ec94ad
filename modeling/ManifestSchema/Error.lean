import ManifestSchema.Files.Tree
import ManifestSchema.Json.Decode

/-!
# Errors that end a run

Problems of a single type never end a run: they are recorded as diagnostics. What is here does: a
manifest that cannot be had, a key that two owners claim, and an envelope of the wrong shape.
-/

namespace ManifestSchema

/-- Why a glob pattern is refused. -/
inductive PatternFault
  | wildcards
  | recursiveWildcards
  | range
deriving DecidableEq, Repr

/-- The wording of a refused pattern. -/
def PatternFault.message : PatternFault → String
  | .wildcards => "wildcards are either regular `*` or recursive `**`"
  | .recursiveWildcards => "recursive wildcards must form a single path component"
  | .range => "invalid range pattern"

/-- Why the type system could not be had from the manifests. -/
inductive ManifestError
  | io (path : String) (fault : FileFault)
  | pattern (text : String) (position : Nat) (fault : PatternFault)
  | noMatches (text : String)
  | decode (origin : String) (path : List PathStep) (cause : DecodeCause)
      (position : Option Position)
  | filter (origin : String)
  | duplicateType (fqn first second : String)
  | unknownBaseClass (fqn : String)

namespace ManifestError

/-- A failed decoding of a text of some origin. -/
def ofText (origin text : String) (e : DecodeError) : ManifestError :=
  .decode origin e.path e.cause (e.offset.map (positionAt text))

/-- A failed decoding of a value of some origin. -/
def ofValue (origin : String) (e : DecodeError) : ManifestError :=
  .decode origin e.path e.cause none

/-- The place in a text at which a cause was found. -/
def placeText : Option Position → String
  | none => ""
  | some p => " at line " ++ toString p.line ++ " column " ++ toString p.column

/-- The wording of an error. -/
def message : ManifestError → String
  | .io path fault => "failed to read manifest " ++ path ++ ": " ++ fault.message
  | .pattern text position fault =>
      "invalid input pattern " ++ text ++ ": Pattern syntax error near position " ++
        toString position ++ ": " ++ fault.message
  | .noMatches text => "glob pattern matched no files: " ++ text
  | .decode origin path cause position =>
      "failed to decode manifest " ++ origin ++ " at JSON path " ++ pathText path ++ ": " ++
        cause.message ++ placeText position
  | .filter origin => "failed to apply jq expression to manifest " ++ origin
  | .duplicateType fqn first second =>
      "type " ++ fqn ++ " is declared by both " ++ first ++ " and " ++ second
  | .unknownBaseClass fqn => "base class " ++ fqn ++ " is not declared in the manifest"

end ManifestError

/-- What registered a definition. A key belongs to one owner for the whole run. -/
inductive Owner
  | type
  | resource
  | extension
deriving DecidableEq, Repr

/-- The name of an owner. -/
def Owner.text : Owner → String
  | .type => "type"
  | .resource => "resource"
  | .extension => "extension"

/-- Why a schema could not be produced. -/
inductive EngineError
  | manifest (error : ManifestError)
  | unresolvedDefinition (key : String)
  | alreadyResolved (key : String)
  | notReserved (key : String)
  | missingAlternative (key : String)
  | keyClash (key : String) (heldBy requestedBy : Owner)
  | envelope (reason : String)

/-- The wording of an error. -/
def EngineError.message : EngineError → String
  | .manifest e => e.message
  | .unresolvedDefinition key => "definition " ++ key ++ " was never resolved"
  | .alreadyResolved key => "definition " ++ key ++ " is already resolved"
  | .notReserved key => "definition " ++ key ++ " was resolved without being reserved"
  | .missingAlternative key =>
      "symbolic alternative " ++ key ++ " is not registered by any extension"
  | .keyClash key heldBy requestedBy =>
      "definition key " ++ key ++ " belongs to the " ++ heldBy.text ++ " definitions, not the " ++
        requestedBy.text ++ " definitions"
  | .envelope reason => "envelope is malformed: " ++ reason

end ManifestSchema
