import ManifestSchema.Schema.Compile
import ManifestSchema.Schema.Extension
import ManifestSchema.Schema.Roots

/-!
# The document

All parts together: the extensions and the roots fill the registry, and its definitions go into an
envelope, a schema with a list of resources at a fixed place.
-/

namespace ManifestSchema

/-- What to render. -/
structure RenderOptions where
  selection : RootSelection
  /-- The key under which the envelope lists the resources. -/
  resourcePattern : String
  /-- Whether every property offers an expression next to its own schema. -/
  symbolicAlternatives : Bool

/-- What stands before the envelope is looked at: the roots, the references to their entries in the
same order, and all definitions. -/
structure Generated where
  roots : List Root
  references : List Json
  compilation : Compilation

/-- A rendered document. -/
structure Rendered where
  document : Json
  /-- The names of the roots that were added. -/
  resources : List String
  diagnostics : Diagnostics

/-! ## The envelope -/

namespace Envelope

/-- The pattern of resource names unless another is given. -/
def defaultPattern : String := "^[a-zA-Z0-9]+$"

/-- The envelope of a run that brings none. -/
def default (pattern : String) : Json :=
  .obj [("$schema", .str "http://json-schema.org/draft-07/schema#"), ("type", .str "object"),
    ("additionalProperties", .bool false),
    ("properties", .obj [
      ("Resources", .obj [("type", .str "object"),
        ("patternProperties", .obj [(pattern, Fragment.anyOf [])]),
        ("additionalProperties", .bool false)])]),
    ("definitions", .obj [])]

/-- Change an object inside an object; a missing one is empty. -/
def inside (key : String) (change : Dict Json → Except EngineError (Dict Json))
    (members : Dict Json) : Except EngineError (Dict Json) :=
  match members.find? key with
  | none => do return members.insert key (.obj (← change []))
  | some (.obj inner) => do return members.insert key (.obj (← change inner))
  | some _ => .error (.envelope (key ++ " is not an object"))

/-- Append to the list of alternatives under a pattern; a missing list is empty. -/
def appendAlternatives (pattern : String) (schemas : List Json) (members : Dict Json) :
    Except EngineError (Dict Json) :=
  match members.find? "anyOf" with
  | none => .ok (members.insert "anyOf" (.arr schemas))
  | some (.arr present) => .ok (members.insert "anyOf" (.arr (present ++ schemas)))
  | some _ => .error (.envelope (pattern ++ ".anyOf is not an array"))

/-- Put definitions and resources into an envelope. Everything else in it stays. -/
def splice (envelope : Json) (definitions : Dict Json) (resources : List Json) (pattern : String) :
    Except EngineError Json :=
  match envelope with
  | .obj members => do
      let members ← inside "definitions" (fun d => .ok (d.insertAll definitions)) members
      let members ← inside "properties" (fun properties =>
        inside "Resources"
          (inside "patternProperties" (inside pattern (appendAlternatives pattern resources)))
          (properties.insert "$schema" (Fragment.ofType "string"))) members
      return .obj members
  | _ => .error (.envelope "document root is not an object")

end Envelope

/-! ## Resources -/

namespace Compiler

/-- The entry of a resource with the schema of its properties. -/
def resourceEntry (fqn : String) (props : Json) : Json :=
  .obj [("type", .str "object"), ("additionalProperties", .bool false),
    ("properties", .obj [
      ("Type", .obj [("type", .str "string"), ("enum", .strings [fqn])]),
      ("Properties", props),
      ("Call", reference Conventions.callKey),
      ("Tags", Fragment.collection .array (reference Conventions.tagKey)),
      ("DependsOn", reference Conventions.dependsOnKey),
      ("Overrides", Fragment.collection .array (reference Conventions.overrideKey))]),
    ("required", .strings ["Type"]), ("description", .str fqn)]

/-- Register the entry of a root and refer to it. -/
def compileRoot (k : Compiler) (r : Root) : Compile Json := do
  let fqn := r.definition.fqn
  let scope ← Compile.child 0 "resource" fqn
  Registry.define (resourceKey fqn) .resource do
    return resourceEntry fqn (← k.compile r.props scope)

/-- Register the entries of roots in order. -/
def compileRoots (k : Compiler) : List Root → Compile (List Json)
  | [] => pure []
  | r :: rest => do
      let first ← k.compileRoot r
      let others ← k.compileRoots rest
      return first :: others

end Compiler

/-! ## Rendering -/

namespace RenderOptions

/-- The compiler of a run. -/
def compiler (o : RenderOptions) (ts : TypeSystem) : Compiler :=
  ⟨ts, if o.symbolicAlternatives then some expressionKey else none⟩

/-- Fill the registry with some extensions and the entries of all roots. -/
def generate (o : RenderOptions) (extensions : List Extension) (ts : TypeSystem) :
    Except EngineError Generated :=
  match Extension.extendAll extensions Registry.empty with
  | .error e _ => .error e
  | .ok _ registry =>
    match o.selection.select ts .empty with
    | .error e => .error (.manifest e)
    | .ok (roots, diagnostics) =>
      match (o.compiler ts).compileRoots roots ⟨registry, diagnostics⟩ with
      | .error e _ => .error e
      | .ok references c => .ok ⟨roots, references, c⟩

/-- Render the schema of all roots with some extensions. -/
def renderWith (o : RenderOptions) (extensions : List Extension) (ts : TypeSystem)
    (envelope : Json) : Except EngineError Rendered := do
  let g ← o.generate extensions ts
  let definitions ← g.compilation.registry.definitions
  let document ← Envelope.splice envelope definitions g.references o.resourcePattern
  return ⟨document, g.roots.map fun r => r.definition.fqn, g.compilation.diagnostics⟩

/-- Render the schema of all roots. -/
def render (o : RenderOptions) (ts : TypeSystem) (envelope : Json) : Except EngineError Rendered :=
  o.renderWith Extension.defaults ts envelope

end RenderOptions

end ManifestSchema
