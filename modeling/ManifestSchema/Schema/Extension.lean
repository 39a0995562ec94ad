import ManifestSchema.Definitions.Registry
import ManifestSchema.Schema.Fragment

/-!
# Extensions

Definitions that stand next to those of the types: calls of intrinsic functions, and the conventions
that every resource entry refers to. An extension only registers definitions.
-/

namespace ManifestSchema

/-- A definition that an extension asks for; one without a body is only reserved. -/
structure CustomDefinition where
  key : String
  owner : Owner
  body : Option Json

/-- A set of definitions that are registered together. -/
inductive Extension
  | intrinsics (functions : List String)
  | conventions
  | custom (definitions : List CustomDefinition)

/-- The key of the definition that accepts a call of any intrinsic function. -/
def expressionKey : String := "Expression"

namespace Conventions

def callKey : String := "Call"

def tagKey : String := "Tag"

def dependsOnKey : String := "DependsOn"

def overrideKey : String := "Override"

/-- The references that resource entries use, in the order of their properties. -/
def references : List Json :=
  [callKey, tagKey, dependsOnKey, overrideKey].map reference

/-- A call is an object or a short array. -/
def call : Json :=
  Fragment.anyOf [Fragment.ofType "object",
    .obj [("type", .str "array"), ("minItems", .nat 1), ("maxItems", .nat 2)]]

/-- A tag is a pair of texts. -/
def tag : Json :=
  Fragment.object [("Key", Fragment.ofType "string"), ("Value", Fragment.ofType "string")]
    ["Key", "Value"] none

/-- Dependencies are one name or a list of names. -/
def dependsOn : Json :=
  .obj [("additionalProperties", .bool false), ("type", .strings ["array", "string"]),
    ("items", Fragment.ofType "string")]

/-- A path into a construct. -/
def path : Json := .obj [("type", .str "string"), ("pattern", .str "[a-zA-Z0-9\\-\\._]+")]

/-- An override removes a resource, or deletes or updates a value at a path. -/
def overriding : Json :=
  .obj [("additionalProperties", .bool false), ("type", .str "object"),
    ("properties", .obj [
      ("ChildConstructPath", path),
      ("RemoveResource", Fragment.ofType "boolean"),
      ("Delete", .obj [("type", .str "object"), ("properties", .obj [("Path", path)]),
        ("required", .strings ["Path"])]),
      ("Update", .obj [("type", .str "object"),
        ("properties", .obj [("Path", path), ("Value", Fragment.any)]),
        ("required", .strings ["Path"])])]),
    ("required", .strings ["ChildConstructPath"]),
    ("oneOf", .arr (["Delete", "Update", "RemoveResource"].map fun name =>
      .obj [("required", .strings [name])]))]

/-- The shared definitions in order. -/
def definitions : List CustomDefinition :=
  [⟨callKey, .extension, some call⟩, ⟨tagKey, .extension, some tag⟩,
    ⟨dependsOnKey, .extension, some dependsOn⟩, ⟨overrideKey, .extension, some overriding⟩]

end Conventions

namespace Intrinsics

/-- The functions that are known unless others are given. -/
def functions : List String := ["Ref", "Fn::Ref"]

/-- A call of a function: an object with its name and a text. -/
def call (function : String) : Json :=
  Fragment.object [(function, Fragment.ofType "string")] [function] none

/-- Any call of some functions. -/
def expression (functions : List String) : Json := Fragment.anyOf (functions.map reference)

/-- The definitions of some functions, and that of any call of them. -/
def definitions (functions : List String) : List CustomDefinition :=
  (functions.map fun f => ⟨f, .extension, some (call f)⟩) ++
    [⟨expressionKey, .extension, some (expression functions)⟩]

end Intrinsics

namespace Extension

/-- The extensions of a run that names none. -/
def defaults : List Extension := [.intrinsics Intrinsics.functions, .conventions]

/-- The definitions of an extension in order. -/
def definitions : Extension → List CustomDefinition
  | .intrinsics functions => Intrinsics.definitions functions
  | .conventions => Conventions.definitions
  | .custom definitions => definitions

variable {σ : Type} [HoldsRegistry σ]

/-- Register definitions in order. -/
def register : List CustomDefinition → Work σ Unit
  | [] => pure ()
  | d :: rest => do
      match d.body with
      | some body => discard (Registry.define d.key d.owner (pure body))
      | none => discard (Registry.reserve d.key d.owner)
      register rest

/-- Register the definitions of an extension. -/
def extend (e : Extension) : Work σ Unit := register e.definitions

/-- Register the definitions of extensions in order. -/
def extendAll : List Extension → Work σ Unit
  | [] => pure ()
  | e :: rest => do
      e.extend
      extendAll rest

end Extension

end ManifestSchema
