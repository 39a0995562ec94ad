import ManifestSchema.Definitions.Registry
import ManifestSchema.Manifest.Definition

/-!
# Schemas of single types

The fragments that a type becomes once the fragments of its parts are known. The order of their
members is the order in which they are printed.
-/

namespace ManifestSchema

namespace Fragment

/-- Any value. -/
def any : Json := .obj []

/-- A value of a JSON type. -/
def ofType (name : String) : Json := .obj [("type", .str name)]

/-- A value that satisfies one of several schemas. -/
def anyOf (schemas : List Json) : Json := .obj [("anyOf", .arr schemas)]

/-- The schema of a primitive. -/
def primitive : Primitive → Json
  | .string => ofType "string"
  | .number => ofType "number"
  | .boolean => ofType "boolean"
  | .date => .obj [("type", .str "string"), ("format", .str "date-time")]
  | .json => ofType "object"
  | .any => any

/-- The schema of a list or of a map with string keys. -/
def collection : CollectionKind → (element : Json) → Json
  | .array, element => .obj [("type", .str "array"), ("items", element)]
  | .map, element => .obj [("type", .str "object"), ("additionalProperties", element)]

/-- The member that holds a description, if there is one. -/
def description : Option String → List (String × Json)
  | none => []
  | some summary => [("description", .str summary)]

/-- The schema of an enum: the names of its members. -/
def enumeration (e : EnumType) : Json :=
  .obj ([("type", .str "string"), ("enum", .strings e.members)] ++ description e.summary)

/-- A description for a schema that has none of its own. -/
def describe (summary : Option String) : Json → Json
  | .obj members =>
      match summary with
      | some text => .obj (Dict.insertNew members "description" (.str text))
      | none => .obj members
  | other => other

/-- The list of required members, left out when there are none. -/
def required (names : List String) : List (String × Json) :=
  if names.isEmpty then [] else [("required", .strings names)]

/-- The schema of an object with exactly the given properties. -/
def object (properties : Dict Json) (requiredNames : List String) (summary : Option String) :
    Json :=
  .obj ([("type", .str "object"), ("additionalProperties", .bool false),
    ("properties", .obj properties)] ++ required requiredNames ++ description summary)

end Fragment

end ManifestSchema
