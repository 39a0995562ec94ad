import ManifestSchema.Json.Basic

/-!
# Type references

A manifest names the type of a property or parameter by a small JSON object of one of four shapes: a
primitive, a name, a collection or a union. Anything else is kept as it is, so that one odd
reference does not sink the manifest it stands in. `TypeRef.toJson` writes the shapes that
`TypeRef.ofJson` tells apart.
-/

namespace ManifestSchema

/-- The types that need no definition. -/
inductive Primitive
  | string
  | number
  | boolean
  | date
  | json
  | any
deriving DecidableEq, Repr

namespace Primitive

/-- The name of a primitive in a manifest. -/
def text : Primitive → String
  | .string => "string"
  | .number => "number"
  | .boolean => "boolean"
  | .date => "date"
  | .json => "json"
  | .any => "any"

/-- The primitive of a name. -/
def ofText? (name : String) : Option Primitive :=
  [.string, .number, .boolean, .date, .json, .any].find? fun p => p.text = name

theorem ofText?_text (p : Primitive) : ofText? p.text = some p := by
  cases p <;> decide

end Primitive

/-- What a collection is: a list, or a map with string keys. -/
inductive CollectionKind
  | array
  | map
deriving DecidableEq, Repr

namespace CollectionKind

/-- The name of a kind of collection in a manifest. -/
def text : CollectionKind → String
  | .array => "array"
  | .map => "map"

/-- The kind of collection of a name. -/
def ofText? (name : String) : Option CollectionKind :=
  [.array, .map].find? fun k => k.text = name

theorem ofText?_text (k : CollectionKind) : ofText? k.text = some k := by
  cases k <;> decide

end CollectionKind

/-- What kind of value a property or parameter holds. -/
inductive TypeRef
  | primitive (primitive : Primitive)
  | named (fqn : String)
  | union (members : List TypeRef)
  | collection (kind : CollectionKind) (element : TypeRef)
  | unsupported (raw : Json)
deriving Inhabited

namespace Json

theorem sizeOf_lt_of_mem {members : List (String × Json)} {key : String} {value : Json}
    (member : (key, value) ∈ members) : sizeOf value < sizeOf (Json.obj members) := by
  have h := List.sizeOf_lt_of_mem member
  simp only [Prod.mk.sizeOf_spec, Json.obj.sizeOf_spec] at *
  omega

theorem sizeOf_lt_of_get? {value part : Json} {key : String} (found : value.get? key = some part) :
    sizeOf part < sizeOf value := by
  cases value with
  | obj members => exact sizeOf_lt_of_mem (Dict.mem_of_find? found)
  | null | bool | num | str | arr => simp [Json.get?, Json.members?] at found

end Json

namespace TypeRef

/-- The elements of the list of types of a union. -/
def unionMembers? (raw : Json) : Option (List Json) :=
  ((raw.get? "union").bind (·.get? "types")).bind Json.elements?

theorem sizeOf_lt_of_unionMembers? {raw part : Json} {parts : List Json}
    (found : unionMembers? raw = some parts) (member : part ∈ parts) :
    sizeOf part < sizeOf raw := by
  obtain ⟨types, hTypes, hParts⟩ := Option.bind_eq_some_iff.1 found
  obtain ⟨body, hUnion, hTypes⟩ := Option.bind_eq_some_iff.1 hTypes
  have h1 := Json.sizeOf_lt_of_get? hUnion
  have h2 := Json.sizeOf_lt_of_get? hTypes
  cases types with
  | arr elements =>
      cases hParts
      have h3 := List.sizeOf_lt_of_mem member
      simp only [Json.arr.sizeOf_spec] at h2
      omega
  | null | bool | num | str | obj => simp [Json.elements?] at hParts

/-- Classify a reference. The first of `primitive`, `fqn`, `collection` and `union` that fits
decides; a `primitive` that is no known name and a `collection` that is not well-formed are
unsupported even when a later shape would fit. -/
def ofJson (raw : Json) : TypeRef :=
  match (raw.get? "primitive").bind Json.text? with
  | some name =>
      match Primitive.ofText? name with
      | some p => .primitive p
      | none => .unsupported raw
  | none =>
    match (raw.get? "fqn").bind Json.text? with
    | some fqn => .named fqn
    | none =>
      match hc : raw.get? "collection" with
      | some body =>
          match ((body.get? "kind").bind Json.text?).bind CollectionKind.ofText?,
              he : body.get? "elementtype" with
          | some kind, some element =>
              have : sizeOf element < sizeOf raw :=
                Nat.lt_trans (Json.sizeOf_lt_of_get? he) (Json.sizeOf_lt_of_get? hc)
              .collection kind (ofJson element)
          | _, _ => .unsupported raw
      | none =>
        match hu : unionMembers? raw with
        | some types =>
            .union (types.attach.map fun ⟨part, member⟩ =>
              have : sizeOf part < sizeOf raw := sizeOf_lt_of_unionMembers? hu member
              ofJson part)
        | none => .unsupported raw
termination_by sizeOf raw

mutual

/-- Write a reference in the shape that names its form; an unsupported one is written as it was. -/
def toJson : TypeRef → Json
  | .primitive p => .obj [("primitive", .str p.text)]
  | .named fqn => .obj [("fqn", .str fqn)]
  | .union members => .obj [("union", .obj [("types", .arr (toJsonAll members))])]
  | .collection kind element =>
      .obj [("collection", .obj [("kind", .str kind.text), ("elementtype", toJson element)])]
  | .unsupported raw => raw

/-- Write a list of references. -/
def toJsonAll : List TypeRef → List Json
  | [] => []
  | t :: rest => toJson t :: toJsonAll rest

end

/-- The name that a reference consists of. -/
def fqn? : TypeRef → Option String
  | .named fqn => some fqn
  | _ => none

end TypeRef

end ManifestSchema
