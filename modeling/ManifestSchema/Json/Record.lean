import ManifestSchema.Json.Decode

/-!
# Records in JSON

A record is written as an object with named members, or as an array with its fields in the order of
declaration. Members that the record does not know are ignored, a known one must not occur twice,
and a field that may be missing has a default. Of several faults the first in the order of the
document counts; a missing field shows only at the end.
-/

namespace ManifestSchema

/-- A field: whether it must be present, and what its value must satisfy. -/
structure Field where
  name : String
  required : Bool
  check : Json → Except DecodeCause Unit

/-- The shape of a record: how it is called, and its fields in order. -/
structure Shape where
  name : String
  fields : List Field

namespace Shape

/-- Collect the known members of an object, after those that were seen before. -/
def collect (s : Shape) : (members : List (String × Json)) → (seen : Dict Json) →
    Except DecodeCause (Dict Json)
  | [], seen => .ok seen
  | (key, value) :: rest, seen =>
      match s.fields.find? fun f => f.name = key with
      | none => s.collect rest seen
      | some f =>
          if seen.contains key then .error (.duplicateField key)
          else do
            f.check value
            s.collect rest (seen ++ [(key, value)])

/-- Pair fields with elements; `position` elements came before. -/
def pair (s : Shape) : (fields : List Field) → (elements : List Json) → (position : Nat) →
    Except DecodeCause (Dict Json)
  | [], [], _ => .ok []
  | [], extra, position => .error (.tooManyElements (position + extra.length) position)
  | f :: fields, [], position =>
      if f.required then .error (.tooFewElements position s.name s.fields.length)
      else s.pair fields [] (position + 1)
  | f :: fields, value :: elements, position => do
      f.check value
      let others ← s.pair fields elements (position + 1)
      return (f.name, value) :: others

/-- The values of the fields of a record that are present. -/
def values (s : Shape) : Json → Except DecodeCause (Dict Json)
  | .obj members => do
      let known ← s.collect members []
      match s.fields.find? fun f => f.required && !known.contains f.name with
      | some f => .error (.missingField f.name)
      | none => return known
  | .arr elements => s.pair s.fields elements 0
  | other => .error (.invalidType other ("struct " ++ s.name))

end Shape

/-! ## Decoders of single values -/

namespace Json

/-- A string. -/
def asText : Json → Except DecodeCause String
  | .str s => .ok s
  | other => .error (.invalidType other "a string")

/-- A string or nothing. -/
def asTextOrNull : Json → Except DecodeCause (Option String)
  | .null => .ok none
  | .str s => .ok (some s)
  | other => .error (.invalidType other "a string")

/-- A boolean. -/
def asBool : Json → Except DecodeCause Bool
  | .bool b => .ok b
  | other => .error (.invalidType other "a boolean")

/-- A list whose elements are decoded one by one. -/
def asList {α : Type} (decode : Json → Except DecodeCause α) : Json → Except DecodeCause (List α)
  | .arr elements => elements.mapM decode
  | other => .error (.invalidType other "a sequence")

end Json

namespace Field

/-- A field that must be present. -/
def needed {α : Type} (name : String) (decode : Json → Except DecodeCause α) : Field :=
  ⟨name, true, fun v => (decode v).map fun _ => ()⟩

/-- A field that has a default. -/
def defaulted {α : Type} (name : String) (decode : Json → Except DecodeCause α) : Field :=
  ⟨name, false, fun v => (decode v).map fun _ => ()⟩

end Field

/-- The decoded value of a field that must be present. -/
def Dict.require {α : Type} (d : Dict Json) (name : String)
    (decode : Json → Except DecodeCause α) : Except DecodeCause α :=
  match d.find? name with
  | some v => decode v
  | none => .error (.missingField name)

/-- The decoded value of a field, or its default. -/
def Dict.optionally {α : Type} (d : Dict Json) (name : String) (default : α)
    (decode : Json → Except DecodeCause α) : Except DecodeCause α :=
  match d.find? name with
  | some v => decode v
  | none => .ok default

end ManifestSchema
