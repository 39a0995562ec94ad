import ManifestSchema.Decimal
import ManifestSchema.Definitions.Registry
import ManifestSchema.Proofs.Pointer

/-!
# Validation

Which values a schema accepts, for the keywords that the schemas of types are made of: `type`,
`enum`, `anyOf`, `items`, `properties`, `additionalProperties`, `required` and `$ref`, with the
meaning that draft-07 gives them. Members beside a `$ref` are ignored, and so is every other
keyword. A `$ref` is looked up among definitions.

A reference can lead back to itself without a part of the value being consumed, so validation is
given a number of steps, and a value is valid when some number of steps shows it.
-/

namespace ManifestSchema

/-! ## Values -/

/-- The integer that a number is equal to, if it is equal to one. -/
def Number.whole? : Number → Option Int
  | .int i => some i
  | .float x =>
      let b := Decimal.Binary.ofBits x.toBits
      let divisor := Nat.pow 2 (-b.exponent).toNat
      let magnitude := b.mantissa * Nat.pow 2 b.exponent.toNat
      if magnitude % divisor = 0 then
        some (if x.toBits ≥ 0x8000000000000000 then -(magnitude / divisor : Nat)
          else (magnitude / divisor : Nat))
      else none

/-- Whether two numbers are equal as numbers. -/
def Number.same (a b : Number) : Bool :=
  match a.whole?, b.whole? with
  | some i, some j => i == j
  | none, none => a = b
  | _, _ => false

namespace Json

mutual

/-- Whether two values are equal: numbers as numbers, and objects in any order of their members. -/
def same : Json → Json → Bool
  | .null, .null => true
  | .bool a, .bool b => a == b
  | .num a, .num b => a.same b
  | .str a, .str b => a == b
  | .arr a, .arr b => sameElements a b
  | .obj a, .obj b => a.length == b.length && sameMembers a b
  | _, _ => false

/-- Whether two lists have equal elements in the same places. -/
def sameElements : List Json → List Json → Bool
  | [], [] => true
  | a :: as, b :: bs => same a b && sameElements as bs
  | _, _ => false

/-- Whether an object has equal values under the keys of all members. -/
def sameMembers : List (String × Json) → Dict Json → Bool
  | [], _ => true
  | (key, a) :: rest, b =>
      (match b.find? key with
        | some value => same a value
        | none => false) && sameMembers rest b

end

@[simp] theorem same_str (a b : String) : (Json.str a).same (.str b) = (a == b) := by
  simp [same]

/-- Whether a value is of a JSON type. -/
def hasType (v : Json) (name : String) : Bool :=
  match v with
  | .null => name == "null"
  | .bool _ => name == "boolean"
  | .num n => name == "number" || name == "integer" && n.whole?.isSome
  | .str _ => name == "string"
  | .arr _ => name == "array"
  | .obj _ => name == "object"

end Json

/-! ## Keywords -/

namespace Keyword

/-- `type` names the type of the value or lists possible ones. -/
def meetsType (schema : Dict Json) (v : Json) : Bool :=
  match schema.find? "type" with
  | some (.str name) => v.hasType name
  | some (.arr names) => names.any fun name => name.text?.any v.hasType
  | _ => true

/-- `enum` lists the possible values. -/
def meetsEnum (schema : Dict Json) (v : Json) : Bool :=
  match schema.find? "enum" with
  | some (.arr values) => values.any v.same
  | _ => true

/-- `required` lists keys that an object has. -/
def meetsRequired (schema : Dict Json) (v : Json) : Bool :=
  match schema.find? "required", v with
  | some (.arr names), .obj members => names.all fun name => name.text?.all (Dict.contains members)
  | _, _ => true

/-- The schema of a member of an object: that under its key in `properties`, else that of
`additionalProperties`. -/
def memberSchema? (schema : Dict Json) (key : String) : Option Json :=
  match (schema.find? "properties").bind (·.get? key) with
  | some inner => some inner
  | none => schema.find? "additionalProperties"

/-- The parts of a value that a schema has schemas for, each with its schema. -/
def parts (schema : Dict Json) : Json → List (Json × Json)
  | .arr elements =>
      match schema.find? "items" with
      | some (.arr schemas) => schemas.zip elements
      | some inner => elements.map fun v => (inner, v)
      | none => []
  | .obj members => members.filterMap fun m => (memberSchema? schema m.1).map fun s => (s, m.2)
  | _ => []

/-- `anyOf` lists schemas one of which accepts the value. -/
def choices? (schema : Dict Json) : Option (List Json) :=
  (schema.find? "anyOf").bind Json.elements?

end Keyword

/-! ## Validity -/

/-- The body that a pointer leads to. -/
def Pointer.resolve? (definitions : Dict Json) (text : String) : Option Json :=
  (key? text).bind definitions.find?

/-- Whether a schema accepts a value, shown within a number of steps. -/
def validWithin (definitions : Dict Json) : (steps : Nat) → (schema v : Json) → Bool
  | 0, _, _ => false
  | _ + 1, .bool accepts, _ => accepts
  | steps + 1, .obj schema, v =>
      match (Dict.find? schema "$ref").bind Json.text? with
      | some text =>
          match Pointer.resolve? definitions text with
          | some body => validWithin definitions steps body v
          | none => false
      | none =>
          Keyword.meetsType schema v && Keyword.meetsEnum schema v &&
            Keyword.meetsRequired schema v &&
            ((Keyword.choices? schema).all fun schemas =>
              schemas.any fun s => validWithin definitions steps s v) &&
            (Keyword.parts schema v).all fun p => validWithin definitions steps p.1 p.2
  | _ + 1, _, _ => false

/-- A schema accepts a value, references being looked up in `definitions`. -/
def Valid (definitions : Dict Json) (schema v : Json) : Prop :=
  ∃ steps, validWithin definitions steps schema v = true

end ManifestSchema
