import ManifestSchema.Json.Decode

/-!
# Values of filters

A filter works on JSON values whose numbers remember how they were written: a signed 64-bit integer,
the text of any other number, or the result of a computation. Integers that overflow wrap around.
-/

namespace ManifestSchema

namespace Filter

/-- A number inside a filter. -/
inductive Quantity
  | int (value : Int)
  | written (text : String)
  | float (value : Float)

namespace Quantity

/-- The binary64 value nearest to the number that a text shows. -/
def writtenValue (text : String) : Float :=
  let negative := text.toList.head? = some '-'
  let body := text.toList.filter (· ≠ '-') |>.takeWhile fun c => c ≠ 'e' ∧ c ≠ 'E'
  let mark := text.toList.dropWhile fun c => c ≠ 'e' ∧ c ≠ 'E'
  let below := mark.contains '-'
  let exponent : Int := Decimal.ofDigits (mark.filter Char.isDigit)
  let whole := body.takeWhile (· ≠ '.')
  let places := (body.dropWhile (· ≠ '.')).drop 1
  let value := (Decimal.ofParts whole places (if below then -exponent else exponent)).toFloat
  if negative then -value else value

/-- The value in floating point. -/
def toFloat : Quantity → Float
  | .int n => Float.ofInt n
  | .written text => writtenValue text
  | .float x => x

/-- The sum of two numbers. -/
def add : Quantity → Quantity → Quantity
  | .int a, .int b => .int (Word.wrapSigned (a + b))
  | a, b => .float (a.toFloat + b.toFloat)

/-- The difference of two numbers. -/
def subtract : Quantity → Quantity → Quantity
  | .int a, .int b => .int (Word.wrapSigned (a - b))
  | a, b => .float (a.toFloat - b.toFloat)

/-- The negative of a number. -/
def negate : Quantity → Quantity
  | .int a => .int (Word.wrapSigned (-a))
  | a => .float (-a.toFloat)

/-- The distance from zero. -/
def magnitude : Quantity → Quantity
  | .int a => .int (Word.wrapSigned a.natAbs)
  | a => .float a.toFloat.abs

/-- The number of a JSON number. -/
def ofNumber : Number → Quantity
  | .int n => if Word.fitsSigned n then .int n else .written (toString n)
  | .float x => .written (Json.numberText (.float x))

/-- The number that a text shows. -/
def ofText (text : String) : Quantity :=
  if text.toList.all Char.isDigit && Word.fitsSigned (Decimal.ofDigits text.toList) then
    .int (Decimal.ofDigits text.toList)
  else .written text

/-- The JSON value of a number, read from its text; a float that is no finite number is null. -/
def toJson? : Quantity → Option Json
  | .int n => some (.num (.int n))
  | .written text => (Json.ofText text).toOption
  | .float x =>
      if x.isFinite then (Json.ofText (Json.numberText (.float x))).toOption else some .null

end Quantity

/-- A value inside a filter. -/
inductive Value
  | null
  | bool (value : Bool)
  | num (value : Quantity)
  | str (value : String)
  | arr (elements : List Value)
  | obj (members : List (String × Value))
deriving Inhabited

namespace Value

/-- An integer. -/
def int (n : Int) : Value := .num (.int n)

/-- Whether a condition counts as met: all but `null` and `false` do. -/
def holds : Value → Bool
  | .null => false
  | .bool b => b
  | _ => true

mutual

/-- The value of a JSON value. -/
def ofJson : Json → Value
  | .null => .null
  | .bool b => .bool b
  | .num n => .num (.ofNumber n)
  | .str s => .str s
  | .arr elements => .arr (ofElements elements)
  | .obj members => .obj (ofMembers members)

/-- The values of some elements. -/
def ofElements : List Json → List Value
  | [] => []
  | v :: rest => ofJson v :: ofElements rest

/-- The values of some members. -/
def ofMembers : List (String × Json) → List (String × Value)
  | [] => []
  | (k, v) :: rest => (k, ofJson v) :: ofMembers rest

end

mutual

/-- The JSON value of a value that is `depth` containers deep; too deep a value has none. -/
def toJsonAt? (depth : Nat) : Value → Option Json
  | .null => some .null
  | .bool b => some (.bool b)
  | .num n => n.toJson?
  | .str s => some (.str s)
  | .arr elements =>
      if depthLimit ≤ depth then none else (toElements? (depth + 1) elements).map .arr
  | .obj members =>
      if depthLimit ≤ depth then none else (toMembers? (depth + 1) members).map .obj

/-- The JSON values of some elements. -/
def toElements? (depth : Nat) : List Value → Option (List Json)
  | [] => some []
  | v :: rest => do
      let first ← toJsonAt? depth v
      let others ← toElements? depth rest
      return first :: others

/-- The JSON values of some members. -/
def toMembers? (depth : Nat) : List (String × Value) → Option (List (String × Json))
  | [] => some []
  | (k, v) :: rest => do
      let first ← toJsonAt? depth v
      let others ← toMembers? depth rest
      return (k, first) :: others

end

/-- The JSON value of a value, unless it is too deep or holds a number that is too large. -/
def toJson? (v : Value) : Option Json := v.toJsonAt? 0

mutual

/-- A value and all values inside it, each before those inside it. -/
def all : Value → List Value
  | .arr elements => .arr elements :: allElements elements
  | .obj members => .obj members :: allMembers members
  | .null => [.null]
  | .bool b => [.bool b]
  | .num n => [.num n]
  | .str s => [.str s]

/-- The values inside some elements, and the elements. -/
def allElements : List Value → List Value
  | [] => []
  | v :: rest => all v ++ allElements rest

/-- The values inside some members, and their values. -/
def allMembers : List (String × Value) → List Value
  | [] => []
  | (_, v) :: rest => all v ++ allMembers rest

end

end Value

end Filter

end ManifestSchema
