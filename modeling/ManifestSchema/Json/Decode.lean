import ManifestSchema.Json.Located.Reader
import ManifestSchema.Json.Printer
import ManifestSchema.Text.Classes

/-!
# Decoding JSON

What can go wrong when a JSON text or value is turned into something typed, and how that is worded:
a cause, the path from the root to the place, and for a text also the line and column. The plainest
decoder, `Json.ofText`, asks only for a JSON value.
-/

namespace ManifestSchema

/-- A step on the way from the root of a document into it. -/
inductive PathStep
  | key (name : String)
  | index (position : Nat)
  | unknown
deriving DecidableEq, Repr

/-- The wording of a path: keys after dots, positions in brackets, one dot for the root. -/
def pathText (path : List PathStep) : String :=
  match path with
  | [] => "."
  | _ => go true path
where
  /-- Write the steps; `first` says that none has been written yet. -/
  go (first : Bool) : List PathStep → String
    | [] => ""
    | .key name :: rest => (if first then "" else ".") ++ name ++ go false rest
    | .unknown :: rest => (if first then "" else ".") ++ "?" ++ go false rest
    | .index i :: rest => "[" ++ toString i ++ "]" ++ go false rest

/-!
## Texts quoted for a reader

A string that a message quotes stands in double quotes with everything escaped that a reader could
not tell apart: quotes, backslashes, line breaks, and every character that does not show.
-/

namespace Text

/-- A character as its code point. -/
def codeEscape (c : Char) : String :=
  "\\u\x7b" ++ String.ofList (Nat.toDigits 16 c.toNat) ++ "\x7d"

/-- One character of a quoted string. -/
def quotedChar (c : Char) : String :=
  if c = '\x00' then "\\0"
  else if c = '\t' then "\\t"
  else if c = '\r' then "\\r"
  else if c = '\n' then "\\n"
  else if c = '\\' then "\\\\"
  else if c = '"' then "\\\""
  else if isHidden c then codeEscape c
  else String.singleton c

/-- A string in double quotes. -/
def quoted (text : String) : String :=
  "\"" ++ String.join (text.toList.map quotedChar) ++ "\""

end Text

/-! ## Causes -/

/-- Why a document could not be decoded. -/
inductive DecodeCause
  | fault (fault : Fault)
  | missingField (name : String)
  | duplicateField (name : String)
  | invalidType (found : Json) (expected : String)
  | unknownVariant (found : String) (known : List String)
  | tooFewElements (count : Nat) (record : String) (fields : Nat)
  | tooManyElements (count used : Nat)
  | surplusElements (count : Nat)

namespace DecodeCause

/-- How a value is called when it is of the wrong type. -/
def describe : Json → String
  | .null => "null"
  | .bool true => "boolean `true`"
  | .bool false => "boolean `false`"
  | .num (.int n) => "integer `" ++ toString n ++ "`"
  | .num (.float x) => "floating point `" ++ Decimal.floatText Decimal.jsonLayout x ++ "`"
  | .str s => "string " ++ Text.quoted s
  | .arr _ => "sequence"
  | .obj _ => "map"

/-- A number of elements. -/
def elements (n : Nat) : String := toString n ++ (if n = 1 then " element" else " elements")

/-- The wording of a cause. -/
def message : DecodeCause → String
  | .fault f => f.message
  | .missingField name => "missing field `" ++ name ++ "`"
  | .duplicateField name => "duplicate field `" ++ name ++ "`"
  | .invalidType found expected => "invalid type: " ++ describe found ++ ", expected " ++ expected
  | .unknownVariant found known =>
      "unknown variant `" ++ found ++ "`, expected one of " ++
        ", ".intercalate (known.map fun k => "`" ++ k ++ "`")
  | .tooFewElements count record fields =>
      "invalid length " ++ toString count ++ ", expected struct " ++ record ++ " with " ++
        elements fields
  | .tooManyElements count used =>
      "invalid length " ++ toString count ++ ", expected " ++ elements used ++ " in sequence"
  | .surplusElements count =>
      "invalid length " ++ toString count ++ ", expected fewer elements in array"

end DecodeCause

/-- A failed decoding: where in the document, why, and for a text after how many of its bytes. -/
structure DecodeError where
  path : List PathStep
  cause : DecodeCause
  offset : Option Nat

namespace DecodeError

/-- A fault in the text at a path. -/
def ofStop (path : List PathStep) (stop : Stop) : DecodeError :=
  ⟨path, .fault stop.fault, some stop.offset⟩

end DecodeError

/-- The number of nested arrays and objects that reading a value goes into. -/
def depthLimit : Nat := 127

namespace Located

mutual

/-- Read a value at a path, `depth` containers deep; repeated keys are kept. -/
def read (path : List PathStep) (depth : Nat) : Located → Except DecodeError Json
  | .null _ => .ok .null
  | .bool b _ => .ok (.bool b)
  | .num (.ok n) _ => .ok (.num n)
  | .num (.error stop) _ => .error (.ofStop path stop)
  | .str (.ok s) _ => .ok (.str s)
  | .str (.error stop) _ => .error (.ofStop path stop)
  | .arr start elements =>
      if depthLimit ≤ depth then .error (.ofStop path ⟨.tooDeep, start + 1⟩)
      else (readAll path (depth + 1) 0 elements).map .arr
  | .obj start members =>
      if depthLimit ≤ depth then .error (.ofStop path ⟨.tooDeep, start + 1⟩)
      else (readFields path (depth + 1) members).map .obj
  | .broken reading _ => .error (.ofStop path reading)

/-- Read the elements from a position on. -/
def readAll (path : List PathStep) (depth position : Nat) :
    Elements → Except DecodeError (List Json)
  | .close _ => .ok []
  | .broken reading _ => .error (.ofStop path reading)
  | .cons _ first rest => do
      let value ← read (path ++ [.index position]) depth first
      let others ← readAll path depth (position + 1) rest
      return value :: others

/-- Read the members. -/
def readFields (path : List PathStep) (depth : Nat) :
    Members → Except DecodeError (List (String × Json))
  | .close _ => .ok []
  | .broken reading _ => .error (.ofStop (path ++ [.unknown]) reading)
  | .noColon (.ok _) _ colon => .error (.ofStop path colon)
  | .noColon (.error stop) _ _ => .error (.ofStop (path ++ [.unknown]) stop)
  | .cons (.error stop) _ _ _ _ => .error (.ofStop (path ++ [.unknown]) stop)
  | .cons (.ok key) _ value _ rest => do
      let value ← read (path ++ [.key key]) depth value
      let others ← readFields path depth rest
      return (key, value) :: others

end

end Located

/-- The first value of a text; a repeated key keeps its place and takes the last value. -/
def Json.ofText (text : String) : Except DecodeError Json :=
  (Located.read [] 0 (Located.ofText text)).map Json.collapse

end ManifestSchema
