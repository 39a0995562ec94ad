import ManifestSchema.Json.Basic
import ManifestSchema.Decimal

/-!
# JSON text

The compact text has no blanks; the pretty text puts each element and member on a line of its own,
indented by two spaces a level. Both escape only what JSON requires.
-/

namespace ManifestSchema

namespace Json

/-- One hexadecimal digit in lower case. -/
def hexDigit (n : Nat) : Char := if n < 10 then Char.ofNat (48 + n) else Char.ofNat (87 + n)

/-- The escape of one character: quotes, backslashes and control characters only. -/
def escapeChar (c : Char) : List Char :=
  if c = '"' then ['\\', '"']
  else if c = '\\' then ['\\', '\\']
  else if c = '\x08' then ['\\', 'b']
  else if c = '\t' then ['\\', 't']
  else if c = '\n' then ['\\', 'n']
  else if c = '\x0c' then ['\\', 'f']
  else if c = '\r' then ['\\', 'r']
  else if c.toNat < 32 then
    ['\\', 'u', '0', '0', hexDigit (c.toNat / 16), hexDigit (c.toNat % 16)]
  else [c]

/-- A string in quotes. -/
def quote (text : String) : String :=
  String.ofList ('"' :: (text.toList.flatMap escapeChar ++ ['"']))

/-- The text of a number. -/
def numberText : Number → String
  | .int value => toString value
  | .float value => Decimal.floatText Decimal.jsonLayout value

mutual

/-- The text of a value without any blanks. -/
def compact : Json → String
  | .null => "null"
  | .bool true => "true"
  | .bool false => "false"
  | .num n => numberText n
  | .str s => quote s
  | .arr elements => "[" ++ compactElements true elements ++ "]"
  | .obj members => "\x7b" ++ compactMembers true members ++ "\x7d"

/-- Elements separated by commas; `first` says that none has been written yet. -/
def compactElements (first : Bool) : List Json → String
  | [] => ""
  | v :: rest => (if first then "" else ",") ++ compact v ++ compactElements false rest

/-- Members separated by commas; `first` says that none has been written yet. -/
def compactMembers (first : Bool) : List (String × Json) → String
  | [] => ""
  | (k, v) :: rest =>
      (if first then "" else ",") ++ quote k ++ ":" ++ compact v ++ compactMembers false rest

end

/-- A new line with the indentation of a level. -/
def newLine (level : Nat) : String := "\n" ++ String.ofList (List.replicate (2 * level) ' ')

mutual

/-- The text of a value with one element or member a line. -/
def prettyAt (level : Nat) : Json → String
  | .null => "null"
  | .bool true => "true"
  | .bool false => "false"
  | .num n => numberText n
  | .str s => quote s
  | .arr [] => "[]"
  | .arr (v :: rest) =>
      "[" ++ newLine (level + 1) ++ prettyAt (level + 1) v ++ prettyElements (level + 1) rest ++
        newLine level ++ "]"
  | .obj [] => "\x7b\x7d"
  | .obj ((k, v) :: rest) =>
      "\x7b" ++ newLine (level + 1) ++ quote k ++ ": " ++ prettyAt (level + 1) v ++
        prettyMembers (level + 1) rest ++ newLine level ++ "\x7d"

/-- The elements after the first, each behind a comma. -/
def prettyElements (level : Nat) : List Json → String
  | [] => ""
  | v :: rest => "," ++ newLine level ++ prettyAt level v ++ prettyElements level rest

/-- The members after the first, each behind a comma. -/
def prettyMembers (level : Nat) : List (String × Json) → String
  | [] => ""
  | (k, v) :: rest =>
      "," ++ newLine level ++ quote k ++ ": " ++ prettyAt level v ++ prettyMembers level rest

end

/-- The text of a value with one element or member a line, indented by two spaces a level. -/
def pretty (value : Json) : String := prettyAt 0 value

end Json

end ManifestSchema
