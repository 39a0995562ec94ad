import ManifestSchema.Toml.Basic

/-!
# Printing TOML

A document of tables, one after the other with a blank line between them. Arrays of two or more
elements go over several lines. Of the ways to write a string the first one is taken that needs no
escapes, except for tabs: between double quotes, between single quotes, between three double quotes,
between three single quotes. Where each of them needs escapes, it stands between double quotes,
three of them if it has line ends.
-/

namespace ManifestSchema

namespace Toml

/-- What stands around a string. -/
inductive Quotation
  | basic
  | literal
  | basicLines
  | literalLines
deriving DecidableEq, Repr

namespace Quotation

/-- Whether a character is a control character other than a tab or a line end. -/
def isControl (c : Char) : Bool := c ≠ '\t' && c ≠ '\n' && (c.toNat < 32 || c.toNat = 127)

/-- The length of the longest run of a character, `current` of which stand directly before. -/
def longestRun (x : Char) (current : Nat) : List Char → Nat
  | [] => current
  | c :: rest =>
      if c = x then longestRun x (current + 1) rest else max current (longestRun x 0 rest)

/-- Whether a string needs no escapes within a quotation, except for tabs. -/
def fits (cs : List Char) : Quotation → Bool
  | .basic => !cs.any isControl && !cs.contains '\n' && !cs.contains '\\' && !cs.contains '"'
  | .literal => !cs.any isControl && !cs.contains '\n' && !cs.contains '\''
  | .basicLines => !cs.any isControl && !cs.contains '\\' && longestRun '"' 0 cs ≤ 2
  | .literalLines => !cs.any isControl && longestRun '\'' 0 cs ≤ 2

/-- All quotations, the preferred ones first. -/
def all : List Quotation := [.basic, .literal, .basicLines, .literalLines]

/-- How to write a string. -/
def of (cs : List Char) : Quotation :=
  (all.find? (fits cs)).getD (if cs.contains '\n' then .basicLines else .basic)

/-- The quotes on either side of a string. -/
def quotes : Quotation → List Char
  | .basic => ['"']
  | .literal => ['\'']
  | .basicLines => ['"', '"', '"']
  | .literalLines => ['\'', '\'', '\'']

/-- Whether a quotation takes line ends. -/
def hasLines : Quotation → Bool
  | .basic | .literal => false
  | .basicLines | .literalLines => true

/-- A hexadecimal digit in upper case. -/
def hexDigit (n : Nat) : Char := if n < 10 then Char.ofNat (48 + n) else Char.ofNat (55 + n)

/-- One character where escapes are used; quotes are left to the caller. -/
def escaped (keepLineEnds : Bool) (c : Char) : List Char :=
  if c = '\x08' then ['\\', 'b']
  else if c = '\t' then ['\\', 't']
  else if c = '\n' then if keepLineEnds then ['\n'] else ['\\', 'n']
  else if c = '\x0c' then ['\\', 'f']
  else if c = '\r' then ['\\', 'r']
  else if c = '\\' then ['\\', '\\']
  else if c.toNat < 32 ∨ c.toNat = 127 then
    ['\\', 'u', '0', '0', hexDigit (c.toNat / 16), hexDigit (c.toNat % 16)]
  else [c]

/-- A string with escapes. Of the quotes in a row `free` may stand as they are, `seen` of which have
been written; the next one is escaped. -/
def escapedAfter (keepLineEnds : Bool) (free : Nat) : (seen : Nat) → List Char → List Char
  | _, [] => []
  | seen, c :: rest =>
      if c = '"' then
        if free ≤ seen then '\\' :: '"' :: escapedAfter keepLineEnds free 0 rest
        else '"' :: escapedAfter keepLineEnds free (seen + 1) rest
      else escaped keepLineEnds c ++ escapedAfter keepLineEnds free 0 rest

/-- The content of a string between its quotes. -/
def content (q : Quotation) (cs : List Char) : List Char :=
  match q with
  | .basic => escapedAfter false 0 0 cs
  | .basicLines => escapedAfter true 2 0 cs
  | .literal | .literalLines => cs

end Quotation

/-- A string with its quotes. One with line ends starts on a line of its own. -/
def stringText (s : String) : String :=
  let cs := s.toList
  let q := Quotation.of cs
  let start := if q.hasLines && cs.contains '\n' then ['\n'] else []
  String.ofList (q.quotes ++ start ++ q.content cs ++ q.quotes)

/-- The value of a setting: a scalar or a list of texts. -/
inductive Entry
  | text (value : String)
  | number (value : Nat)
  | flag (value : Bool)
  | texts (values : List String)
deriving DecidableEq

/-- A list of texts, the first of which goes on the line of the key when it is alone. -/
def textsText : List String → String
  | [] => "[]"
  | [s] => "[" ++ stringText s ++ "]"
  | many => "[\n" ++ String.join (many.map fun s => "    " ++ stringText s ++ ",\n") ++ "]"

/-- The text of an entry. -/
def Entry.print : Entry → String
  | .text s => stringText s
  | .number n => toString n
  | .flag true => "true"
  | .flag false => "false"
  | .texts values => textsText values

/-- A table with its header. -/
def sectionText (name : String) (entries : Dict Entry) : String :=
  "[" ++ name ++ "]\n" ++ String.join (entries.map fun e => e.1 ++ " = " ++ e.2.print ++ "\n")

/-- A document of tables. -/
def documentText (sections : Dict (Dict Entry)) : String :=
  "\n".intercalate (sections.map fun s => sectionText s.1 s.2)

end Toml

end ManifestSchema
