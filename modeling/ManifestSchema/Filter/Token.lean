import ManifestSchema.Text.Classes

/-!
# Tokens of filters

A filter is cut into words, variables, fields, numbers, texts and symbols. Blanks and comments
separate tokens. A run of operator characters is one symbol, but a minus always starts a new one. A
comment goes on behind a line end with a backslash in front, unless that backslash is escaped.
-/

namespace ManifestSchema

namespace Filter

/-- The smallest parts of a filter. -/
inductive Token
  | word (name : String)
  | variable (name : String)
  | field (name : String)
  | number (text : String)
  | text (content : String)
  | symbol (text : String)
deriving DecidableEq, Repr

namespace Token

/-- A letter with which a name starts. -/
def startsName (c : Char) : Bool := c.isAlpha || c == '_'

/-- A character inside a name. -/
def inName (c : Char) : Bool := c.isAlphanum || c == '_'

/-- A character of an operator. -/
def inOperator (c : Char) : Bool := ['|', '=', '!', '<', '>', '+', '-', '*', '/', '%'].contains c

/-- A character that is a symbol by itself. -/
def isPunctuation (c : Char) : Bool :=
  [':', ';', ',', '?', '(', ')', '[', ']', '\x7b', '\x7d'].contains c

/-- The longest start of a text in a class, and what follows it. -/
def span (inside : Char → Bool) (cs : List Char) : String × List Char :=
  (String.ofList (cs.takeWhile inside), cs.dropWhile inside)

/-- The character that a one-letter escape stands for. -/
def escape? : Char → Option Char
  | '"' => some '"'
  | '\\' => some '\\'
  | '/' => some '/'
  | 'b' => some '\x08'
  | 'f' => some '\x0c'
  | 'n' => some '\n'
  | 'r' => some '\r'
  | 't' => some '\t'
  | _ => none

/-- The value of a hexadecimal digit. -/
def hexDigit? (c : Char) : Option Nat :=
  if c.isDigit then some (c.toNat - 48)
  else if 'a' ≤ c ∧ c ≤ 'f' then some (c.toNat - 87)
  else if 'A' ≤ c ∧ c ≤ 'F' then some (c.toNat - 55)
  else none

/-- The character of a code of four hexadecimal digits, unless it is a surrogate. -/
def codeChar? (a b c d : Char) : Option Char := do
  let code := (((← hexDigit? a) * 16 + (← hexDigit? b)) * 16 + (← hexDigit? c)) * 16 +
    (← hexDigit? d)
  if code.isValidChar then some (Char.ofNat code) else none

/-- The content of a text up to its closing quote, in reverse behind what was read before, and what
follows the quote. -/
def readText : (read : List Char) → List Char → Option (String × List Char)
  | _, [] => none
  | read, '"' :: rest => some (String.ofList read.reverse, rest)
  | _, ['\\'] => none
  | read, '\\' :: 'u' :: a :: b :: c :: d :: rest =>
      match codeChar? a b c d with
      | some x => readText (x :: read) rest
      | none => none
  | read, '\\' :: x :: rest =>
      match escape? x with
      | some c => readText (c :: read) rest
      | none => none
  | read, x :: rest => readText (x :: read) rest

/-- At least one digit, and what follows the digits. -/
def readDigits (cs : List Char) : Option (String × List Char) :=
  let (digits, rest) := span Char.isDigit cs
  if digits.isEmpty then none else some (digits, rest)

/-- A fraction, if a point stands here; digits must follow it. -/
def readFraction : List Char → Option (String × List Char)
  | '.' :: rest => (readDigits rest).map fun (digits, rest) => ("." ++ digits, rest)
  | cs => some ("", cs)

/-- The sign of an exponent, if there is one. -/
def readSign : List Char → String × List Char
  | '+' :: rest => ("+", rest)
  | '-' :: rest => ("-", rest)
  | cs => ("", cs)

/-- An exponent, if its mark stands here; digits must follow it, perhaps behind a sign. -/
def readExponent : List Char → Option (String × List Char)
  | [] => some ("", [])
  | e :: rest =>
      if e = 'e' ∨ e = 'E' then
        let (sign, rest) := readSign rest
        (readDigits rest).map fun (digits, rest) => ("e" ++ sign ++ digits, rest)
      else some ("", e :: rest)

/-- A number, from its first digit on. -/
def readNumber (cs : List Char) : Option (String × List Char) := do
  let (whole, rest) ← readDigits cs
  let (fraction, rest) ← readFraction rest
  let (exponent, rest) ← readExponent rest
  return (whole ++ fraction ++ exponent, rest)

/-- A name that must be there. -/
def readName : List Char → Option (String × List Char)
  | [] => none
  | c :: rest => if startsName c then some (span inName (c :: rest)) else none

/-- A name that may be qualified by another one. -/
def readQualified (cs : List Char) : Option (String × List Char) := do
  let (name, rest) ← readName cs
  match rest with
  | ':' :: ':' :: rest =>
      let (inner, rest) ← readName rest
      return (name ++ "::" ++ inner, rest)
  | _ => return (name, rest)

/-- The first token of a text, which starts with no blank, and what follows it. -/
def next : List Char → Option (Token × List Char)
  | [] => none
  | '"' :: rest => (readText [] rest).map fun (s, rest) => (.text s, rest)
  | '$' :: rest => (readName rest).map fun (s, rest) => (.variable s, rest)
  | '.' :: '.' :: rest => some (.symbol "..", rest)
  | '.' :: rest =>
      match readName rest with
      | some (s, rest) => some (.field s, rest)
      | none => some (.symbol ".", rest)
  | c :: rest =>
      if startsName c then (readQualified (c :: rest)).map fun (s, rest) => (.word s, rest)
      else if c.isDigit then (readNumber (c :: rest)).map fun (s, rest) => (.number s, rest)
      else if inOperator c then
        let (s, rest) := span (fun x => inOperator x && x ≠ '-') rest
        some (.symbol (String.singleton c ++ s), rest)
      else if isPunctuation c then some (.symbol (String.singleton c), rest)
      else none

/-- Whether a line ends with a backslash that is not escaped; a carriage return does not count. The
line is given from its end. -/
def goesOn (reversed : List Char) : Bool :=
  let line := match reversed with
    | '\r' :: line => line
    | line => line
  (line.takeWhile (· = '\\')).length % 2 = 1

/-- What follows a comment. The characters of its line so far are given from the last one. -/
def dropComment : (reversed : List Char) → List Char → List Char
  | _, [] => []
  | reversed, c :: rest =>
      if c = '\n' then if goesOn reversed then dropComment [] rest else rest
      else dropComment (c :: reversed) rest

/-- Cut a text into tokens; each step uses up a character, so `steps` bounds them. -/
def allWithin : (steps : Nat) → List Char → Option (List Token)
  | _, [] => some []
  | 0, _ :: _ => none
  | steps + 1, c :: rest =>
      if Text.isBlank c then allWithin steps rest
      else if c = '#' then allWithin steps (dropComment [] rest)
      else do
        let (token, rest) ← next (c :: rest)
        let others ← allWithin steps rest
        return token :: others

/-- The tokens of a text, unless it holds something else. -/
def all? (source : String) : Option (List Token) := allWithin source.length source.toList

end Token

end Filter

end ManifestSchema
