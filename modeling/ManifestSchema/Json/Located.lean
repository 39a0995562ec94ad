import ManifestSchema.Json.Basic

/-!
# JSON text as a located tree

A text is read once into a tree that knows where each of its parts ends. The tree also describes a
text that stops being JSON: from there on it has a `broken` leaf that names the fault and its place.
A decoder walks the tree in the order of the text and stops at the first thing that it cannot use,
so of a wrong type and a later fault in the text it reports the former.

A part whose content is wanted is *read*, another part is *skipped*. Both need well-formed text, but
reading also asks that a number fits a binary64 value and that escaped surrogates come in pairs, and
the two name some faults differently; a fault therefore records both.
-/

namespace ManifestSchema

/-- What is wrong with a text that is not JSON. -/
inductive Fault
  | endInValue
  | endInString
  | endInList
  | endInObject
  | expectedValue
  | expectedIdent
  | expectedColon
  | expectedCommaOrBracket
  | expectedCommaOrBrace
  | trailingComma
  | trailingCharacters
  | keyNotString
  | invalidNumber
  | numberOutOfRange
  | invalidEscape
  | unexpectedEndOfHexEscape
  | loneSurrogate
  | controlCharacter
  | tooDeep
deriving DecidableEq, Repr

/-- The wording of a fault. -/
def Fault.message : Fault → String
  | .endInValue => "EOF while parsing a value"
  | .endInString => "EOF while parsing a string"
  | .endInList => "EOF while parsing a list"
  | .endInObject => "EOF while parsing an object"
  | .expectedValue => "expected value"
  | .expectedIdent => "expected ident"
  | .expectedColon => "expected `:`"
  | .expectedCommaOrBracket => "expected `,` or `]`"
  | .expectedCommaOrBrace => "expected `,` or `\x7d`"
  | .trailingComma => "trailing comma"
  | .trailingCharacters => "trailing characters"
  | .keyNotString => "key must be a string"
  | .invalidNumber => "invalid number"
  | .numberOutOfRange => "number out of range"
  | .invalidEscape => "invalid escape"
  | .unexpectedEndOfHexEscape => "unexpected end of hex escape"
  | .loneSurrogate => "lone leading surrogate in hex escape"
  | .controlCharacter => "control character (\\u0000-\\u001F) found while parsing a string"
  | .tooDeep => "recursion limit exceeded"

/-- A fault and how many bytes of the text belong to what comes before it, itself included. -/
structure Stop where
  fault : Fault
  offset : Nat
deriving DecidableEq, Repr

mutual

/-- A value with its place in a text. The offset `stop` of a scalar lies just after it, the offset
`start` of an array or object just before it. -/
inductive Located
  | null (stop : Nat)
  | bool (value : Bool) (stop : Nat)
  | num (value : Except Stop Number) (stop : Nat)
  | str (value : Except Stop String) (stop : Nat)
  | arr (start : Nat) (elements : Located.Elements)
  | obj (start : Nat) (members : Located.Members)
  | broken (reading skipping : Stop)

/-- The elements of an array up to its end: `close` has the offset after the bracket, `cons` the
offset at which its element starts. -/
inductive Located.Elements
  | close (stop : Nat)
  | broken (reading skipping : Stop)
  | cons (start : Nat) (first : Located) (rest : Located.Elements)

/-- The members of an object up to its end. After a key and after a value stands the offset at which
a reader that gives up there would resume: the next character that is no blank, past it when it
closes the object. -/
inductive Located.Members
  | close (stop : Nat)
  | broken (reading skipping : Stop)
  | noColon (key : Except Stop String) (afterKey : Nat) (colon : Stop)
  | cons (key : Except Stop String) (afterKey : Nat) (value : Located) (afterValue : Nat)
      (rest : Located.Members)

end

namespace Located

/-! ## Skipping -/

mutual

/-- The first fault that is in the way of going over a value without reading it. -/
def skip : Located → Option Stop
  | .null _ | .bool _ _ | .num _ _ | .str _ _ => none
  | .arr _ elements => skipElements elements
  | .obj _ members => skipMembers members
  | .broken _ skipping => some skipping

/-- The first fault in the way of going over the elements. -/
def skipElements : Elements → Option Stop
  | .close _ => none
  | .broken _ skipping => some skipping
  | .cons _ first rest => (skip first).or (skipElements rest)

/-- The first fault in the way of going over the members. -/
def skipMembers : Members → Option Stop
  | .close _ => none
  | .broken _ skipping => some skipping
  | .noColon _ _ colon => some colon
  | .cons _ _ value _ rest => (skip value).or (skipMembers rest)

end

/-- What stands in the way of ending an array here, and where. -/
def Elements.surplus : Elements → Option Stop
  | .close _ => none
  | .broken reading _ =>
      match reading.fault with
      | .endInList | .trailingComma => some reading
      | _ => some ⟨.trailingCharacters, reading.offset⟩
  | .cons start _ _ => some ⟨.trailingCharacters, start + 1⟩

end Located

/-! ## Lines and columns -/

/-- A place in a text: the line from one on, and the bytes before it on that line. -/
structure Position where
  line : Nat
  column : Nat
deriving DecidableEq, Repr

/-- Walk over the characters that end within the first bytes of a text. -/
def positionFrom : List Char → (bytes : Nat) → Position → Position
  | [], _, p => p
  | c :: rest, bytes, p =>
      if bytes < c.utf8Size then ⟨p.line, p.column + bytes⟩
      else if c = '\n' then positionFrom rest (bytes - 1) ⟨p.line + 1, 0⟩
      else positionFrom rest (bytes - c.utf8Size) ⟨p.line, p.column + c.utf8Size⟩

/-- The place after the first bytes of a text. -/
def positionAt (text : String) (bytes : Nat) : Position := positionFrom text.toList bytes ⟨1, 0⟩

end ManifestSchema
