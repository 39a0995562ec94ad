import ManifestSchema.Json.Located.Number

/-!
# Reading JSON text

`Located.ofText` turns any text into a located tree of its first value; text after that value is not
looked at. Offsets count bytes of the text. A fault at an unexpected character counts its first byte
in; one at the end of the text lies after the last byte.
-/

namespace ManifestSchema

/-- The rest of a text and the number of bytes before it. -/
structure Cursor where
  rest : List Char
  offset : Nat

namespace Cursor

/-- The number of bytes of some characters. -/
def bytes (cs : List Char) : Nat := cs.foldl (fun n c => n + c.utf8Size) 0

/-- Go past leading blanks. -/
def skipBlanks : List Char → Nat → Cursor
  | [], n => ⟨[], n⟩
  | c :: rest, n =>
      if c = ' ' ∨ c = '\n' ∨ c = '\t' ∨ c = '\r' then skipBlanks rest (n + 1) else ⟨c :: rest, n⟩

/-- Go to the next character that is no blank. -/
def next (c : Cursor) : Cursor := skipBlanks c.rest c.offset

/-- Go past the first character. -/
def tail (c : Cursor) : Cursor :=
  match c.rest with
  | [] => c
  | x :: rest => ⟨rest, c.offset + x.utf8Size⟩

/-- A fault at the first character, or at the end of the text. -/
def fault (c : Cursor) (f : Fault) : Stop := ⟨f, if c.rest.isEmpty then c.offset else c.offset + 1⟩

/-- The leading digits and what follows them. -/
def digits (c : Cursor) : List Nat × Cursor :=
  let taken := c.rest.takeWhile Char.isDigit
  (taken.map fun d => d.toNat - 48, ⟨c.rest.drop taken.length, c.offset + taken.length⟩)

end Cursor

namespace Located

/-! ## Words and numbers -/

/-- Read the remaining letters of a literal. -/
def readWord (value : Nat → Located) : (letters : List Char) → Cursor → Located × Cursor
  | [], c => (value c.offset, c)
  | l :: more, c =>
      match c.rest with
      | [] => (.broken (c.fault .endInValue) (c.fault .endInValue), c)
      | x :: _ =>
          if x = l then readWord value more c.tail
          else (.broken (c.fault .expectedIdent) (c.fault .expectedIdent), c)

/-- A number whose text ends too early or goes on wrongly at the cursor: `whenOver` is the fault of
a reader at the end of the text. -/
def badNumber (c : Cursor) (whenOver : Fault) : Located × Cursor :=
  let reading := if c.rest.isEmpty then c.fault whenOver else c.fault .invalidNumber
  (.broken reading (c.fault .invalidNumber), c)

/-- The finished number, whose text ends at the cursor. -/
def numberNode (t : NumberText) (exponentStart : Nat) (c : Cursor) : Located × Cursor :=
  match t.value with
  | .ok n => (.num (.ok n) c.offset, c)
  | .error read =>
      let offset := if t.exponent.isSome then exponentStart + read else c.offset
      (.num (.error ⟨.numberOutOfRange, offset⟩) c.offset, c)

/-- Read the exponent, if there is one, and finish the number. -/
def readExponent (negative : Bool) (whole : List Nat) (fraction : Option (List Nat)) (c : Cursor) :
    Located × Cursor :=
  match c.rest with
  | x :: after =>
      if x = 'e' ∨ x = 'E' then
        let below := after.head? = some '-'
        let signed := after.head? = some '-' ∨ after.head? = some '+'
        let start := if signed then c.tail.tail else c.tail
        let (digits, past) := start.digits
        if digits.isEmpty then badNumber start .endInValue
        else numberNode ⟨negative, whole, fraction, some (below, digits)⟩ start.offset past
      else numberNode ⟨negative, whole, fraction, none⟩ 0 c
  | [] => numberNode ⟨negative, whole, fraction, none⟩ 0 c

/-- Read a number; the cursor stands at its sign or first digit. -/
def readNumber (c : Cursor) : Located × Cursor :=
  let negative : Bool := c.rest.head? = some '-'
  let start := if negative then c.tail else c
  let (whole, past) := start.digits
  match whole with
  | [] => badNumber start .endInValue
  | 0 :: _ :: _ => badNumber start.tail .invalidNumber
  | _ =>
      match past.rest with
      | '.' :: _ =>
          let (fraction, rest) := past.tail.digits
          if fraction.isEmpty then badNumber past.tail .endInValue
          else readExponent negative whole (some fraction) rest
      | _ => readExponent negative whole none past

/-! ## Strings -/

/-- A string as far as it has been scanned: its characters in reverse, an unpaired high surrogate
that was just read, and the first fault that only a reader minds. -/
structure Scan where
  text : List Char
  pending : Option Nat
  soft : Option Stop

namespace Scan

/-- Record a fault that only a reader minds; the first one stays. -/
def blame (s : Scan) (stop : Stop) : Scan :=
  { s with pending := none, soft := s.soft.or (some stop) }

/-- Add a character that stands for itself; `offset` is where the character starts. -/
def push (s : Scan) (c : Char) (offset : Nat) : Scan :=
  match s.pending with
  | some _ => s.blame ⟨.unexpectedEndOfHexEscape, offset + 1⟩
  | none => { s with text := c :: s.text }

/-- Add an escape other than a code; `offset` is where its backslash stands. -/
def pushEscape (s : Scan) (c : Char) (offset : Nat) : Scan :=
  match s.pending with
  | some _ => s.blame ⟨.unexpectedEndOfHexEscape, offset + 2⟩
  | none => { s with text := c :: s.text }

/-- Add an escaped 16-bit code; `stop` is the offset after it. -/
def pushCode (s : Scan) (code stop : Nat) : Scan :=
  match s.pending with
  | some high =>
      if 0xDC00 ≤ code ∧ code ≤ 0xDFFF then
        let point := 0x10000 + (high - 0xD800) * 0x400 + (code - 0xDC00)
        { s with text := Char.ofNat point :: s.text, pending := none }
      else s.blame ⟨.loneSurrogate, stop⟩
  | none =>
      if 0xDC00 ≤ code ∧ code ≤ 0xDFFF then s.blame ⟨.loneSurrogate, stop⟩
      else if 0xD800 ≤ code ∧ code ≤ 0xDBFF then { s with pending := some code }
      else { s with text := Char.ofNat code :: s.text }

/-- The text, or the fault that a reader minds. -/
def result (s : Scan) : Except Stop String :=
  match s.soft with
  | some stop => .error stop
  | none => .ok (String.ofList s.text.reverse)

end Scan

/-- The character that a one-letter escape stands for. -/
def simpleEscape? : Char → Option Char
  | '"' => some '"'
  | '\\' => some '\\'
  | '/' => some '/'
  | 'b' => some '\x08'
  | 'f' => some '\x0c'
  | 'n' => some '\n'
  | 'r' => some '\r'
  | 't' => some '\t'
  | _ => none

/-- The value of a hexadecimal digit. -/
def hexValue? (c : Char) : Option Nat :=
  if c.isDigit then some (c.toNat - 48)
  else if 'a' ≤ c ∧ c ≤ 'f' then some (c.toNat - 87)
  else if 'A' ≤ c ∧ c ≤ 'F' then some (c.toNat - 55)
  else none

/-- The value of four hexadecimal digits. -/
def hexCode? (a b c d : Char) : Option Nat := do
  return (((← hexValue? a) * 16 + (← hexValue? b)) * 16 + (← hexValue? c)) * 16 + (← hexValue? d)

/-- How a string ended: its content for a reader and the cursor after it, or a fault for a reader
and for a skipper. -/
inductive StringEnd
  | closed (content : Except Stop String) (past : Cursor)
  | broken (reading skipping : Stop)

/-- A fault that both mind, unless a reader has stopped before. -/
def StringEnd.fail (s : Scan) (stop : Stop) : StringEnd := .broken (s.soft.getD stop) stop

/-- Scan a string from inside its quotes. -/
def scanString : List Char → (offset : Nat) → Scan → StringEnd
  | [], n, s => .fail s ⟨.endInString, n⟩
  | '"' :: rest, n, s =>
      let closed := match s.pending with
        | some _ => s.blame ⟨.unexpectedEndOfHexEscape, n + 1⟩
        | none => s
      .closed closed.result ⟨rest, n + 1⟩
  | ['\\'], n, s => .fail s ⟨.endInString, n + 1⟩
  | '\\' :: 'u' :: a :: b :: c :: d :: rest, n, s =>
      match hexCode? a b c d with
      | some code => scanString rest (n + 6) (s.pushCode code (n + 6))
      | none => .fail s ⟨.invalidEscape, n + 6⟩
  | '\\' :: x :: rest, n, s =>
      if x = 'u' then
        let left := Cursor.bytes rest
        if left < 4 then .fail s ⟨.endInString, n + 2 + left⟩
        else .fail s ⟨.invalidEscape, n + 6⟩
      else
        match simpleEscape? x with
        | some c => scanString rest (n + 2) (s.pushEscape c n)
        | none =>
            let s := if s.pending.isSome then s.blame ⟨.unexpectedEndOfHexEscape, n + 2⟩ else s
            .fail s ⟨.invalidEscape, n + 2⟩
  | x :: rest, n, s =>
      if x.toNat < 32 then
        let s := if s.pending.isSome then s.blame ⟨.unexpectedEndOfHexEscape, n + 1⟩ else s
        .broken (s.soft.getD ⟨.controlCharacter, n + 1⟩) ⟨.controlCharacter, n⟩
      else scanString rest (n + x.utf8Size) (s.push x n)

/-- Read a string from after its opening quote. -/
def readString (c : Cursor) : StringEnd := scanString c.rest c.offset ⟨[], none, none⟩

/-! ## Values -/

/-- Where a reader that gives up before the next character resumes: past it if it closes an
object. -/
def resume (c : Cursor) : Nat :=
  let c := c.next
  if c.rest.head? = some '\x7d' then c.offset + 1 else c.offset

mutual

/-- Read the value at the cursor. -/
def readValue : (fuel : Nat) → Cursor → Located × Cursor
  | 0, c => (.broken (c.fault .endInValue) (c.fault .endInValue), c)
  | fuel + 1, c =>
      match c.rest with
      | [] => (.broken (c.fault .endInValue) (c.fault .endInValue), c)
      | x :: _ =>
          if x = 'n' then readWord .null ['u', 'l', 'l'] c.tail
          else if x = 't' then readWord (.bool true) ['r', 'u', 'e'] c.tail
          else if x = 'f' then readWord (.bool false) ['a', 'l', 's', 'e'] c.tail
          else if x = '-' ∨ x.isDigit then readNumber c
          else if x = '"' then
            match readString c.tail with
            | .closed content past => (.str content past.offset, past)
            | .broken reading skipping => (.broken reading skipping, c)
          else if x = '[' then
            let (elements, past) := readElements fuel true c.tail.next
            (.arr c.offset elements, past)
          else if x = '\x7b' then
            let (members, past) := readMembers fuel true c.tail.next
            (.obj c.offset members, past)
          else (.broken (c.fault .expectedValue) (c.fault .expectedValue), c)

/-- Read the elements of an array up to its bracket; `first` says that none has been read yet. -/
def readElements : (fuel : Nat) → (first : Bool) → Cursor → Elements × Cursor
  | 0, _, c => (.broken (c.fault .endInList) (c.fault .endInList), c)
  | fuel + 1, first, c =>
      match c.rest with
      | [] => (.broken (c.fault .endInList) (c.fault .endInList), c)
      | ']' :: _ => (.close (c.offset + 1), c.tail)
      | x :: _ =>
          if first then readElement fuel c
          else if x = ',' then
            let c := c.tail.next
            match c.rest with
            | [] => (.broken (c.fault .endInValue) (c.fault .endInValue), c)
            | ']' :: _ => (.broken (c.fault .trailingComma) (c.fault .expectedValue), c)
            | _ => readElement fuel c
          else (.broken (c.fault .expectedCommaOrBracket) (c.fault .expectedCommaOrBracket), c)

/-- Read an element and those after it. -/
def readElement : (fuel : Nat) → Cursor → Elements × Cursor
  | 0, c => (.broken (c.fault .endInList) (c.fault .endInList), c)
  | fuel + 1, c =>
      let (value, past) := readValue fuel c
      match value with
      | .broken reading skipping => (.cons c.offset value (.broken reading skipping), past)
      | _ =>
          let (rest, past) := readElements fuel false past.next
          (.cons c.offset value rest, past)

/-- Read the members of an object up to its brace; `first` says that none has been read yet. -/
def readMembers : (fuel : Nat) → (first : Bool) → Cursor → Members × Cursor
  | 0, _, c => (.broken (c.fault .endInObject) (c.fault .endInObject), c)
  | fuel + 1, first, c =>
      match c.rest with
      | [] => (.broken (c.fault .endInObject) (c.fault .endInObject), c)
      | '\x7d' :: _ => (.close (c.offset + 1), c.tail)
      | x :: _ =>
          if first then
            if x = '"' then readMember fuel c
            else (.broken (c.fault .keyNotString) (c.fault .keyNotString), c)
          else if x = ',' then
            let c := c.tail.next
            match c.rest with
            | [] => (.broken (c.fault .endInValue) (c.fault .endInObject), c)
            | '"' :: _ => readMember fuel c
            | '\x7d' :: _ => (.broken (c.fault .trailingComma) (c.fault .keyNotString), c)
            | _ => (.broken (c.fault .keyNotString) (c.fault .keyNotString), c)
          else (.broken (c.fault .expectedCommaOrBrace) (c.fault .expectedCommaOrBrace), c)

/-- Read a member and those after it; the cursor stands at the quote of the key. -/
def readMember : (fuel : Nat) → Cursor → Members × Cursor
  | 0, c => (.broken (c.fault .endInObject) (c.fault .endInObject), c)
  | fuel + 1, c =>
      match readString c.tail with
      | .broken reading skipping => (.broken reading skipping, c)
      | .closed key past =>
          let afterKey := resume past
          let c := past.next
          match c.rest with
          | [] => (.noColon key afterKey (c.fault .endInObject), c)
          | ':' :: _ =>
              let (value, past) := readValue fuel c.tail.next
              match value with
              | .broken reading skipping =>
                  (.cons key afterKey value past.offset (.broken reading skipping), past)
              | _ =>
                  let (rest, last) := readMembers fuel false past.next
                  (.cons key afterKey value (resume past) rest, last)
          | _ => (.noColon key afterKey (c.fault .expectedColon), c)

end

/-- The located tree of the first value of a text. Each of the reader's steps uses up a character or
ends it, and no more than three steps are taken at one character. -/
def ofText (text : String) : Located :=
  (readValue (3 * text.length + 3) (Cursor.next ⟨text.toList, 0⟩)).1

/-- Whether nothing but blanks follows the first value of a text. -/
def isWhole (text : String) : Bool :=
  (readValue (3 * text.length + 3) (Cursor.next ⟨text.toList, 0⟩)).2.next.rest.isEmpty

end Located

end ManifestSchema
