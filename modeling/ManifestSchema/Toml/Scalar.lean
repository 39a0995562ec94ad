import ManifestSchema.Decimal
import ManifestSchema.Toml.Basic

/-!
# Scalars in TOML text

Strings in their four forms, numbers, and dates and times. A reader takes a scalar from the front of
a text and gives back what follows it; nothing is given back where no scalar stands.
-/

namespace ManifestSchema

namespace Toml

/-! ## Characters -/

/-- A character that stands for itself in comments and strings: a tab, or no control character. -/
def isPlain (c : Char) : Bool := c = '\t' || (32 ≤ c.toNat && c.toNat ≠ 127)

/-- A digit of a base. -/
def digitValue? (base : Nat) (c : Char) : Option Nat :=
  let value :=
    if c.isDigit then some (c.toNat - 48)
    else if 'a' ≤ c ∧ c ≤ 'f' then some (c.toNat - 87)
    else if 'A' ≤ c ∧ c ≤ 'F' then some (c.toNat - 55)
    else none
  value.filter (· < base)

/-- A blank inside a line. -/
def isBlank (c : Char) : Bool := c = ' ' || c = '\t'

/-- What follows the blanks at the front. -/
def dropBlanks (cs : List Char) : List Char := cs.dropWhile isBlank

/-- What follows a line end at the front. -/
def lineEnd? : List Char → Option (List Char)
  | '\n' :: rest => some rest
  | '\r' :: '\n' :: rest => some rest
  | _ => none

/-! ## Strings -/

/-- The character that a one-letter escape stands for. -/
def escape? : Char → Option Char
  | 'b' => some '\x08'
  | 't' => some '\t'
  | 'n' => some '\n'
  | 'f' => some '\x0c'
  | 'r' => some '\r'
  | '"' => some '"'
  | '\\' => some '\\'
  | _ => none

/-- The value of hexadecimal digits. -/
def hexValue? (digits : List Char) : Option Nat :=
  digits.foldlM (fun n c => (digitValue? 16 c).map (n * 16 + ·)) 0

/-- The character of a code of hexadecimal digits. -/
def codeChar? (digits : List Char) : Option Char :=
  (hexValue? digits).bind fun code => if code.isValidChar then some (Char.ofNat code) else none

/-- The escape behind a backslash. -/
def readEscape : List Char → Option (Char × List Char)
  | 'u' :: a :: b :: c :: d :: rest => (codeChar? [a, b, c, d]).map (·, rest)
  | 'U' :: a :: b :: c :: d :: e :: f :: g :: h :: rest =>
      (codeChar? [a, b, c, d, e, f, g, h]).map (·, rest)
  | x :: rest => (escape? x).map (·, rest)
  | [] => none

/-- Put a character in front of what else is read. -/
def prepend (c : Char) (r : Option (List Char × List Char)) : Option (List Char × List Char) :=
  r.map fun (cs, rest) => (c :: cs, rest)

/-- A string on one line, from behind its quote. -/
def readBasic : (steps : Nat) → List Char → Option (List Char × List Char)
  | 0, _ => none
  | _, '"' :: rest => some ([], rest)
  | steps + 1, '\\' :: rest => do
      let (c, rest) ← readEscape rest
      prepend c (readBasic steps rest)
  | steps + 1, c :: rest => if isPlain c then prepend c (readBasic steps rest) else none
  | _, [] => none

/-- A string on one line without escapes, from behind its quote. -/
def readLiteral : List Char → Option (List Char × List Char)
  | '\'' :: rest => some ([], rest)
  | c :: rest => if isPlain c then prepend c (readLiteral rest) else none
  | [] => none

/-- The end of a string over several lines, from its closing quotes: up to two more quotes in front
of the closing ones belong to it. -/
def closing (quote : Char) : List Char → Option (List Char × List Char)
  | a :: b :: c :: d :: e :: rest =>
      if a = quote ∧ b = quote ∧ c = quote then
        if d = quote then
          if e = quote then some ([quote, quote], rest) else some ([quote], e :: rest)
        else some ([], d :: e :: rest)
      else none
  | [a, b, c, d] =>
      if a = quote ∧ b = quote ∧ c = quote then
        if d = quote then some ([quote], []) else some ([], [d])
      else none
  | [a, b, c] => if a = quote ∧ b = quote ∧ c = quote then some ([], []) else none
  | _ => none

/-- What follows the blanks and line ends at the front. -/
def dropLines : (steps : Nat) → List Char → List Char
  | 0, cs => cs
  | steps + 1, c :: rest =>
      if isBlank c then dropLines steps rest
      else
        match lineEnd? (c :: rest) with
        | some rest => dropLines steps rest
        | none => c :: rest
  | _, [] => []

/-- What follows a backslash that ends its line: blanks, a line end, and all blank lines. -/
def continuation? (cs : List Char) : Option (List Char) :=
  (lineEnd? (dropBlanks cs)).map fun rest => dropLines rest.length rest

/-- A string over several lines, from behind its quotes and the line end that may follow them. -/
def readLines (quote : Char) (escapes : Bool) : (steps : Nat) → List Char →
    Option (List Char × List Char)
  | 0, _ => none
  | _, [] => none
  | steps + 1, c :: rest =>
      match closing quote (c :: rest) with
      | some done => some done
      | none =>
          if escapes && c = '\\' then
            match continuation? rest with
            | some rest => readLines quote escapes steps rest
            | none => do
                let (x, rest) ← readEscape rest
                prepend x (readLines quote escapes steps rest)
          else
            match lineEnd? (c :: rest) with
            | some rest => prepend '\n' (readLines quote escapes steps rest)
            | none =>
                if isPlain c then prepend c (readLines quote escapes steps rest) else none

/-- What follows a line end, if there is one. -/
def dropLineEnd (cs : List Char) : List Char := (lineEnd? cs).getD cs

/-- A string of any form. -/
def readString : List Char → Option (String × List Char)
  | '"' :: '"' :: '"' :: rest =>
      (readLines '"' true (rest.length + 1) (dropLineEnd rest)).map fun (s, r) =>
        (String.ofList s, r)
  | '\'' :: '\'' :: '\'' :: rest =>
      (readLines '\'' false (rest.length + 1) (dropLineEnd rest)).map fun (s, r) =>
        (String.ofList s, r)
  | '"' :: rest => (readBasic (rest.length + 1) rest).map fun (s, r) => (String.ofList s, r)
  | '\'' :: rest => (readLiteral rest).map fun (s, r) => (String.ofList s, r)
  | _ => none

/-! ## Numbers -/

/-- Digits of a base, between which single underscores may stand. -/
def readDigits (base : Nat) : List Char → List Char × List Char
  | [] => ([], [])
  | [c] => if (digitValue? base c).isSome then ([c], []) else ([], [c])
  | c :: d :: rest =>
      if (digitValue? base c).isSome then
        if d = '_' then
          match rest with
          | e :: _ =>
              if (digitValue? base e).isSome then
                let (digits, after) := readDigits base rest
                (c :: digits, after)
              else ([c], d :: rest)
          | [] => ([c], d :: rest)
        else
          let (digits, after) := readDigits base (d :: rest)
          (c :: digits, after)
      else ([], c :: d :: rest)

/-- The number that digits of a base show. -/
def digitsValue (base : Nat) (digits : List Char) : Nat :=
  digits.foldl (fun n c => n * base + (digitValue? base c).getD 0) 0

/-- An integer, if it fits 64 bits with sign. -/
def ofInteger (n : Int) : Option Toml :=
  if Word.fitsSigned n then some (.integer n) else none

/-- An integer of another base, from behind its mark. -/
def readBased (base : Nat) (cs : List Char) : Option (Toml × List Char) :=
  match readDigits base cs with
  | ([], _) => none
  | (digits, rest) => (ofInteger (digitsValue base digits)).map (·, rest)

/-- A sign and what follows it. -/
def readSign : List Char → Bool × List Char
  | '-' :: rest => (true, rest)
  | '+' :: rest => (false, rest)
  | rest => (false, rest)

/-- Decimal digits that start with no idle zero. -/
def readWhole : List Char → Option (List Char × List Char)
  | '0' :: rest => some (['0'], rest)
  | cs =>
      match readDigits 10 cs with
      | ([], _) => none
      | (digits, rest) => some (digits, rest)

/-- The digits behind a point. -/
def readPlaces : List Char → Option (List Char × List Char)
  | '.' :: rest =>
      match readDigits 10 rest with
      | ([], _) => none
      | (digits, rest) => some (digits, rest)
  | _ => none

/-- A power of ten: a mark, perhaps a sign, and digits. -/
def readPower : List Char → Option (Int × List Char)
  | e :: rest =>
      if e = 'e' ∨ e = 'E' then
        let (negative, rest) := readSign rest
        match readDigits 10 rest with
        | ([], _) => none
        | (digits, rest) =>
            let n : Int := digitsValue 10 digits
            some (if negative then -n else n, rest)
      else none
  | [] => none

/-- A float of a sign and a magnitude; too large a positive one is refused. -/
def ofFloat (negative : Bool) (x : Float) : Option Toml :=
  if negative then some (.float (-x)) else if x.isInf then none else some (.float x)

/-- A number that starts with its sign or a digit. -/
def readNumber (cs : List Char) : Option (Toml × List Char) :=
  match cs with
  | '0' :: 'x' :: rest => readBased 16 rest
  | '0' :: 'o' :: rest => readBased 8 rest
  | '0' :: 'b' :: rest => readBased 2 rest
  | _ =>
      let (negative, body) := readSign cs
      match body with
      | 'i' :: 'n' :: 'f' :: rest =>
          let x := Float.ofScientific 1 false 400
          some (.float (if negative then -x else x), rest)
      | 'n' :: 'a' :: 'n' :: rest => some (.float (0.0 / 0.0), rest)
      | _ =>
          match readWhole body with
          | none => none
          | some (whole, rest) =>
              let places := readPlaces rest
              let behind := (places.map Prod.snd).getD rest
              let power := readPower behind
              if places.isSome || power.isSome then
                let exponent := (power.map Prod.fst).getD 0
                let d := Decimal.ofParts whole ((places.map Prod.fst).getD []) exponent
                (ofFloat negative d.toFloat).map (·, (power.map Prod.snd).getD behind)
              else
                let n : Int := digitsValue 10 whole
                (ofInteger (if negative then -n else n)).map (·, rest)

/-! ## Dates and times -/

/-- Exactly so many digits, and the number that they show. -/
def readFixed (count : Nat) (cs : List Char) : Option (Nat × List Char) :=
  let digits := cs.take count
  if digits.length = count ∧ digits.all Char.isDigit then
    some (digitsValue 10 digits, cs.drop count)
  else none

/-- Two digits with a bound. -/
def readTwo (most : Nat) (cs : List Char) : Option (Nat × List Char) :=
  (readFixed 2 cs).filter fun r => r.1 ≤ most

/-- Go past a character. -/
def expect (c : Char) : List Char → Option (List Char)
  | x :: rest => if x = c then some rest else none
  | [] => none

/-- The number of days of a month. -/
def daysIn (year month : Nat) : Nat :=
  if month = 2 then
    if (year % 4 = 0 ∧ year % 100 ≠ 0) ∨ year % 400 = 0 then 29 else 28
  else if month = 4 ∨ month = 6 ∨ month = 9 ∨ month = 11 then 30
  else 31

/-- A number with two digits. -/
def twoDigits (n : Nat) : String := (if n < 10 then "0" else "") ++ toString n

/-- A number with four digits. -/
def fourDigits (n : Nat) : String :=
  String.ofList (List.replicate (4 - (toString n).length) '0') ++ toString n

/-- A date. -/
def readDate (cs : List Char) : Option (String × List Char) := do
  let (year, rest) ← readFixed 4 cs
  let (month, rest) ← readTwo 12 (← expect '-' rest)
  let (day, rest) ← readTwo 31 (← expect '-' rest)
  if month = 0 ∨ day = 0 ∨ daysIn year month < day then none
  else return (fourDigits year ++ "-" ++ twoDigits month ++ "-" ++ twoDigits day, rest)

/-- The fraction of a second, cut to nine digits and without zeros at its end. -/
def readSecondFraction (cs : List Char) : Option (String × List Char) :=
  match cs with
  | '.' :: rest =>
      let digits := rest.takeWhile Char.isDigit
      if digits.isEmpty then none
      else
        let kept := ((digits.take 9).reverse.dropWhile (· = '0')).reverse
        some (if kept.isEmpty then "" else "." ++ String.ofList kept, rest.drop digits.length)
  | _ => some ("", cs)

/-- A time of the day. -/
def readTime (cs : List Char) : Option (String × List Char) := do
  let (hour, rest) ← readTwo 23 cs
  let (minute, rest) ← readTwo 59 (← expect ':' rest)
  let (second, rest) ← readTwo 60 (← expect ':' rest)
  let (fraction, rest) ← readSecondFraction rest
  return (twoDigits hour ++ ":" ++ twoDigits minute ++ ":" ++ twoDigits second ++ fraction, rest)

/-- The distance of a time from universal time, if there is one. -/
def readOffset (cs : List Char) : Option (String × List Char) :=
  match cs with
  | 'Z' :: rest => some ("Z", rest)
  | 'z' :: rest => some ("Z", rest)
  | s :: rest =>
      if s = '+' ∨ s = '-' then do
        let (hour, rest) ← readTwo 23 rest
        let (minute, rest) ← readTwo 59 (← expect ':' rest)
        let sign := if s = '-' ∧ (hour ≠ 0 ∨ minute ≠ 0) then "-" else "+"
        return (sign ++ twoDigits hour ++ ":" ++ twoDigits minute, rest)
      else some ("", s :: rest)
  | [] => some ("", [])

/-- A date, a time, or a date with a time and perhaps an offset. -/
def readDatetime (cs : List Char) : Option (Toml × List Char) :=
  match readDate cs with
  | none => (readTime cs).map fun (text, rest) => (.datetime text, rest)
  | some (date, rest) =>
      match rest with
      | d :: behind =>
          if d = 'T' ∨ d = 't' ∨ d = ' ' then
            match readTime behind with
            | some (time, rest) =>
                (readOffset rest).map fun (offset, rest) =>
                  (.datetime (date ++ "T" ++ time ++ offset), rest)
            | none => if d = ' ' then some (.datetime date, rest) else none
          else some (.datetime date, rest)
      | [] => some (.datetime date, [])

end Toml

end ManifestSchema
