/-!
# Shortest decimal text of a binary64 value

A finite binary64 value is `m · 2 ^ q`. Of the decimals that round back to it, the printed one has
the fewest digits and, among those, lies nearest. `Decimal.shortest` finds it in exact arithmetic:
for 1, 2, …, 17 digits it tries the two neighbours of the value on that decimal grid. How the digits
are laid out is a `Decimal.Layout`.
-/

namespace ManifestSchema

/-!
## Machine words

The bounds of the integers that files and options can hold: 64 bits with or without sign, and 32
bits with sign for exponents.
-/

namespace Word

/-- Unsigned integers of 64 bits are below `2 ^ 64`. -/
def limit : Nat := 0x10000000000000000

/-- Integers of 64 bits with sign are below `2 ^ 63`, and at least its negative. -/
def signedLimit : Nat := 0x8000000000000000

/-- Integers of 32 bits with sign are below `2 ^ 31`, and at least its negative. -/
def shortLimit : Nat := 0x80000000

/-- Whether an integer fits 64 bits with sign. -/
def fitsSigned (n : Int) : Bool := -(signedLimit : Int) ≤ n && n < signedLimit

/-- An integer of 64 bits with sign that leaves the same remainder by `2 ^ 64`: what overflows comes
back in at the other end. -/
def wrapSigned (n : Int) : Int := n.bmod limit

/-- The nearest integer that fits 32 bits with sign. -/
def clampShort (n : Int) : Int := max (-(shortLimit : Int)) (min ((shortLimit : Int) - 1) n)

end Word

/-! ## Decimals -/

/-- The non-negative decimal `digits · 10 ^ exponent`. -/
structure Decimal where
  digits : Nat
  exponent : Int
deriving DecidableEq, Repr

namespace Decimal

/-! ## Digits -/

/-- A finite binary64 magnitude `mantissa · 2 ^ exponent`; `narrow` says that the gap below it is
half the gap above it, which happens at powers of two. -/
structure Binary where
  mantissa : Nat
  exponent : Int
  narrow : Bool

/-- The bits of the fraction count below `2 ^ 52`. -/
def Binary.fractionLimit : Nat := 0x10000000000000

/-- The magnitude of a finite value, from its 64 bits: the fraction is in the lowest 52 of them, and
the exponent in the 11 above. -/
def Binary.ofBits (bits : UInt64) : Binary :=
  let biased : Nat := (bits.toNat / fractionLimit) % 0x800
  let fraction : Nat := bits.toNat % fractionLimit
  if biased = 0 then ⟨fraction, -1074, false⟩
  else ⟨fraction + fractionLimit, (biased : Int) - 1075, decide (fraction = 0 ∧ 1 < biased)⟩

/-- The power of ten just above a positive ratio: `10 ^ (k - 1) ≤ num / den < 10 ^ k`. -/
def magnitude (num den : Nat) : Int :=
  if den ≤ num then (Nat.toDigits 10 (num / den)).length
  else 1 - ((Nat.toDigits 10 ((den - 1) / num)).length : Int)

/-- The grid point with spacing `10 ^ e` that rounds back to the magnitude, if one of the two
neighbours does: the nearer one, and the even one when both are equally near. -/
def onGrid (b : Binary) (e : Int) : Option Nat :=
  let unit := b.exponent - 2
  let scale := Nat.pow 2 unit.toNat * Nat.pow 10 (-e).toNat
  let den := Nat.pow 2 (-unit).toNat * Nat.pow 10 e.toNat
  let value := 4 * b.mantissa * scale
  let low := (4 * b.mantissa - (if b.narrow then 1 else 2)) * scale
  let high := (4 * b.mantissa + 2) * scale
  let closed := b.mantissa % 2 = 0
  let inside := fun (c : Nat) =>
    if closed then low ≤ c * den && c * den ≤ high else low < c * den && c * den < high
  let below := value / den
  let above := below + 1
  match inside below, inside above with
  | true, true =>
      let down := value - below * den
      let up := above * den - value
      some (if down < up then below
        else if up < down then above
        else if below % 2 = 0 then below else above)
  | true, false => some below
  | false, true => some above
  | false, false => none

/-- Try grids with ever more digits, `tries` of them. -/
def firstGrid (b : Binary) : (tries : Nat) → (e : Int) → Decimal
  | 0, e => ⟨0, e⟩
  | tries + 1, e =>
      match onGrid b e with
      | some digits => ⟨digits, e⟩
      | none => firstGrid b tries (e - 1)

/-- Drop zeros at the end of the digits, `most` of them at the most. -/
def trim : (most : Nat) → Decimal → Decimal
  | 0, d => d
  | most + 1, d =>
      if d.digits ≠ 0 ∧ d.digits % 10 = 0 then trim most ⟨d.digits / 10, d.exponent + 1⟩ else d

/-- The shortest decimal that rounds back to a magnitude, the nearest one of that length. -/
def shortest (b : Binary) : Decimal :=
  if b.mantissa = 0 then ⟨0, 0⟩
  else
    let num := b.mantissa * Nat.pow 2 b.exponent.toNat
    let den := Nat.pow 2 (-b.exponent).toNat
    trim 17 (firstGrid b 17 (magnitude num den - 1))

/-! ## Layout -/

/-- How a decimal is laid out. -/
structure Layout where
  /-- The exponents of the leading digit that are written out positionally, from the first up to
  but not including the second; without bounds all are. -/
  positional : Option (Int × Int)
  /-- Whether a positional integer ends in `.0`. -/
  wholePoint : Bool
  /-- Whether a non-negative exponent has a plus sign. -/
  plus : Bool

/-- Digits with a point so that `exponent` is the power of ten of the last digit. -/
def positionalText (wholePoint : Bool) (digits : String) (exponent : Int) : String :=
  if 0 ≤ exponent then
    let zeros := String.ofList (List.replicate exponent.toNat '0')
    digits ++ zeros ++ (if wholePoint then ".0" else "")
  else
    let places := (-exponent).toNat
    let padded := List.replicate (places + 1 - digits.length) '0' ++ digits.toList
    let whole := padded.length - places
    String.ofList (padded.take whole) ++ "." ++ String.ofList (padded.drop whole)

/-- One digit, the others behind a point, and the exponent of the first digit. -/
def scientificText (plus : Bool) (digits : String) (leading : Int) : String :=
  let point := if digits.length = 1 then "" else "."
  let sign := if leading < 0 then "-" else if plus then "+" else ""
  String.ofList (digits.toList.take 1) ++ point ++ String.ofList (digits.toList.drop 1) ++
    "e" ++ sign ++ toString leading.natAbs

/-- The text of a decimal. -/
def text (layout : Layout) (d : Decimal) : String :=
  let digits := toString d.digits
  let leading := d.exponent + digits.length - 1
  let inBounds := match layout.positional with
    | none => true
    | some (low, high) => d.digits = 0 || (low ≤ leading && leading < high)
  if inBounds then positionalText layout.wholePoint digits d.exponent
  else scientificText layout.plus digits leading

/-- The text of a binary64 value; a value that is no finite number is spelled out. -/
def floatText (layout : Layout) (x : Float) : String :=
  if x.isNaN then "NaN"
  else
    let sign := if x.toBits ≥ 0x8000000000000000 then "-" else ""
    if x.isInf then sign ++ "inf"
    else sign ++ text layout (shortest (Binary.ofBits x.toBits))

/-- Floats in JSON: positional from `1e-5` up to `1e16`, always with a point or an exponent. -/
def jsonLayout : Layout := ⟨some (-5, 16), true, true⟩

/-- Floats turned into plain text: never an exponent, and no point on a whole number. -/
def plainLayout : Layout := ⟨none, false, false⟩

/-- Floats in messages: like plain text, but with a point on a whole number. -/
def messageLayout : Layout := ⟨none, true, false⟩

/-! ## Nearest value -/

/-- The binary64 value nearest to a decimal. Decimals from `10 ^ 310` on are infinite and those
below `10 ^ -330` are zero, whatever their digits. -/
def toFloat (d : Decimal) : Float :=
  let leading := d.exponent + (toString d.digits).length
  if d.digits = 0 || leading < -330 then 0.0
  else if 310 < leading then Float.ofScientific 1 false 400
  else Float.ofScientific d.digits (d.exponent < 0) d.exponent.natAbs

/-- The number that digits show. -/
def ofDigits (digits : List Char) : Nat := digits.foldl (fun n c => n * 10 + (c.toNat - 48)) 0

/-- The decimal of digits before and behind a point, times a power of ten. -/
def ofParts (whole places : List Char) (exponent : Int) : Decimal :=
  ⟨ofDigits (whole ++ places), exponent - places.length⟩

/-- The unsigned integer of 64 bits that a text shows. -/
def natural? (text : String) : Option Nat :=
  let digits := match text.toList with
    | '+' :: rest => rest
    | cs => cs
  if !digits.isEmpty && digits.all Char.isDigit && ofDigits digits < Word.limit then
    some (ofDigits digits)
  else none

end Decimal

end ManifestSchema
