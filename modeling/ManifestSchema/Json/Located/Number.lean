import ManifestSchema.Json.Located
import ManifestSchema.Decimal

/-!
# Numbers in JSON text

A number without fraction and exponent that fits 64 bits is an integer; only `-0` is not. Any other
number becomes a binary64 value in three steps that round separately: as many digits as fit an
unsigned 64-bit integer are taken, that integer is converted, and the result is multiplied or
divided by a power of ten. Too large a result is refused, too small a one is zero.
-/

namespace ManifestSchema

/-- The parts of a number as written. -/
structure NumberText where
  negative : Bool
  whole : List Nat
  fraction : Option (List Nat)
  exponent : Option (Bool × List Nat)

namespace NumberText

/-- Take digits into an integer while it stays within 64 bits; the others are left. -/
def gather : (value : Nat) → List Nat → Nat × List Nat
  | value, [] => (value, [])
  | value, d :: rest =>
      if Word.limit ≤ value * 10 + d then (value, d :: rest) else gather (value * 10 + d) rest

/-- Multiply or divide by a power of ten, in steps of `10 ^ 308` while the exponent is below what
one division reaches; `none` is a result that is too large. -/
def scale : (steps : Nat) → Float → Int → Option Float
  | 0, f, _ => some f
  | steps + 1, f, e =>
      if e.natAbs ≤ 308 then
        if 0 ≤ e then
          let g := f * Float.ofScientific 1 false e.natAbs
          if g.isInf then none else some g
        else some (f / Float.ofScientific 1 false e.natAbs)
      else if f == 0 then some f
      else if 0 ≤ e then none
      else scale steps (f / Float.ofScientific 1 false 308) (e + 308)

/-- The value of an integer of 64 bits times a power of ten. -/
def assemble (negative : Bool) (significand : Nat) (exponent : Int) : Option Float :=
  (scale 6 significand.toUInt64.toFloat exponent).map fun f => if negative then -f else f

/-- Take the digits of an exponent; the number of digits up to the first one that makes it too large
comes back instead, when there is one. -/
def gatherExponent : (value taken : Nat) → List Nat → Except Nat Nat
  | value, _, [] => .ok value
  | value, taken, d :: rest =>
      if Word.shortLimit ≤ value * 10 + d then .error (taken + 1)
      else gatherExponent (value * 10 + d) (taken + 1) rest

/-- The number that was written, or how many digits of the exponent were read before it turned out
too large; all of them when it is the result that is too large. -/
def value (t : NumberText) : Except Nat Number :=
  let (whole, cut) := gather 0 t.whole
  let zero : Float := if t.negative then -0.0 else 0.0
  match t.fraction, t.exponent with
  | none, none =>
      if cut.isEmpty then
        if t.negative then
          if whole = 0 ∨ Word.signedLimit < whole then
            .ok (.float (-(whole.toUInt64.toFloat)))
          else .ok (.int (-(whole : Int)))
        else .ok (.int whole)
      else
        match assemble t.negative whole cut.length with
        | some f => .ok (.float f)
        | none => .error 0
  | fraction, exponent =>
      let places := fraction.getD []
      let (significand, dropped) := gather whole places
      let start : Int := (cut.length : Int) - (places.length - dropped.length : Nat)
      match exponent with
      | none =>
          match assemble t.negative significand start with
          | some f => .ok (.float f)
          | none => .error 0
      | some (below, digits) =>
          match gatherExponent 0 0 digits with
          | .error read =>
              if significand ≠ 0 ∧ ¬below then .error read else .ok (.float zero)
          | .ok e =>
              let shifted := Word.clampShort (if below then start - e else start + e)
              match assemble t.negative significand shifted with
              | some f => .ok (.float f)
              | none => .error digits.length

end NumberText

end ManifestSchema
