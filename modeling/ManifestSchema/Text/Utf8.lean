/-!
# Text in bytes

Bytes are cut into the characters that they encode in UTF-8 and into malformed parts, each as long
as a start of some character goes. Bytes without a malformed part are text; otherwise they can still
be shown, with a replacement character for each such part.
-/

namespace ManifestSchema

namespace Utf8

/-- The number of bytes after the first one of a character, the bounds of the second byte, and the
bits that the first byte contributes. -/
structure Lead where
  more : Nat
  low : Nat
  high : Nat
  bits : Nat

/-- What a first byte says about its character, unless no character starts with it. -/
def lead? (b : Nat) : Option Lead :=
  if b < 0x80 then some ⟨0, 0, 0, b⟩
  else if b < 0xC2 then none
  else if b < 0xE0 then some ⟨1, 0x80, 0xBF, b - 0xC0⟩
  else if b < 0xF0 then
    some ⟨2, if b = 0xE0 then 0xA0 else 0x80, if b = 0xED then 0x9F else 0xBF, b - 0xE0⟩
  else if b < 0xF5 then
    some ⟨3, if b = 0xF0 then 0x90 else 0x80, if b = 0xF4 then 0x8F else 0xBF, b - 0xF0⟩
  else none

/-- A character of which the first bytes have been read. -/
structure Open where
  more : Nat
  low : Nat
  high : Nat
  bits : Nat

/-- The parts of some bytes behind an open character: characters, and `none` for malformed parts. -/
def parts : (state : Option Open) → List UInt8 → List (Option Char)
  | none, [] => []
  | some _, [] => [none]
  | none, b :: rest => start b rest
  | some o, b :: rest =>
      let n := b.toNat
      if o.low ≤ n ∧ n ≤ o.high then
        let bits := o.bits * 64 + (n - 0x80)
        if o.more = 1 then some (Char.ofNat bits) :: parts none rest
        else parts (some ⟨o.more - 1, 0x80, 0xBF, bits⟩) rest
      else none :: start b rest
where
  /-- The parts of some bytes, the first of which starts a character. -/
  start (b : UInt8) (rest : List UInt8) : List (Option Char) :=
    match lead? b.toNat with
    | none => none :: parts none rest
    | some l =>
        if l.more = 0 then some (Char.ofNat l.bits) :: parts none rest
        else parts (some ⟨l.more, l.low, l.high, l.bits⟩) rest

/-- The text that some bytes encode, unless a part of them is malformed. -/
def decode? (bytes : List UInt8) : Option String := ((parts none bytes).mapM id).map String.ofList

/-- The text of some bytes with a replacement character for each malformed part. -/
def decodeLossy (bytes : List UInt8) : String :=
  String.ofList ((parts none bytes).map (·.getD '\uFFFD'))

end Utf8

end ManifestSchema
