/-!
# Tolerant decoding of UTF-8

Reads bytes as UTF-8 and drops what is ill-formed: the longest start of a well-formed sequence that
cannot go on is dropped as a whole, and the byte that broke it is looked at again. Overlong forms,
surrogates and code points above `10FFFF` are ill-formed by their first two bytes.
-/

namespace Chip8.Utf8

/-- How a character of more than one byte begins: the bits its first byte gives, the bounds of the
second byte, and how many bytes follow the second. -/
structure Lead where
  bits : Nat
  low : Nat
  high : Nat
  more : Nat
  deriving Repr, DecidableEq

/-- The beginning that a byte is, if it is one. -/
def lead? (b : Nat) : Option Lead :=
  if b < 0xC2 then none
  else if b < 0xE0 then some ⟨b - 0xC0, 0x80, 0xBF, 0⟩
  else if b = 0xE0 then some ⟨0, 0xA0, 0xBF, 1⟩
  else if b = 0xED then some ⟨0xD, 0x80, 0x9F, 1⟩
  else if b < 0xF0 then some ⟨b - 0xE0, 0x80, 0xBF, 1⟩
  else if b = 0xF0 then some ⟨0, 0x90, 0xBF, 2⟩
  else if b < 0xF4 then some ⟨b - 0xF0, 0x80, 0xBF, 2⟩
  else if b = 0xF4 then some ⟨4, 0x80, 0x8F, 2⟩
  else none

/-- A character that has begun: the bits so far, the bounds of the next byte, and how many bytes
come after that one. -/
abbrev Pending := Option Lead

/-- Decodes bytes after the beginning of a character, if one is pending. -/
def decodeFrom : Pending → List UInt8 → List Char
  | _, [] => []
  | none, b :: rest =>
    let v := b.toNat
    if v < 0x80 then Char.ofNat v :: decodeFrom none rest
    else decodeFrom (lead? v) rest
  | some p, b :: rest =>
    let v := b.toNat
    if p.low ≤ v ∧ v ≤ p.high then
      let bits := p.bits * 64 + (v - 0x80)
      match p.more with
      | 0 => Char.ofNat bits :: decodeFrom none rest
      | more + 1 => decodeFrom (some ⟨bits, 0x80, 0xBF, more⟩) rest
    else if v < 0x80 then Char.ofNat v :: decodeFrom none rest
    else decodeFrom (lead? v) rest

/-- The characters of the well-formed parts of some bytes. -/
def decode (bytes : List UInt8) : List Char := decodeFrom none bytes

end Chip8.Utf8
