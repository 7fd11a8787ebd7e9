/-!
# Operations

The thirty-five operations of the machine, their mnemonics, and the opcode table: for each
operation the four hexadecimal digits of its instruction words, each a fixed digit or an operand.
-/

-- powers are those of the number types themselves
attribute [local instance (high)] instPowNat

namespace Chip8

/-- The register-register operations, `8xy0` to `8xyE`. -/
inductive Alu where
  | copy
  | or
  | and
  | xor
  | add
  | sub
  | shiftRight
  | subFrom
  | shiftLeft
  deriving Repr, DecidableEq

/-- What an instruction does. -/
inductive Operation where
  /-- Nothing. -/
  | nop
  /-- Unlights the display. -/
  | clearScreen
  /-- Returns from a call. -/
  | ret
  /-- Jumps to `nnn`. -/
  | jump
  /-- Calls `nnn`. -/
  | call
  /-- Skips if `Vx = kk`. -/
  | skipIfByte
  /-- Skips if `Vx ≠ kk`. -/
  | skipUnlessByte
  /-- Skips if `Vx = Vy`. -/
  | skipIfEqual
  /-- Skips if `Vx ≠ Vy`. -/
  | skipUnlessEqual
  /-- `Vx := kk`. -/
  | loadByte
  /-- `Vx := Vx + kk`, without a carry. -/
  | addByte
  /-- A register-register operation on `Vx` and `Vy`. -/
  | alu (op : Alu)
  /-- `I := nnn`. -/
  | loadIndex
  /-- Jumps to `nnn + V0`. -/
  | jumpOffset
  /-- `Vx :=` a random byte, masked by `kk`. -/
  | random
  /-- Draws `n` rows from `I` at `(Vx, Vy)`. -/
  | draw
  /-- Skips if the key `Vx` is down. -/
  | skipIfKey
  /-- Skips if the key `Vx` is up. -/
  | skipUnlessKey
  /-- `Vx :=` the delay timer. -/
  | readDelay
  /-- Suspends the machine until a key goes down. -/
  | awaitKey
  /-- The delay timer `:= Vx`. -/
  | setDelay
  /-- The sound timer `:= Vx`. -/
  | setSound
  /-- `I := I + Vx`. -/
  | addIndex
  /-- `I :=` the address of the glyph of `Vx`. -/
  | loadGlyph
  /-- Writes the three decimal digits of `Vx` from `I` on. -/
  | storeDecimal
  /-- Writes `V0` to `Vx` from `I` on. -/
  | storeRegisters
  /-- Reads `V0` to `Vx` from `I` on. -/
  | loadRegisters
  deriving Repr, DecidableEq

/-- One hexadecimal digit of an encoding. -/
inductive Digit where
  /-- The word has this digit. -/
  | fixed (value : Nat)
  /-- Any digit: it is an operand. -/
  | operand
  deriving Repr, DecidableEq

/-- Whether a digit of a word is admitted. -/
def Digit.admits : Digit → Nat → Bool
  | .fixed value, d => d == value
  | .operand, _ => true

/-- The four digits of an instruction word, most significant first. -/
structure Encoding where
  first : Digit
  second : Digit
  third : Digit
  fourth : Digit
  deriving Repr, DecidableEq

/-- A digit of a word, counted from the least significant. Any integer has such digits, those of a
negative one being the digits of its two's complement. -/
def nibble (word : Int) (position : Nat) : Nat := (word / 16 ^ position % 16).toNat

/-- Whether a word is of an encoding. -/
def Encoding.admits (e : Encoding) (word : Nat) : Bool :=
  e.first.admits (word / 4096 % 16) && e.second.admits (word / 256 % 16) &&
    e.third.admits (word / 16 % 16) && e.fourth.admits (word % 16)

namespace Operation

/-- All operations, in the order of their encodings. -/
def all : List Operation :=
  [ .nop, .clearScreen, .ret, .jump, .call, .skipIfByte, .skipUnlessByte, .skipIfEqual,
    .loadByte, .addByte,
    .alu .copy, .alu .or, .alu .and, .alu .xor, .alu .add, .alu .sub, .alu .shiftRight,
    .alu .subFrom, .alu .shiftLeft,
    .skipUnlessEqual, .loadIndex, .jumpOffset, .random, .draw, .skipIfKey, .skipUnlessKey,
    .readDelay, .awaitKey, .setDelay, .setSound, .addIndex, .loadGlyph, .storeDecimal,
    .storeRegisters, .loadRegisters ]

/-- The name under which an operation is counted and shown. -/
def mnemonic : Operation → String
  | nop => "NOP"
  | clearScreen => "CLS"
  | ret => "RET"
  | jump => "JP"
  | call => "CALL"
  | skipIfByte => "SE"
  | skipUnlessByte => "SNE"
  | skipIfEqual => "SE.V"
  | skipUnlessEqual => "SNE.V"
  | loadByte => "LD"
  | addByte => "ADD"
  | alu .copy => "LD.V"
  | alu .or => "OR"
  | alu .and => "AND"
  | alu .xor => "XOR"
  | alu .add => "ADD.V"
  | alu .sub => "SUB"
  | alu .shiftRight => "SHR"
  | alu .subFrom => "SUBN"
  | alu .shiftLeft => "SHL"
  | loadIndex => "LD.I"
  | jumpOffset => "JP.V0"
  | random => "RND"
  | draw => "DRW"
  | skipIfKey => "SKP"
  | skipUnlessKey => "SKNP"
  | readDelay => "LD.DT"
  | awaitKey => "LD.K"
  | setDelay => "SET.DT"
  | setSound => "SET.ST"
  | addIndex => "ADD.I"
  | loadGlyph => "LD.F"
  | storeDecimal => "BCD"
  | storeRegisters => "STORE"
  | loadRegisters => "LOAD"

/-- The operation of a mnemonic. -/
def ofMnemonic? (name : String) : Option Operation := all.find? fun op => op.mnemonic == name

/-- The opcode table. -/
def encoding : Operation → Encoding
  | nop => ⟨.fixed 0x0, .fixed 0x0, .fixed 0x0, .fixed 0x0⟩
  | clearScreen => ⟨.fixed 0x0, .fixed 0x0, .fixed 0xE, .fixed 0x0⟩
  | ret => ⟨.fixed 0x0, .fixed 0x0, .fixed 0xE, .fixed 0xE⟩
  | jump => ⟨.fixed 0x1, .operand, .operand, .operand⟩
  | call => ⟨.fixed 0x2, .operand, .operand, .operand⟩
  | skipIfByte => ⟨.fixed 0x3, .operand, .operand, .operand⟩
  | skipUnlessByte => ⟨.fixed 0x4, .operand, .operand, .operand⟩
  | skipIfEqual => ⟨.fixed 0x5, .operand, .operand, .fixed 0x0⟩
  | loadByte => ⟨.fixed 0x6, .operand, .operand, .operand⟩
  | addByte => ⟨.fixed 0x7, .operand, .operand, .operand⟩
  | alu .copy => ⟨.fixed 0x8, .operand, .operand, .fixed 0x0⟩
  | alu .or => ⟨.fixed 0x8, .operand, .operand, .fixed 0x1⟩
  | alu .and => ⟨.fixed 0x8, .operand, .operand, .fixed 0x2⟩
  | alu .xor => ⟨.fixed 0x8, .operand, .operand, .fixed 0x3⟩
  | alu .add => ⟨.fixed 0x8, .operand, .operand, .fixed 0x4⟩
  | alu .sub => ⟨.fixed 0x8, .operand, .operand, .fixed 0x5⟩
  | alu .shiftRight => ⟨.fixed 0x8, .operand, .operand, .fixed 0x6⟩
  | alu .subFrom => ⟨.fixed 0x8, .operand, .operand, .fixed 0x7⟩
  | alu .shiftLeft => ⟨.fixed 0x8, .operand, .operand, .fixed 0xE⟩
  | skipUnlessEqual => ⟨.fixed 0x9, .operand, .operand, .fixed 0x0⟩
  | loadIndex => ⟨.fixed 0xA, .operand, .operand, .operand⟩
  | jumpOffset => ⟨.fixed 0xB, .operand, .operand, .operand⟩
  | random => ⟨.fixed 0xC, .operand, .operand, .operand⟩
  | draw => ⟨.fixed 0xD, .operand, .operand, .operand⟩
  | skipIfKey => ⟨.fixed 0xE, .operand, .fixed 0x9, .fixed 0xE⟩
  | skipUnlessKey => ⟨.fixed 0xE, .operand, .fixed 0xA, .fixed 0x1⟩
  | readDelay => ⟨.fixed 0xF, .operand, .fixed 0x0, .fixed 0x7⟩
  | awaitKey => ⟨.fixed 0xF, .operand, .fixed 0x0, .fixed 0xA⟩
  | setDelay => ⟨.fixed 0xF, .operand, .fixed 0x1, .fixed 0x5⟩
  | setSound => ⟨.fixed 0xF, .operand, .fixed 0x1, .fixed 0x8⟩
  | addIndex => ⟨.fixed 0xF, .operand, .fixed 0x1, .fixed 0xE⟩
  | loadGlyph => ⟨.fixed 0xF, .operand, .fixed 0x2, .fixed 0x9⟩
  | storeDecimal => ⟨.fixed 0xF, .operand, .fixed 0x3, .fixed 0x3⟩
  | storeRegisters => ⟨.fixed 0xF, .operand, .fixed 0x5, .fixed 0x5⟩
  | loadRegisters => ⟨.fixed 0xF, .operand, .fixed 0x6, .fixed 0x5⟩

/-- The operation that a word encodes. The encodings exclude one another, so the order of the
search does not matter. -/
def ofWord? (word : Nat) : Option Operation := all.find? fun op => op.encoding.admits word

end Operation
end Chip8
