import Chip8.Fault
import Chip8.Operation

/-!
# Instructions

A decoded instruction is an operation with the operand slices of its word. Only the low sixteen
bits of a word count. An instruction can also be given by a name and free operands; the names that
select an operation are told apart step by step, in tables of their own.
-/

namespace Chip8

/-- An operation with its operands. -/
structure Instruction where
  operation : Operation
  word : Int
  /-- The second digit, a register number. -/
  x : Int
  /-- The third digit, a register number. -/
  y : Int
  /-- The fourth digit. -/
  n : Int
  /-- The low byte. -/
  kk : Int
  /-- The low twelve bits, an address. -/
  nnn : Int
  deriving Repr, DecidableEq

namespace Instruction

/-- The instruction that a word encodes. -/
def decode? (word : Int) : Option Instruction :=
  let w := (word % 65536).toNat
  match Operation.ofWord? w with
  | none => none
  | some op => some
    { operation := op
      word := w
      x := (w / 256 % 16 : Nat)
      y := (w / 16 % 16 : Nat)
      n := (w % 16 : Nat)
      kk := (w % 256 : Nat)
      nnn := (w % 4096 : Nat) }

/-- The fault of a word that encodes no instruction. -/
def undecoded (word : Int) : Fault := .unimplementedOpcode (word % 65536).toNat

/-- The instruction that a word encodes; a word that encodes none is a fault. -/
def decode (word : Int) : Except Fault Instruction :=
  match decode? word with
  | some i => .ok i
  | none => .error (undecoded word)

/-! ## Selection by name -/

/-- A name under which nothing is executed. -/
inductive UnknownMnemonic where
  /-- It was taken for a register-register operation, and is none. -/
  | arithmetic (name : String)
  /-- It is none of the names, and came with a word. -/
  | operation (name : String) (word : Int)
  deriving Repr, DecidableEq

/-- The text shown to the user. -/
def UnknownMnemonic.message : UnknownMnemonic → String
  | .arithmetic name => "Unknown ALU operation: " ++ name
  | .operation name word => "Unimplemented operation: " ++ name ++ " (word=0x" ++ hex 4 word ++ ")"

/-- The names that select an operation by themselves, of all but the two families below. -/
def single? : String → Option Operation
  | "NOP" => some .nop
  | "CLS" => some .clearScreen
  | "RET" => some .ret
  | "JP" => some .jump
  | "CALL" => some .call
  | "SE" => some .skipIfByte
  | "SNE" => some .skipUnlessByte
  | "SE.V" => some .skipIfEqual
  | "SNE.V" => some .skipUnlessEqual
  | "LD" => some .loadByte
  | "ADD" => some .addByte
  | "LD.I" => some .loadIndex
  | "JP.V0" => some .jumpOffset
  | "RND" => some .random
  | "DRW" => some .draw
  | "SKP" => some .skipIfKey
  | "SKNP" => some .skipUnlessKey
  | _ => none

/-- The names that lead to the register-register operations. -/
def arithmeticNames : List String :=
  ["LD.V", "OR", "AND", "XOR", "ADD.V", "SUB", "SHR", "SUBN", "SHL"]

/-- The names by which the register-register operations are told apart. -/
def arithmetic? : String → Option Alu
  | "LD.V" => some .copy
  | "OR" => some .or
  | "AND" => some .and
  | "XOR" => some .xor
  | "ADD.V" => some .add
  | "SUB" => some .sub
  | "SUBN" => some .subFrom
  | "SHR" => some .shiftRight
  | "SHL" => some .shiftLeft
  | _ => none

/-- The names of the operations on timers, keys, index and memory, `Fx07` to `Fx65`. -/
def transfer? : String → Option Operation
  | "LD.DT" => some .readDelay
  | "LD.K" => some .awaitKey
  | "SET.DT" => some .setDelay
  | "SET.ST" => some .setSound
  | "ADD.I" => some .addIndex
  | "LD.F" => some .loadGlyph
  | "BCD" => some .storeDecimal
  | "STORE" => some .storeRegisters
  | "LOAD" => some .loadRegisters
  | _ => none

/-- The operation that a name selects. A name that is in none of the other tables is looked for among
the transfers. -/
def select (name : String) (word : Int) : Except UnknownMnemonic Operation :=
  match single? name with
  | some op => .ok op
  | none =>
    if name ∈ arithmeticNames then
      match arithmetic? name with
      | some op => .ok (.alu op)
      | none => .error (.arithmetic name)
    else
      match transfer? name with
      | some op => .ok op
      | none => .error (.operation name word)

/-- The instruction of a name with operands chosen freely. -/
def assemble (name : String) (word x y n kk nnn : Int) : Except UnknownMnemonic Instruction :=
  match select name word with
  | .ok op => .ok ⟨op, word, x, y, n, kk, nnn⟩
  | .error e => .error e

end Instruction
end Chip8
