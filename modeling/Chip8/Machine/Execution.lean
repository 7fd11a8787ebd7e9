import Chip8.Alu
import Chip8.Instruction
import Chip8.Machine.State

/-!
# Execution of an instruction

What an instruction comes to is told by three functions of the state in which it runs, whose program
counter already points behind the instruction: the fault that forbids it, the program counter after
it, and the rest of the state after it. How it is carried out, access by access, is told by the
microcode.
-/

namespace Chip8.Machine

/-! ## Faults -/

/-- The fault of an instruction, if it cannot be executed. -/
def fault? (m : Machine) (i : Instruction) : Option Fault :=
  match i.operation with
  | .ret => m.stack.popFault?
  | .call => m.stack.pushFault?
  | .draw => m.memory.fault? m.index i.n
  | .storeDecimal => m.memory.fault? m.index 3
  | .storeRegisters => m.memory.fault? m.index (i.x + 1).toNat
  | .loadRegisters => m.memory.fault? m.index (i.x + 1)
  | _ => none

/-! ## The next instruction -/

/-- The program counter behind the instruction, or behind the next one if the condition holds. -/
def skipIf (m : Machine) (condition : Bool) : Int := if condition then m.pc + 2 else m.pc

/-- The program counter after an instruction. -/
def next (m : Machine) (i : Instruction) : Int :=
  let vx := m.registers.value i.x
  match i.operation with
  | .ret => m.stack.top.toNat
  | .jump | .call => i.nnn
  | .jumpOffset => (i.nnn + m.registers.value 0) % 65536
  | .skipIfByte => m.skipIf (vx == i.kk)
  | .skipUnlessByte => m.skipIf (vx != i.kk)
  | .skipIfEqual => m.skipIf (vx == m.registers.value i.y)
  | .skipUnlessEqual => m.skipIf (vx != m.registers.value i.y)
  | .skipIfKey => m.skipIf (m.keys.isDown vx)
  | .skipUnlessKey => m.skipIf !(m.keys.isDown vx)
  | _ => m.pc

/-! ## Effects -/

/-- Replaces a register. -/
def setRegister (m : Machine) (r v : Int) : Machine :=
  { m with registers := m.registers.write r v }

/-- Sets the flag register to one or zero. -/
def setFlag (m : Machine) (flag : Bool) : Machine :=
  m.setRegister Registers.flag (if flag then 1 else 0)

/-- Sets the flag register, if there is a flag to set. -/
def setFlag? (m : Machine) : Option Bool → Machine
  | some flag => m.setFlag flag
  | none => m

/-- A register-register operation. The operands are read first; then the flag is written, and then
the result, which replaces the flag when `x` is the flag register. -/
def arithmetic (m : Machine) (op : Alu) (x y : Int) : Machine :=
  let vx := m.registers.read x
  let vy := m.registers.read y
  let result := Alu.result m.dialect vx vy op
  let m := m.setFlag? (Alu.flag m.dialect vx vy op)
  { m with registers := m.registers.put x result }

/-- Draws the `n` rows in memory from the index on at the position that two registers hold. -/
def drawSprite (m : Machine) (x y n : Int) : Machine :=
  let sprite := m.memory.slice m.index n
  let column := m.registers.value x
  let row := m.registers.value y
  let (display, collided) := m.display.draw column row sprite
  { m with display := display }.setFlag collided

/-- The hundreds, tens and ones of a byte. -/
def decimalDigits (v : UInt8) : List UInt8 := [v / 100, v / 10 % 10, v % 10]

/-- Writes a block of bytes from the index on. -/
def storeBlock (m : Machine) (block : List UInt8) : Machine :=
  { m with memory := m.memory.put m.index block }

/-- Moves the index behind a block of `length` bytes, where the dialect asks for it. -/
def moveIndex (m : Machine) (length : Int) : Machine :=
  if m.dialect.transferMovesIndex then { m with index := (m.index + length) % 65536 } else m

/-- Writes the registers up to `Vx` from the index on. -/
def storeRegisters (m : Machine) (x : Int) : Machine :=
  (m.storeBlock (m.registers.take (x + 1).toNat)).moveIndex (x + 1)

/-- Reads the registers up to `Vx` from the index on. -/
def loadRegisters (m : Machine) (x : Int) : Machine :=
  let block := m.memory.slice m.index (x + 1)
  { m with registers := m.registers.writeFrom 0 block }.moveIndex (x + 1)

/-- Puts a random byte, masked by `mask`, into a register. -/
def drawRandom (m : Machine) (x mask : Int) : Machine :=
  let byte := m.random.next &&& UInt8.ofInt mask
  { m with registers := m.registers.put x byte, random := m.random.rest }

/-- The state after an instruction that does not fault, but for the program counter. -/
def effect (m : Machine) (i : Instruction) : Machine :=
  match i.operation with
  | .clearScreen => { m with display := m.display.clear }
  | .ret => { m with stack := m.stack.popped }
  | .call => { m with stack := m.stack.pushed m.pc }
  | .loadByte => m.setRegister i.x i.kk
  | .addByte => m.setRegister i.x (m.registers.value i.x + i.kk)
  | .alu op => m.arithmetic op i.x i.y
  | .loadIndex => { m with index := i.nnn }
  | .random => m.drawRandom i.x i.kk
  | .draw => m.drawSprite i.x i.y i.n
  | .readDelay => m.setRegister i.x m.delayTimer
  | .awaitKey => m.awaitKey i.x
  | .setDelay => { m with delayTimer := m.registers.value i.x }
  | .setSound => { m with soundTimer := m.registers.value i.x }
  | .addIndex => { m with index := (m.index + m.registers.value i.x) % 65536 }
  | .loadGlyph => { m with index := Font.glyphAddress (m.registers.value i.x) }
  | .storeDecimal => m.storeBlock (decimalDigits (m.registers.read i.x))
  | .storeRegisters => m.storeRegisters i.x
  | .loadRegisters => m.loadRegisters i.x
  | .nop | .jump | .jumpOffset => m
  | .skipIfByte | .skipUnlessByte | .skipIfEqual | .skipUnlessEqual => m
  | .skipIfKey | .skipUnlessKey => m

end Chip8.Machine
