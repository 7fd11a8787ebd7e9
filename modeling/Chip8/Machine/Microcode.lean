import Chip8.Machine.Execution

/-!
# Microcode

An instruction is carried out as a sequence of elementary operations on the machine, each of which
checks its own access. A fault ends the sequence at once, and what was done before it stays done:
that a faulting instruction has done nothing is not built in here.
-/

namespace Chip8

/-- A sequence of elementary operations. It ends with an answer or with a fault, and leaves a
machine in both cases. -/
abbrev Microcode (α : Type) := EStateM Fault Machine α

namespace Microcode

/-- The machine that a sequence leaves, and the fault that ended it. -/
def outcome {α : Type} (code : Microcode α) (m : Machine) : Machine × Option Fault :=
  match code.run m with
  | .ok _ m => (m, none)
  | .error f m => (m, some f)

/-! ## Elementary operations -/

/-- Reads a word of memory. -/
def readWord (address : Int) : Microcode UInt16 := do
  ofExcept ((← get).memory.readWord address)

/-- Reads a range of memory. -/
def readBlock (address length : Int) : Microcode (List UInt8) := do
  ofExcept ((← get).memory.readBlock address length)

/-- Writes a block of bytes to memory. -/
def writeBlock (address : Int) (block : List UInt8) : Microcode Unit := do
  let m ← get
  let memory ← ofExcept (m.memory.writeBlock address block)
  set { m with memory := memory }

/-- Writes one byte to memory. -/
def writeByte (address value : Int) : Microcode Unit := do
  let m ← get
  let memory ← ofExcept (m.memory.writeByte address value)
  set { m with memory := memory }

/-- Puts a return address on the call stack. -/
def push (address : Int) : Microcode Unit := do
  let m ← get
  let stack ← ofExcept (m.stack.push address)
  set { m with stack := stack }

/-- Takes the most recent return address off the call stack. -/
def pop : Microcode UInt16 := do
  let m ← get
  let (address, stack) ← ofExcept m.stack.pop
  set { m with stack := stack }
  return address

/-! ## Instructions that access memory -/

/-- Draws the `n` rows in memory from the index on at the position that two registers hold. -/
def drawSprite (x y n : Int) : Microcode Unit := do
  let m ← get
  let column := m.registers.value x
  let row := m.registers.value y
  let sprite ← readBlock m.index n
  let (display, collided) := m.display.draw column row sprite
  modify fun m => { m with display := display }
  modify fun m => m.setFlag collided

/-- Writes the hundreds, tens and ones of `Vx` from the index on. The bytes are written one by one,
so the whole range is read first: the check of the first byte alone would not cover the others. -/
def storeDecimal (x : Int) : Microcode Unit := do
  let m ← get
  let v := m.registers.value x
  let _ ← readBlock m.index 3
  writeByte m.index (v / 100)
  writeByte (m.index + 1) (v / 10 % 10)
  writeByte (m.index + 2) (v % 10)

/-- Writes the registers up to `Vx` from the index on. -/
def storeRegisters (x : Int) : Microcode Unit := do
  let m ← get
  writeBlock m.index (m.registers.take (x + 1).toNat)
  modify fun m => m.moveIndex (x + 1)

/-- Reads the registers up to `Vx` from the index on. -/
def loadRegisters (x : Int) : Microcode Unit := do
  let m ← get
  let block ← readBlock m.index (x + 1)
  modify fun m => { m with registers := m.registers.writeFrom 0 block }
  modify fun m => m.moveIndex (x + 1)

/-! ## All instructions -/

/-- Carries out an instruction, whose word lies before the program counter, and answers the next
program counter. The operations without an access that could fail are single effects. -/
def carryOut (i : Instruction) : Microcode Int := do
  let m ← get
  match i.operation with
  | .ret => return (← pop).toNat
  | .call =>
    push m.pc
    return i.nnn
  | .draw =>
    drawSprite i.x i.y i.n
    return m.pc
  | .storeDecimal =>
    storeDecimal i.x
    return m.pc
  | .storeRegisters =>
    storeRegisters i.x
    return m.pc
  | .loadRegisters =>
    loadRegisters i.x
    return m.pc
  | _ =>
    set (m.effect i)
    return m.next i

end Microcode
end Chip8
