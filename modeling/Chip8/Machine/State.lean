import Chip8.CallStack
import Chip8.Dialect
import Chip8.Display
import Chip8.Font
import Chip8.Keypad
import Chip8.Memory
import Chip8.RandomSource
import Chip8.Registers
import Chip8.Tally

/-!
# Machine state

Everything the machine remembers, the power-on state, and loading a program. The program counter,
the index and the timers are integers without bounds, because a host may assign any value to them.
-/

namespace Chip8

/-- A machine between two instructions. -/
structure Machine where
  dialect : Dialect
  random : RandomSource
  memory : Memory
  registers : Registers
  stack : CallStack
  display : Display
  keys : Keypad
  /-- The keypad as the last step of a key wait saw it. -/
  keysSeen : Keypad
  /-- The program counter. -/
  pc : Int
  /-- The index register `I`. -/
  index : Int
  delayTimer : Int
  soundTimer : Int
  /-- The register that a key wait will fill, while the machine is suspended on a key. -/
  waiting : Option (Fin 16)
  /-- How many instructions were executed. -/
  cycles : Nat
  tally : Tally

namespace Machine

/-- The number of bytes of memory. -/
def memorySize : Nat := 4096

/-- Where programs are loaded and started. -/
def programStart : Nat := 0x200

/-- The largest number of bytes a program can have. -/
def programCapacity : Nat := memorySize - programStart

/-- The number of slots of the call stack. -/
def stackSize : Nat := 16

/-- The number of pixel columns. -/
def screenWidth : Nat := 64

/-- The number of pixel rows. -/
def screenHeight : Nat := 32

/-- Memory with the font in its place and zeros elsewhere. -/
def initialMemory : Memory := (Memory.zeroed memorySize).put Font.address Font.bytes

/-- A machine that was just switched on. -/
def powerOn (dialect : Dialect) (random : RandomSource) : Machine where
  dialect := dialect
  random := random
  memory := initialMemory
  registers := .zero
  stack := .empty stackSize
  display := .blank screenWidth screenHeight
  keys := Keypad.released
  keysSeen := Keypad.released
  pc := programStart
  index := 0
  delayTimer := 0
  soundTimer := 0
  waiting := none
  cycles := 0
  tally := []

@[simp] theorem powerOn_dialect (dialect : Dialect) (random : RandomSource) :
    (powerOn dialect random).dialect = dialect := rfl

@[simp] theorem powerOn_random (dialect : Dialect) (random : RandomSource) :
    (powerOn dialect random).random = random := rfl

/-- Returns to the power-on state: every part of the machine is cleared in its place, and the font
is loaded. The random bytes already taken stay taken. -/
def reset (m : Machine) : Machine :=
  { m with
    memory := m.memory.clear.put Font.address Font.bytes
    registers := .zero
    stack := m.stack.clear
    display := m.display.clear
    keys := Keypad.released
    keysSeen := Keypad.released
    pc := programStart
    index := 0
    delayTimer := 0
    soundTimer := 0
    waiting := none
    cycles := 0
    tally := [] }

@[simp] theorem reset_random (m : Machine) : m.reset.random = m.random := by
  simp only [reset]

/-- Copies a program to its place in memory. -/
def withProgram (m : Machine) (program : List UInt8) : Machine :=
  { m with memory := m.memory.put programStart program }

/-- Resets the machine and loads a program. A program that does not fit leaves the machine reset. -/
def load (m : Machine) (program : List UInt8) : Machine × Option Fault :=
  let m := m.reset
  if programCapacity < program.length then
    (m, some (.programTooLarge program.length programCapacity))
  else (m.withProgram program, none)

/-- The sound is on. -/
def soundActive (m : Machine) : Bool := decide (0 < m.soundTimer)

/-- One tick of a timer: down by one, but not below zero. -/
def tickTimer (t : Int) : Int := if 0 < t then t - 1 else t

/-- One tick of both timers. -/
def tick (m : Machine) : Machine :=
  { m with delayTimer := tickTimer m.delayTimer, soundTimer := tickTimer m.soundTimer }

/-- A number of ticks of both timers. -/
def ticks : Nat → Machine → Machine
  | 0, m => m
  | n + 1, m => ticks n m.tick

/-- Presses a key. -/
def press (m : Machine) (k : Int) : Machine := { m with keys := m.keys.setKey k true }

/-- Releases a key. -/
def release (m : Machine) (k : Int) : Machine := { m with keys := m.keys.setKey k false }

/-- Suspends the machine until a key goes down, which register `r` will then name. -/
def awaitKey (m : Machine) (r : Int) : Machine :=
  { m with waiting := some (Registers.slot r), keysSeen := m.keys }

end Machine
end Chip8
