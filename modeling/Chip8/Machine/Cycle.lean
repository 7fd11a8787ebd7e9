import Chip8.Machine.Microcode

/-!
# The instruction cycle

Fetch, decode, execute, and the wait for a key. A step answers the state it leaves also when it
faults.
-/

namespace Chip8
namespace Machine

/-- The word at the program counter. -/
def currentWord (m : Machine) : UInt16 := m.memory.wordAt m.pc.toNat

/-- The machine with its program counter behind the current word. -/
def advanced (m : Machine) : Machine := { m with pc := m.pc + 2 }

/-- Counts an executed operation. -/
def recorded (m : Machine) (op : Operation) : Machine :=
  { m with tally := m.tally.record op, cycles := m.cycles + 1 }

/-- The machine after an instruction that does not fault. -/
def execute (m : Machine) (i : Instruction) : Machine :=
  let next := m.next i
  { m.effect i with pc := next }.recorded i.operation

/-- One look at the keypad during a key wait: the lowest key that went down since the last look
ends the wait. -/
def pollKey (m : Machine) (r : Fin 16) : Machine :=
  match Keypad.firstPressed? m.keysSeen m.keys with
  | some k =>
    { m with
      registers := m.registers.write r.val k.val
      waiting := none
      keysSeen := Keypad.released }
  | none => { m with keysSeen := m.keys }

end Machine

/-! ## The cycle as microcode -/

namespace Microcode

/-- Reads the word at the program counter and moves the program counter behind it. -/
def fetch : Microcode UInt16 := do
  let m ← get
  if m.pc < 0 ∨ m.memory.size ≤ m.pc + 1 then throw (.outOfBounds m.pc 2)
  let word ← readWord m.pc
  set m.advanced
  return word

/-- Decodes and executes a word. The instruction is counted last. -/
def executeWord (word : Int) : Microcode Unit := do
  let i ← ofExcept (Instruction.decode word)
  let next ← carryOut i
  modify fun m => { m with pc := next }
  modify fun m => m.recorded i.operation

/-- One step: an instruction, or a look at the keypad while the machine is suspended. -/
def step : Microcode Unit := do
  let m ← get
  match m.waiting with
  | some r => set (m.pollKey r)
  | none =>
    let word ← fetch
    executeWord word.toNat

end Microcode

namespace Machine

/-! ## The cycle as functions of the machine -/

/-- Reads the word at the program counter and moves the program counter behind it. -/
def fetch (m : Machine) : Except Fault (UInt16 × Machine) :=
  match Microcode.fetch.run m with
  | .ok word m => .ok (word, m)
  | .error f _ => .error f

/-- Decodes and executes a word. -/
def executeWord (m : Machine) (word : Int) : Machine × Option Fault :=
  (Microcode.executeWord word).outcome m

/-- One step: an instruction, or a look at the keypad while the machine is suspended. -/
def step (m : Machine) : Machine × Option Fault := Microcode.step.outcome m

/-- What a number of steps came to. -/
structure Progress where
  machine : Machine
  /-- The number of steps that succeeded. -/
  steps : Nat
  fault : Option Fault

/-- Up to `count` steps, ending at the first fault. `done` steps went before. -/
def runFrom (done : Nat) : Nat → Machine → Progress
  | 0, m => ⟨m, done, none⟩
  | count + 1, m =>
    match m.step with
    | (m, some f) => ⟨m, done, some f⟩
    | (m, none) => runFrom (done + 1) count m

/-- Up to `count` steps, ending at the first fault. -/
def run (count : Nat) (m : Machine) : Progress := runFrom 0 count m

/-- The steps that went before only add to the count. -/
theorem runFrom_eq (done count : Nat) (m : Machine) :
    runFrom done count m =
      ⟨(run count m).machine, done + (run count m).steps, (run count m).fault⟩ := by
  induction count generalizing done m with
  | zero => simp [runFrom, run]
  | succ n ih =>
    simp only [run, runFrom]
    rcases m.step with ⟨next, _ | f⟩
    · simp only [ih (done + 1), ih (0 + 1)]
      simp
      omega
    · simp

end Machine
end Chip8
