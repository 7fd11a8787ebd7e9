import Chip8.Machine.Host

/-!
# Interventions

A host can also reach into a machine: carry out parts of the instruction cycle, assign to the counters,
and write to the registers, the memory, the stack and the display. These are values here too, each
with its answer.
-/

namespace Chip8.Machine

/-- A counter that a host can assign to. -/
inductive Counter where
  | pc
  | index
  | delayTimer
  | soundTimer
  deriving Repr, DecidableEq

/-- A part that a host can clear. -/
inductive Part where
  | memory
  | registers
  | stack
  | display
  deriving Repr, DecidableEq

/-- Anything that a host can do to a machine. -/
inductive Intervention where
  | act (action : HostAction)
  | fetch
  | executeWord (word : Int)
  | carryOut (i : Instruction)
  | assign (counter : Counter) (value : Int)
  | writeRegister (register value : Int)
  | writeMemory (address : Int) (block : List UInt8)
  | push (address : Int)
  | pop
  | draw (x y : Int) (sprite : Sprite)
  | fill
  | clear (part : Part)

/-- What an intervention answers. -/
inductive Answer where
  | done
  | failed (cause : HostError)
  | word (w : UInt16)
  | returnAddress (a : UInt16)
  | next (pc : Int)
  | collided (flag : Bool)
  deriving Repr, DecidableEq

namespace Answer

/-- The answer of an operation that answers nothing else than why it failed. -/
def ofError? : Option HostError → Answer
  | none => .done
  | some e => .failed e

end Answer

/-- Assigns to a counter whatever the value. -/
def assign (m : Machine) (value : Int) : Counter → Machine
  | .pc => { m with pc := value }
  | .index => { m with index := value }
  | .delayTimer => { m with delayTimer := value }
  | .soundTimer => { m with soundTimer := value }

/-- Clears a part in its place. -/
def cleared (m : Machine) : Part → Machine
  | .memory => { m with memory := m.memory.clear }
  | .registers => { m with registers := .zero }
  | .stack => { m with stack := m.stack.clear }
  | .display => { m with display := m.display.clear }

/-- Carries out an intervention. -/
def intervene (m : Machine) : Intervention → Machine × Answer
  | .act action => let (m, e) := m.perform action; (m, .ofError? e)
  | .fetch =>
    match m.fetch with
    | .ok (w, m) => (m, .word w)
    | .error f => (m, .failed (.fault f))
  | .executeWord word => let (m, f) := m.executeWord word; (m, .ofError? (f.map .fault))
  | .carryOut i =>
    match (Microcode.carryOut i).run m with
    | .ok next m => (m, .next next)
    | .error f m => (m, .failed (.fault f))
  | .assign counter value => (m.assign value counter, .done)
  | .writeRegister register value => (m.setRegister register value, .done)
  | .writeMemory address block =>
    match m.memory.writeBlock address block with
    | .ok memory => ({ m with memory := memory }, .done)
    | .error f => (m, .failed (.fault f))
  | .push address =>
    match m.stack.push address with
    | .ok stack => ({ m with stack := stack }, .done)
    | .error f => (m, .failed (.fault f))
  | .pop =>
    match m.stack.pop with
    | .ok (address, stack) => ({ m with stack := stack }, .returnAddress address)
    | .error f => (m, .failed (.fault f))
  | .draw x y sprite =>
    let (display, flag) := m.display.draw x y sprite
    ({ m with display := display }, .collided flag)
  | .fill => ({ m with display := m.display.fill }, .done)
  | .clear part => (m.cleared part, .done)

/-- The machine after many interventions, and their answers. -/
def intervened (m : Machine) : List Intervention → Machine × List Answer
  | [] => (m, [])
  | i :: rest =>
    let (m, answer) := m.intervene i
    let (m, answers) := intervened m rest
    (m, answer :: answers)

end Chip8.Machine
