import Chip8.Proofs.Transition

/-!
# What instructions and steps leave alone

`Machine.effect_eq` says part by part what an instruction replaces, where the definition says it
operation by operation. The frame lemmas of a step follow by cases on its transition: a step keeps the
keys, and a machine that it leaves suspended has seen them (`Machine.step_sees`).
-/

namespace Chip8

/-! ## Registers -/

namespace Registers

/-- The registers with the flag register set to one or zero, if there is a flag to set. -/
def flagged (regs : Registers) : Option Bool → Registers
  | some flag => regs.write Registers.flag (if flag then 1 else 0)
  | none => regs

/-- The registers after a register-register operation. -/
def arithmetic (regs : Registers) (d : Dialect) (op : Alu) (x y : Int) : Registers :=
  let vx := regs.read x
  let vy := regs.read y
  (regs.flagged (Alu.flag d vx vy op)).put x (Alu.result d vx vy op)

end Registers

namespace Machine

variable (m : Machine) (i : Instruction)

/-! ## Instructions -/

theorem setFlag?_eq (flag : Option Bool) :
    m.setFlag? flag = { m with registers := m.registers.flagged flag } := by
  cases flag <;> rfl

theorem arithmetic_eq (op : Alu) (x y : Int) :
    m.arithmetic op x y = { m with registers := m.registers.arithmetic m.dialect op x y } := by
  simp only [arithmetic, setFlag?_eq]
  rfl

theorem moveIndex_eq (length : Int) :
    m.moveIndex length =
      { m with
        index :=
          if m.dialect.transferMovesIndex then (m.index + length) % 65536 else m.index } := by
  unfold moveIndex
  split <;> rfl

/-- The display with the sprite of an instruction on it, and whether a lit pixel was turned off. -/
def drawn (m : Machine) (i : Instruction) : Display × Bool :=
  m.display.draw (m.registers.value i.x) (m.registers.value i.y) (m.memory.slice m.index i.n)

/-- An instruction part by part: which operations replace a part of the state, and by what. -/
theorem effect_eq :
    m.effect i =
      { m with
        memory :=
          match i.operation with
          | .storeDecimal => m.memory.put m.index (decimalDigits (m.registers.read i.x))
          | .storeRegisters => m.memory.put m.index (m.registers.take (i.x + 1).toNat)
          | _ => m.memory
        registers :=
          match i.operation with
          | .loadByte => m.registers.write i.x i.kk
          | .addByte => m.registers.write i.x (m.registers.value i.x + i.kk)
          | .alu op => m.registers.arithmetic m.dialect op i.x i.y
          | .random => m.registers.put i.x (m.random.next &&& UInt8.ofInt i.kk)
          | .draw => m.registers.write Registers.flag (if (m.drawn i).2 then 1 else 0)
          | .readDelay => m.registers.write i.x m.delayTimer
          | .loadRegisters => m.registers.writeFrom 0 (m.memory.slice m.index (i.x + 1))
          | _ => m.registers
        display :=
          match i.operation with
          | .clearScreen => m.display.clear
          | .draw => (m.drawn i).1
          | _ => m.display
        index :=
          match i.operation with
          | .loadIndex => i.nnn
          | .addIndex => (m.index + m.registers.value i.x) % 65536
          | .loadGlyph => Font.glyphAddress (m.registers.value i.x)
          | .storeRegisters | .loadRegisters =>
            if m.dialect.transferMovesIndex then (m.index + (i.x + 1)) % 65536 else m.index
          | _ => m.index
        delayTimer :=
          if i.operation = .setDelay then m.registers.value i.x else m.delayTimer
        soundTimer :=
          if i.operation = .setSound then m.registers.value i.x else m.soundTimer
        stack :=
          match i.operation with
          | .ret => m.stack.popped
          | .call => m.stack.pushed m.pc
          | _ => m.stack
        random := if i.operation = .random then m.random.rest else m.random
        waiting := if i.operation = .awaitKey then some (Registers.slot i.x) else m.waiting
        keysSeen := if i.operation = .awaitKey then m.keys else m.keysSeen } := by
  unfold effect
  cases i.operation
  case alu op => exact m.arithmetic_eq op i.x i.y
  case storeRegisters => exact moveIndex_eq ..
  case loadRegisters => exact moveIndex_eq ..
  all_goals rfl

@[simp] theorem effect_keys : (m.effect i).keys = m.keys := by rw [effect_eq]

@[simp] theorem effect_dialect : (m.effect i).dialect = m.dialect := by rw [effect_eq]

@[simp] theorem effect_cycles : (m.effect i).cycles = m.cycles := by rw [effect_eq]

theorem effect_stack :
    (m.effect i).stack =
      match i.operation with
      | .ret => m.stack.popped
      | .call => m.stack.pushed m.pc
      | _ => m.stack := by
  rw [effect_eq]

theorem effect_waiting :
    (m.effect i).waiting =
      if i.operation = .awaitKey then some (Registers.slot i.x) else m.waiting := by
  rw [effect_eq]

theorem effect_keysSeen :
    (m.effect i).keysSeen = if i.operation = .awaitKey then m.keys else m.keysSeen := by
  rw [effect_eq]

/-! ## Steps -/

theorem pollKey_frame (r : Fin 16) :
    ∃ registers waiting keysSeen,
      m.pollKey r =
        { m with registers := registers, waiting := waiting, keysSeen := keysSeen } := by
  unfold pollKey
  cases Keypad.firstPressed? m.keysSeen m.keys <;> exact ⟨_, _, _, rfl⟩

theorem step_keys : m.step.1.keys = m.keys := by
  have transition := m.step_transition
  generalize m.step.1 = after, m.step.2 = f? at transition
  cases transition with
  | @poll r hw =>
    obtain ⟨_, _, _, same⟩ := m.pollKey_frame r
    rw [same]
  | unfetched hw hb => rfl
  | undecoded hw hd => rfl
  | faulted hw hd hf => rfl
  | @executed w i hw hd hf =>
    show (m.advanced.effect i).keys = m.keys
    rw [effect_keys]
    rfl

/-- A suspended machine has seen the keys at the step that left it so: either the step looked at them
in vain, or it has just begun the wait. -/
theorem step_sees {r : Fin 16} (h : m.step.1.waiting = some r) : m.step.1.keysSeen = m.keys := by
  have transition := m.step_transition
  generalize m.step.1 = after, m.step.2 = f? at transition h
  cases transition with
  | @poll r' hw =>
    cases hk : Keypad.firstPressed? m.keysSeen m.keys with
    | none => simp only [pollKey, hk]
    | some k =>
      simp only [pollKey, hk] at h
      exact absurd h (by simp)
  | unfetched hw hb =>
    rw [hw] at h
    exact absurd h (by simp)
  | undecoded hw hd | faulted hw hd hf =>
    have awake : m.advanced.waiting = none := hw.awake
    rw [awake] at h
    exact absurd h (by simp)
  | @executed w i hw hd hf =>
    have awake : m.advanced.waiting = none := hw.awake
    have seen : (m.advanced.execute i).keysSeen = (m.advanced.effect i).keysSeen := rfl
    have waits : (m.advanced.execute i).waiting = (m.advanced.effect i).waiting := rfl
    rw [waits, effect_waiting, awake] at h
    rw [seen, effect_keysSeen]
    split at h
    · rename_i begun
      rw [if_pos begun]
      rfl
    · exact absurd h (by simp)

/-- Only a machine that is awake faults, and nothing but its program counter moves. -/
theorem step_fault_frame {f : Fault} (h : m.step.2 = some f) :
    m.waiting = none ∧ ∃ pc, m.step.1 = { m with pc := pc } := by
  have transition := m.step_transition
  rw [h] at transition
  generalize m.step.1 = after at transition
  cases transition with
  | unfetched hw hb => exact ⟨hw, m.pc, rfl⟩
  | undecoded hw hd => exact ⟨hw.awake, m.pc + 2, rfl⟩
  | faulted hw hd hf => exact ⟨hw.awake, m.pc + 2, rfl⟩

/-- Executed instructions are counted, and looks at the keypad are not. -/
theorem step_cycles (h : m.step.2 = none) :
    m.step.1.cycles = m.cycles + if m.waiting.isSome then 0 else 1 := by
  have transition := m.step_transition
  rw [h] at transition
  generalize m.step.1 = after at transition
  cases transition with
  | @poll r hw =>
    obtain ⟨_, _, _, same⟩ := m.pollKey_frame r
    rw [hw, same]
    rfl
  | @executed w i hw hd hf =>
    have counted : (m.advanced.execute i).cycles = (m.advanced.effect i).cycles + 1 := rfl
    rw [counted, effect_cycles, hw.awake]
    rfl

end Machine
end Chip8
