import Chip8.Proofs.Erasure
import Chip8.Proofs.Executions
import Mathlib.Tactic.ByContra

/-!
# The footprint of an instruction

What an executed word can change, part by part of the state and in the digits of the word
(`Machine.Footprint`). Each part has its own lemma on the effect of an instruction, and the step puts
them together (`Machine.Executes.footprint`). Over a run it follows that a byte of memory keeps its
loaded value until a word that covers its address is executed.
-/

namespace Chip8

/-! ## Blocks of bytes -/

/-- A block changes only bytes in its range. -/
theorem Memory.range_of_put {m : Memory} {address : Int} {block : List UInt8} {a : Nat}
    (inside : m.InBounds address block.length)
    (changed : (m.put address block).byteAt a ≠ m.byteAt a) :
    address ≤ a ∧ a < address + block.length := by
  have low := inside.1
  rw [byteAt_put inside] at changed
  by_cases behind : address ≤ a
  · rw [if_pos behind] at changed
    by_cases within : a - address.toNat < block.length
    · omega
    · rw [List.getElem?_eq_none (by omega), Option.getD_none] at changed
      exact absurd rfl changed
  · rw [if_neg behind] at changed
    exact absurd rfl changed

/-- A range holds no more bytes than its length. -/
theorem Memory.length_slice_le (m : Memory) {address length : Int} (low : 0 ≤ address)
    (nonneg : 0 ≤ length) : ((m.slice address length).length : Int) ≤ length := by
  have stop : ¬ address + length < 0 := by omega
  simp only [slice, if_neg stop, Array.length_toList, Array.size_extract]
  omega

namespace Registers

variable {regs : Registers}

/-- A register in the range written from holds a byte of the block, and any other keeps its own. -/
theorem read_writeFrom (start : Nat) (block : List UInt8) (r : Fin 16)
    (room : start + block.length ≤ 16) :
    (regs.writeFrom start block).read r.val =
      if start ≤ r then block.getD (r - start) (regs.read r.val) else regs.read r.val := by
  induction block generalizing regs start with
  | nil => simp [writeFrom]
  | cons b rest ih =>
    simp only [List.length_cons] at room
    have target : slot start = slot (r.val : Int) ↔ start = r := by
      rw [slot_fin, slot_fin ⟨start, by omega⟩, Fin.ext_iff]
    show ((regs.put start b).writeFrom ((start : Int) + 1) rest).read r.val = _
    rw [show (start : Int) + 1 = ((start + 1 : Nat) : Int) by omega, ih (start + 1) (by omega),
      read_put]
    rcases Nat.lt_trichotomy r start with h | h | h
    · simp [target, show ¬ start + 1 ≤ r by omega, show ¬ start ≤ r by omega, show start ≠ r by omega]
    · subst h
      simp [show ¬ r.val + 1 ≤ r.val by omega]
    · have offset : r - start = (r - (start + 1)) + 1 := by omega
      simp [target, offset, show start + 1 ≤ r by omega, show start ≤ r by omega,
        show start ≠ r by omega]

/-- Bytes written from a register on reach no further than their number. -/
theorem value_writeFrom (start : Nat) (block : List UInt8) (r : Fin 16)
    (beyond : start + block.length ≤ r) : (regs.writeFrom start block).value r = regs.value r := by
  rw [value, value, read_writeFrom start block r (by omega), List.getD_eq_default _ _ (by omega),
    ite_self]

theorem slot_eq_of_put {x : Int} {b : UInt8} {r : Int}
    (changed : (regs.put x b).value r ≠ regs.value r) : slot x = slot r := by
  by_contra other
  rw [value, value, read_put, if_neg other] at changed
  exact changed rfl

/-- The digits of a word that name a register do so exactly. -/
theorem slot_digit {k : Nat} {r : Fin 16} (hk : k < 16) (h : slot k = slot (r : Nat)) : k = r := by
  have number := congrArg Fin.val h
  simp only [slot] at number
  omega

/-- An operation changes its first operand, and the flag register if it has a flag to set. -/
theorem slot_eq_of_arithmetic {d : Dialect} {op : Alu} {x y r : Int}
    (changed : (regs.arithmetic d op x y).value r ≠ regs.value r) :
    slot x = slot r ∨
      slot flag = slot r ∧ Alu.flag d (regs.read x) (regs.read y) op ≠ none := by
  by_cases target : slot x = slot r
  · exact .inl target
  · right
    rw [arithmetic, value, read_put, if_neg target] at changed
    cases hf : Alu.flag d (regs.read x) (regs.read y) op with
    | none =>
      rw [hf] at changed
      exact absurd rfl changed
    | some b =>
      rw [hf] at changed
      exact ⟨slot_eq_of_put changed, by simp⟩

end Registers

namespace Machine

/-! ## What a word names -/

/-- An address that `Fx33` or `Fx55` writes. -/
def Covers (m : Machine) (w a : Nat) : Prop :=
  w / 4096 = 0xF ∧ m.index ≤ a ∧
    (w % 256 = 0x33 ∧ a < m.index + 3 ∨ w % 256 = 0x55 ∧ a ≤ m.index + (w / 256 % 16 : Nat))

instance (m : Machine) (w a : Nat) : Decidable (m.Covers w a) :=
  inferInstanceAs (Decidable (_ ∧ _))

/-- A register that the opcode table names as a destination: `Vx`, the flag register, or all registers
up to `Vx`. -/
def Targets (d : Dialect) (w : Nat) (r : Fin 16) : Prop :=
  (w / 256 % 16 = r ∧ (w / 4096 ∈ [0x6, 0x7, 0x8, 0xC] ∨ w / 4096 = 0xF ∧ w % 256 = 0x07)) ∨
  (r.val = 0xF ∧ (w / 4096 = 0xD ∨
    w / 4096 = 0x8 ∧ (w % 16 ∈ [0x4, 0x5, 0x6, 0x7, 0xE] ∨
      d.logicClearsFlag = true ∧ w % 16 ∈ [0x1, 0x2, 0x3]))) ∨
  (w / 4096 = 0xF ∧ w % 256 = 0x65 ∧ r ≤ w / 256 % 16)

/-- The word skips the next one: `3xkk`, `4xkk`, `5xy0`, `9xy0`, `Ex9E` and `ExA1`. -/
def Skips (m : Machine) (w : Nat) : Prop :=
  let vx := m.registers.value (w / 256 % 16 : Nat)
  let vy := m.registers.value (w / 16 % 16 : Nat)
  w / 4096 = 0x3 ∧ vx = (w % 256 : Nat) ∨ w / 4096 = 0x4 ∧ vx ≠ (w % 256 : Nat) ∨
  w / 4096 = 0x5 ∧ vx = vy ∨ w / 4096 = 0x9 ∧ vx ≠ vy ∨
  w / 4096 = 0xE ∧ w % 256 = 0x9E ∧ m.keys.isDown vx = true ∨
  w / 4096 = 0xE ∧ w % 256 = 0xA1 ∧ m.keys.isDown vx = false

instance (d : Dialect) (w : Nat) (r : Fin 16) : Decidable (Targets d w r) :=
  inferInstanceAs (Decidable (_ ∨ _))

instance (m : Machine) (w : Nat) : Decidable (m.Skips w) :=
  inferInstanceAs (Decidable (_ ∨ _))

/-- Where a word goes on: at its address, at the popped address, or behind the word or the next. -/
def pcBehind (m : Machine) (w : Nat) : Int :=
  if w / 4096 = 0x1 ∨ w / 4096 = 0x2 then (w % 4096 : Nat)
  else if w / 4096 = 0xB then (w % 4096 : Nat) + m.registers.value 0
  else if w = 0x00EE then m.stack.top.toNat
  else if m.Skips w then m.pc + 4
  else m.pc + 2

/-- What an executed word can change. -/
structure Footprint (m : Machine) (w : Nat) (after : Machine) : Prop where
  memory : ∀ a, after.memory.byteAt a ≠ m.memory.byteAt a → m.Covers w a
  memory_size : after.memory.size = m.memory.size
  display : after.display ≠ m.display → w = 0x00E0 ∨ w / 4096 = 0xD
  stack : after.stack ≠ m.stack → w / 4096 = 0x2 ∨ w = 0x00EE
  call : w / 4096 = 0x2 → after.stack.pointer = m.stack.pointer + 1 ∧
    ∀ k, k ≠ m.stack.pointer → after.stack.slots[k]? = m.stack.slots[k]?
  ret : w = 0x00EE → after.stack.pointer + 1 = m.stack.pointer ∧
    after.stack.slots = m.stack.slots
  registers : ∀ r : Fin 16, after.registers.value r ≠ m.registers.value r →
    Targets m.dialect w r
  index : after.index ≠ m.index → w / 4096 = 0xA ∨ w / 4096 = 0xF ∧ (w % 256 ∈ [0x1E, 0x29] ∨
    m.dialect.transferMovesIndex = true ∧ w % 256 ∈ [0x55, 0x65])
  delayTimer : after.delayTimer ≠ m.delayTimer → w / 4096 = 0xF ∧ w % 256 = 0x15
  soundTimer : after.soundTimer ≠ m.soundTimer → w / 4096 = 0xF ∧ w % 256 = 0x18
  waiting : after.waiting ≠ m.waiting → w / 4096 = 0xF ∧ w % 256 = 0x0A
  keysSeen : after.keysSeen ≠ m.keysSeen → w / 4096 = 0xF ∧ w % 256 = 0x0A
  random : after.random ≠ m.random → w / 4096 = 0xC
  keys : after.keys = m.keys
  dialect : after.dialect = m.dialect
  pc : after.pc = m.pcBehind w

/-! ## The parts of the state -/

variable {m : Machine} {w : Nat} {op : Operation}

section

variable (hw : w < 65536) (admitted : op.encoding.admits w = true)
include hw admitted

theorem covers_of_effect (allowed : m.fault? (.ofWord op w) = none) {a : Nat}
    (changed : (m.effect (.ofWord op w)).memory.byteAt a ≠ m.memory.byteAt a) :
    m.Covers w a := by
  rw [effect_eq] at changed
  cases op
  case storeDecimal =>
    obtain ⟨first, low⟩ := (Encoding.admits_lowByte hw (by decide) (by decide)).mp admitted
    obtain ⟨above, below⟩ := Memory.range_of_put (Microcode.digits_inBounds allowed) changed
    exact ⟨first, above, .inl ⟨low, below⟩⟩
  case storeRegisters =>
    obtain ⟨first, low⟩ := (Encoding.admits_lowByte hw (by decide) (by decide)).mp admitted
    obtain ⟨above, below⟩ := Memory.range_of_put (Microcode.registers_inBounds allowed) changed
    simp only [Registers.take, List.length_map, List.length_range, Instruction.ofWord] at below
    exact ⟨first, above, .inr ⟨low, by omega⟩⟩
  all_goals exact absurd rfl changed

theorem targets_of_effect (allowed : m.fault? (.ofWord op w) = none) {r : Fin 16}
    (changed : (m.effect (.ofWord op w)).registers.value r ≠ m.registers.value r) :
    Targets m.dialect w r := by
  have digit : w / 256 % 16 < 16 := Nat.mod_lt _ (by decide)
  rw [effect_eq] at changed
  cases op
  case loadByte | addByte | random =>
    have first := (Encoding.admits_firstDigit hw).mp admitted
    have named := Registers.slot_digit digit (Registers.slot_eq_of_put changed)
    exact .inl ⟨named, .inl (by simp [first])⟩
  case alu op =>
    have first := Operation.firstDigit_of_alu hw admitted
    rcases Registers.slot_eq_of_arithmetic changed with target | ⟨target, flagged⟩
    · exact .inl ⟨Registers.slot_digit digit target, .inl (by simp [first])⟩
    · have named : 15 = r.val := Registers.slot_digit (by decide) target
      refine .inr (.inl ⟨named.symm, .inr ⟨first, ?_⟩⟩)
      cases op
      case copy => exact absurd rfl flagged
      case or | and | xor =>
        have last := ((Encoding.admits_lastDigit hw).mp admitted).2
        have switched : m.dialect.logicClearsFlag = true := by
          by_contra off
          exact flagged (if_neg off)
        exact .inr ⟨switched, by simp [last]⟩
      -- the other operations always set the flag
      all_goals
        have last := ((Encoding.admits_lastDigit hw).mp admitted).2
        exact .inl (by simp [last])
  case draw =>
    have first := (Encoding.admits_firstDigit hw).mp admitted
    have named : 15 = r.val := Registers.slot_digit (by decide) (Registers.slot_eq_of_put changed)
    exact .inr (.inl ⟨named.symm, .inl first⟩)
  case readDelay =>
    have family := (Encoding.admits_lowByte hw (by decide) (by decide)).mp admitted
    have named := Registers.slot_digit digit (Registers.slot_eq_of_put changed)
    exact .inl ⟨named, .inr family⟩
  case loadRegisters =>
    obtain ⟨first, low⟩ := (Encoding.admits_lowByte hw (by decide) (by decide)).mp admitted
    obtain ⟨nonneg, -⟩ := Memory.fault?_eq_none_iff.mp allowed
    refine .inr (.inr ⟨first, low, ?_⟩)
    by_contra beyond
    refine changed (Registers.value_writeFrom 0 _ r ?_)
    have length := m.memory.length_slice_le nonneg
      (show 0 ≤ (Instruction.ofWord .loadRegisters w).x + 1 by simp only [Instruction.ofWord]; omega)
    simp only [Instruction.ofWord] at length ⊢
    omega
  all_goals exact absurd rfl changed

omit hw admitted in
theorem pcBehind_of_straight (h : w / 4096 ∈ [0x6, 0x7, 0x8, 0xA, 0xC, 0xD, 0xF]) :
    m.pcBehind w = m.pc + 2 := by
  have not_return : w ≠ 0x00EE := by
    rintro rfl
    exact absurd h (by decide)
  simp only [List.mem_cons, List.not_mem_nil, or_false] at h
  rcases h with h | h | h | h | h | h | h <;> simp [pcBehind, Skips, h, not_return]

omit hw admitted in
theorem pcBehind_of_skip (h : w / 4096 ∈ [0x3, 0x4, 0x5, 0x9, 0xE]) :
    m.pcBehind w = m.advanced.skipIf (decide (m.Skips w)) := by
  have not_return : w ≠ 0x00EE := by
    rintro rfl
    exact absurd h (by decide)
  have direct : ¬ (w / 4096 = 0x1 ∨ w / 4096 = 0x2) ∧ w / 4096 ≠ 0xB := by
    simp only [List.mem_cons, List.not_mem_nil, or_false] at h
    omega
  have behind : m.pc + 4 = m.advanced.pc + 2 := by
    show m.pc + 4 = m.pc + 2 + 2
    omega
  rw [pcBehind, if_neg direct.1, if_neg direct.2, if_neg not_return, behind]
  by_cases taken : m.Skips w <;> simp [skipIf, taken, advanced]

theorem next_ofWord : m.advanced.next (.ofWord op w) = m.pcBehind w := by
  cases op
  case nop | clearScreen =>
    have word := (Encoding.admits_word hw (by decide) (by decide) (by decide)).mp admitted
    subst word
    rfl
  case ret =>
    have word := (Encoding.admits_word hw (by decide) (by decide) (by decide)).mp admitted
    subst word
    rfl
  case jump =>
    have first := (Encoding.admits_firstDigit hw).mp admitted
    exact (if_pos (.inl first)).symm
  case call =>
    have first := (Encoding.admits_firstDigit hw).mp admitted
    exact (if_pos (.inr first)).symm
  case jumpOffset =>
    have first := (Encoding.admits_firstDigit hw).mp admitted
    have v0 := m.registers.value_mem 0
    rw [pcBehind, if_neg (by omega), if_pos first]
    -- twelve bits and a byte never leave sixteen bits
    show ((w % 4096 : Nat) + m.registers.value 0) % 65536 = _
    omega
  case skipIfByte | skipUnlessByte =>
    have first := (Encoding.admits_firstDigit hw).mp admitted
    rw [pcBehind_of_skip (by simp [first])]
    refine congrArg m.advanced.skipIf ?_
    simp [Skips, first, advanced, Instruction.ofWord, beq_eq_decide, bne]
  case skipIfEqual | skipUnlessEqual =>
    obtain ⟨first, -⟩ := (Encoding.admits_lastDigit hw).mp admitted
    rw [pcBehind_of_skip (by simp [first])]
    refine congrArg m.advanced.skipIf ?_
    simp [Skips, first, advanced, Instruction.ofWord, beq_eq_decide, bne]
  case skipIfKey | skipUnlessKey =>
    obtain ⟨first, low⟩ := (Encoding.admits_lowByte hw (by decide) (by decide)).mp admitted
    rw [pcBehind_of_skip (by simp [first])]
    refine congrArg m.advanced.skipIf ?_
    simp [Skips, first, low, advanced, Instruction.ofWord]
  case alu op =>
    have first := Operation.firstDigit_of_alu hw admitted
    exact (pcBehind_of_straight (by simp [first])).symm
  case loadByte | addByte | loadIndex | random | draw =>
    have first := (Encoding.admits_firstDigit hw).mp admitted
    exact (pcBehind_of_straight (by simp [first])).symm
  -- the other words begin with the digit `F`
  all_goals
    obtain ⟨first, -⟩ := (Encoding.admits_lowByte hw (by decide) (by decide)).mp admitted
    exact (pcBehind_of_straight (by simp [first])).symm

theorem display_of_effect (changed : (m.effect (.ofWord op w)).display ≠ m.display) :
    w = 0x00E0 ∨ w / 4096 = 0xD := by
  rw [effect_eq] at changed
  cases op
  case clearScreen =>
    exact .inl ((Encoding.admits_word hw (by decide) (by decide) (by decide)).mp admitted)
  case draw => exact .inr ((Encoding.admits_firstDigit hw).mp admitted)
  all_goals exact absurd rfl changed

theorem index_of_effect (changed : (m.effect (.ofWord op w)).index ≠ m.index) :
    w / 4096 = 0xA ∨ w / 4096 = 0xF ∧ (w % 256 ∈ [0x1E, 0x29] ∨
      m.dialect.transferMovesIndex = true ∧ w % 256 ∈ [0x55, 0x65]) := by
  rw [effect_eq] at changed
  cases op
  case loadIndex => exact .inl ((Encoding.admits_firstDigit hw).mp admitted)
  case addIndex | loadGlyph =>
    obtain ⟨first, low⟩ := (Encoding.admits_lowByte hw (by decide) (by decide)).mp admitted
    exact .inr ⟨first, .inl (by simp [low])⟩
  case storeRegisters | loadRegisters =>
    obtain ⟨first, low⟩ := (Encoding.admits_lowByte hw (by decide) (by decide)).mp admitted
    have switched : m.dialect.transferMovesIndex = true := by
      by_contra off
      exact changed (if_neg off)
    exact .inr ⟨first, .inr ⟨switched, by simp [low]⟩⟩
  all_goals exact absurd rfl changed

theorem stack_of_effect (changed : (m.effect (.ofWord op w)).stack ≠ m.stack) :
    w / 4096 = 0x2 ∨ w = 0x00EE := by
  rw [effect_eq] at changed
  cases op
  case call => exact .inl ((Encoding.admits_firstDigit hw).mp admitted)
  case ret => exact .inr ((Encoding.admits_word hw (by decide) (by decide) (by decide)).mp admitted)
  all_goals exact absurd rfl changed

theorem slots_of_call (call : w / 4096 = 0x2) :
    (m.effect (.ofWord op w)).stack.pointer = m.stack.pointer + 1 ∧
      ∀ k, k ≠ m.stack.pointer →
        (m.effect (.ofWord op w)).stack.slots[k]? = m.stack.slots[k]? := by
  obtain rfl : op = .call :=
    Operation.encoding_unique admitted ((Encoding.admits_firstDigit hw).mpr call)
  rw [effect_stack]
  refine ⟨rfl, ?_⟩
  intro k other
  exact Array.getElem?_setIfInBounds_ne (Ne.symm other)

theorem slots_of_ret (allowed : m.fault? (.ofWord op w) = none) (ret : w = 0x00EE) :
    (m.effect (.ofWord op w)).stack.pointer + 1 = m.stack.pointer ∧
      (m.effect (.ofWord op w)).stack.slots = m.stack.slots := by
  obtain rfl : op = .ret := Operation.encoding_unique admitted (by subst ret; decide)
  rw [effect_stack]
  have used : m.stack.pointer ≠ 0 := by
    intro unused
    have refused : m.stack.popFault? = some .stackUnderflow := if_pos unused
    exact absurd (refused.symm.trans allowed) (by simp)
  exact ⟨Nat.sub_add_cancel (Nat.pos_of_ne_zero used), rfl⟩

/-- A part that just one operation replaces changes only at its words. -/
theorem lowByte_of_only {α : Type} (part : Machine → α) {target : Operation} {c d : Nat} {new : α}
    (hc : c < 16) (hd : d < 16)
    (row : target.encoding = ⟨.fixed 0xF, .operand, .fixed c, .fixed d⟩)
    (only : part (m.effect (.ofWord op w)) = if op = target then new else part m)
    (changed : part (m.effect (.ofWord op w)) ≠ part m) :
    w / 4096 = 0xF ∧ w % 256 = 16 * c + d := by
  by_cases same : op = target
  · rw [same, row] at admitted
    exact (Encoding.admits_lowByte hw hc hd).mp admitted
  · rw [only, if_neg same] at changed
    exact absurd rfl changed

theorem random_of_effect (changed : (m.effect (.ofWord op w)).random ≠ m.random) :
    w / 4096 = 0xC := by
  rw [effect_eq] at changed
  cases op
  case random => exact (Encoding.admits_firstDigit hw).mp admitted
  all_goals exact absurd rfl changed

end

/-! ## Steps -/

/-- A step that executes a word keeps to the footprint of the word. -/
theorem Executes.footprint (h : m.Executes w) : m.Footprint w m.step.1 := by
  have hw := h.word_lt
  obtain ⟨op, admitted, allowed, stepped⟩ := h.operation
  have parts := m.advanced.effect_eq (.ofWord op w)
  rw [stepped]
  constructor
  case memory => exact fun a => covers_of_effect hw admitted allowed
  case memory_size =>
    show (m.advanced.effect (.ofWord op w)).memory.size = m.memory.size
    rw [parts]
    cases op
    case storeDecimal => exact Memory.size_put (Microcode.digits_inBounds allowed)
    case storeRegisters => exact Memory.size_put (Microcode.registers_inBounds allowed)
    all_goals rfl
  case display => exact display_of_effect hw admitted
  case stack => exact stack_of_effect hw admitted
  case call => exact slots_of_call hw admitted
  case ret => exact slots_of_ret hw admitted allowed
  case registers => exact fun r => targets_of_effect hw admitted allowed
  case index => exact index_of_effect hw admitted
  case delayTimer =>
    exact lowByte_of_only hw admitted delayTimer (by decide) (by decide) rfl
      (congrArg delayTimer parts)
  case soundTimer =>
    exact lowByte_of_only hw admitted soundTimer (by decide) (by decide) rfl
      (congrArg soundTimer parts)
  case waiting =>
    exact lowByte_of_only hw admitted waiting (by decide) (by decide) rfl (congrArg waiting parts)
  case keysSeen =>
    exact lowByte_of_only hw admitted keysSeen (by decide) (by decide) rfl
      (congrArg keysSeen parts)
  case random => exact random_of_effect hw admitted
  case keys => exact effect_keys ..
  case dialect => exact effect_dialect ..
  case pc => exact next_ofWord hw admitted

/-! ## Runs -/

/-- The action clears the memory. -/
def HostAction.Clears : HostAction → Prop
  | .reset | .load _ => True
  | .step | .tick | .press _ | .release _ | .setKeys _ | .awaitKey _ => False

instance : DecidablePred HostAction.Clears
  | .reset | .load _ => .isTrue trivial
  | .step | .tick | .press _ | .release _ | .setKeys _ | .awaitKey _ => .isFalse id

/-- Only steps that execute a word change the memory. -/
theorem perform_memory {action : HostAction} (kept : ¬ action.Clears)
    (idle : action = .step → ∀ w, ¬ m.Executes w) : (m.perform action).1.memory = m.memory := by
  cases action with
  | reset | load _ => exact absurd trivial kept
  | tick | press _ | release _ | awaitKey _ => rfl
  | setKeys states =>
    simp only [perform]
    cases Keypad.ofList states <;> rfl
  | step =>
    show m.step.1.memory = m.memory
    obtain ⟨_, _, _, _, same⟩ := step_idle (idle rfl)
    rw [same]

/-- A byte that a run changed was covered by a word that the run executed. -/
theorem covered_of_changed {history : List HostAction} (kept : ∀ a ∈ history, ¬ a.Clears) {a : Nat}
    (changed : (m.after history).memory.byteAt a ≠ m.memory.byteAt a) :
    ∃ e ∈ m.executions history, e.1.Covers e.2 a := by
  induction history generalizing m with
  | nil => exact absurd rfl changed
  | cons action rest ih =>
    have later : ∀ a ∈ rest, ¬ a.Clears := fun a ha => kept a (List.mem_cons_of_mem _ ha)
    rw [after_cons] at changed
    by_cases first : (m.perform action).1.memory.byteAt a = m.memory.byteAt a
    · rw [← first] at changed
      obtain ⟨e, executed, covers⟩ := ih later changed
      exact ⟨e, List.mem_append_right _ executed, covers⟩
    · -- the byte changed at once, so the first action was a step that executes a word
      by_cases executes : action = .step ∧ ∃ w, m.Executes w
      · obtain ⟨rfl, w, executes⟩ := executes
        refine ⟨(m, w), ?_, executes.footprint.memory a first⟩
        rw [executions_step executes]
        exact List.mem_cons_self
      · have idle : action = .step → ∀ w, ¬ m.Executes w :=
          fun step w hw => executes ⟨step, w, hw⟩
        rw [perform_memory (kept action List.mem_cons_self) idle] at first
        exact absurd rfl first

/-- After a load, whether it is accepted or refused, the font lies at the bottom of memory. -/
theorem Sized.font_loaded (h : m.Sized) (program : List UInt8) {i : Nat}
    (hi : i < Font.bytes.length) :
    (m.load program).1.memory.byteAt i = Font.bytes.getD i 0 := by
  have reset : m.reset.memory = initialMemory := by rw [h.reset_eq]; rfl
  rcases Nat.lt_or_ge programCapacity program.length with large | fits
  · rw [load_of_large m large, reset]
    exact byteAt_initialMemory i
  · rw [load_of_fits m fits, withProgram, reset]
    exact (holds_loaded fits).font i hi

/-- **The footprint of the instructions.** A step that executes a word changes no part of the machine
but those that the opcode table names for the word, and goes on where it says. So along any run a byte
of memory differs from its loaded value only if an executed `Fx33` or `Fx55` covered its address, and
the font stays in place if none covered an address of it. -/
theorem step_footprint :
    (∀ (m : Machine) (w : Nat), m.Executes w → m.Footprint w m.step.1) ∧
    ∀ (m : Machine) (program : List UInt8) (history : List HostAction),
      m.Sized → (∀ action ∈ history, ¬ action.Clears) →
      let start := (m.load program).1
      let after := start.after history
      (∀ a, after.memory.byteAt a ≠ start.memory.byteAt a →
        ∃ e ∈ start.executions history, e.1.Covers e.2 a) ∧
      ((∀ e ∈ start.executions history, ∀ a < Font.bytes.length, ¬ e.1.Covers e.2 a) →
        ∀ i < Font.bytes.length, after.memory.byteAt i = Font.bytes.getD i 0) := by
  refine ⟨fun m w h => h.footprint, ?_⟩
  intro m program history sized kept start after
  refine ⟨fun a => covered_of_changed kept, ?_⟩
  intro uncovered i hi
  rw [← sized.font_loaded program hi]
  by_contra changed
  obtain ⟨e, executed, covers⟩ := covered_of_changed kept changed
  exact uncovered e executed i hi covers

/-- The digits of a byte are written above the program, and not into the font. -/
theorem step_footprint_decimal :
    let start := ((powerOn .modern .zero).load [0xA3, 0x00, 0x6A, 0x7B, 0xFA, 0x33]).1
    let before := start.after [.step, .tick, .step]
    let history : List HostAction := [.step, .tick, .step, .step]
    before.step.1.pc = 0x206 ∧ before.step.1.registers.value 10 = 0x7B ∧
      (∃ e ∈ start.executions history, e.1.Covers e.2 0x301) ∧
      (start.after history).memory.byteAt 0x04F = Font.bytes.getD 0x04F 0 := by
  intro start before history
  obtain ⟨steps, runs⟩ := step_footprint
  have facts : (before.waiting = none ∧ before.memory.InBounds before.pc 2 ∧
        before.currentWord.toNat = 0xFA33 ∧ before.step.2 = none) ∧
      before.pcBehind 0xFA33 = 0x206 ∧ before.registers.value 10 = 0x7B ∧
      ¬ Targets before.dialect 0xFA33 10 ∧
      (start.after history).memory.byteAt 0x301 ≠ start.memory.byteAt 0x301 ∧
      ∀ e ∈ start.executions history, ∀ a < Font.bytes.length, ¬ e.1.Covers e.2 a := by
    decide +kernel
  obtain ⟨⟨awake, inside, word, succeeds⟩, next, value, other, digit, uncovered⟩ := facts
  have kept := steps before 0xFA33
    { awake := awake, inBounds := inside, word_eq := word, succeeds := succeeds }
  obtain ⟨covered, font⟩ := runs (powerOn .modern .zero) [0xA3, 0x00, 0x6A, 0x7B, 0xFA, 0x33]
    history (powerOn_wellFormed .modern .zero).sized (by decide)
  refine ⟨kept.pc.trans next, ?_, covered 0x301 digit, font uncovered 0x04F (by decide)⟩
  rw [← value]
  by_contra changed
  exact other (kept.registers 10 changed)

end Machine
end Chip8
