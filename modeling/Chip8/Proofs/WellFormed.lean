import Chip8.Machine.Host
import Chip8.Machine.WellFormed
import Chip8.Proofs.OpcodeTable
import Chip8.Proofs.Transition

/-!
# Machines stay well-formed

`Machine.WellFormed` holds after every history of a machine that was switched on, whatever a host
does and whatever program it loads (`Machine.wellFormed_after_powerOn`).

* One lemma for each part of the state that can be replaced;
* what an instruction leaves and where it goes on (`WellFormed.effect`, `WellFormed.next_mem`), from
  a program counter that a fetch has just moved;
* one step, one action of a host, and a history of them.

The bounds of the program counter and of the return addresses carry each other: a fetch needs a word
of memory, so a call stores at most `memorySize`, and a return goes back to no more than that.
-/

namespace Chip8

/-- The value of a register is a byte. -/
theorem Registers.value_mem (regs : Registers) (r : Int) :
    0 ≤ regs.value r ∧ regs.value r ≤ 0xFF := by
  have bound := (regs.read r).toNat_lt
  unfold value
  omega

namespace Machine
namespace WellFormed

variable {m : Machine}

/-! ## Replacing a part of the state -/

theorem withRegisters (h : m.WellFormed) (registers : Registers) :
    { m with registers := registers }.WellFormed := { h with }

theorem withMemory (h : m.WellFormed) {memory : Memory} (size : memory.size = m.memory.size) :
    { m with memory := memory }.WellFormed :=
  { h with memory_size := size.trans h.memory_size }

theorem withIndex (h : m.WellFormed) {index : Int} (low : 0 ≤ index) (high : index ≤ 0xFFFF) :
    { m with index := index }.WellFormed :=
  { h with index_nonneg := low, index_le := high }

theorem withPc (h : m.WellFormed) {pc : Int} (low : 0 ≤ pc) (high : pc ≤ pcLimit) :
    { m with pc := pc }.WellFormed :=
  { h with pc_nonneg := low, pc_le := high }

theorem withPixels (h : m.WellFormed) {pixels : Array Bool}
    (size : pixels.size = m.display.pixels.size) :
    { m with display := { m.display with pixels := pixels } }.WellFormed :=
  { h with pixels_size := size.trans h.pixels_size }

theorem withKeys (h : m.WellFormed) (keys : Keypad) : { m with keys := keys }.WellFormed :=
  { h with }

theorem withTimers (h : m.WellFormed) {delay sound : Int} (hd : 0 ≤ delay ∧ delay ≤ 0xFF)
    (hs : 0 ≤ sound ∧ sound ≤ 0xFF) :
    { m with delayTimer := delay, soundTimer := sound }.WellFormed :=
  { h with
    delay_nonneg := hd.1, delay_le := hd.2
    sound_nonneg := hs.1, sound_le := hs.2 }

/-- A return address from a fetch can be put on the stack, if a slot is left. -/
theorem pushed (h : m.WellFormed) {address : Int} (low : 0 ≤ address)
    (high : address ≤ memorySize) (room : m.stack.pushFault? = none) :
    { m with stack := m.stack.pushed address }.WellFormed := by
  have free : ¬ m.stack.capacity ≤ m.stack.pointer := by
    intro full
    simp [CallStack.pushFault?, full] at room
  have capacity := h.capacity_eq
  refine { h with slots_size := ?_, slots_le := ?_, pointer_le := ?_ }
  · rw [CallStack.pushed, Array.size_setIfInBounds]
    exact h.slots_size
  · intro a ha
    rcases Array.mem_or_eq_of_mem_setIfInBounds ha with old | new
    · exact h.slots_le a old
    · -- sixteen bits hold the address whole
      subst new
      unfold memorySize at high ⊢
      simp [UInt16.ofInt]
      omega
  · unfold CallStack.pushed stackSize at *
    simp only at *
    omega

theorem popped (h : m.WellFormed) : { m with stack := m.stack.popped }.WellFormed :=
  { h with pointer_le := Nat.le_trans (Nat.sub_le _ _) h.pointer_le }

/-- A return goes back to no more than the size of memory. -/
theorem top_le (h : m.WellFormed) : m.stack.top.toNat ≤ memorySize := by
  unfold CallStack.top
  rw [Array.getD_eq_getD_getElem?]
  cases hs : m.stack.slots[m.stack.pointer - 1]? with
  | none => simp
  | some a => exact h.slots_le a (Array.mem_of_getElem? hs)

/-! ## Instructions -/

theorem setFlag? (h : m.WellFormed) (flag : Option Bool) : (m.setFlag? flag).WellFormed := by
  cases flag with
  | none => exact h
  | some flag => exact h.withRegisters _

theorem arithmetic (h : m.WellFormed) (op : Alu) (x y : Int) :
    (m.arithmetic op x y).WellFormed :=
  (h.setFlag? _).withRegisters _

theorem drawSprite (h : m.WellFormed) (x y n : Int) : (m.drawSprite x y n).WellFormed :=
  (h.withPixels (Display.size_flipAll ..)).withRegisters _

theorem moveIndex (h : m.WellFormed) (length : Int) : (m.moveIndex length).WellFormed := by
  unfold Machine.moveIndex
  split
  · exact h.withIndex (by omega) (by omega)
  · exact h

/-- What an instruction leaves is well-formed, if the program counter is one that a fetch has just
moved and the address in the instruction has twelve bits. -/
theorem effect (h : m.WellFormed) (hpc : m.pc ≤ memorySize) {i : Instruction}
    (low : 0 ≤ i.nnn) (high : i.nnn ≤ 0xFFF) (hf : m.fault? i = none) :
    (m.effect i).WellFormed := by
  have value := m.registers.value_mem i.x
  unfold Machine.effect
  unfold Machine.fault? at hf
  cases hop : i.operation <;> simp only [hop] at hf ⊢
  case clearScreen => exact h.withPixels (Array.size_map ..)
  case ret => exact h.popped
  case call => exact h.pushed h.pc_nonneg hpc hf
  case alu op => exact h.arithmetic op i.x i.y
  case loadIndex => exact h.withIndex low (by omega)
  case draw => exact h.drawSprite i.x i.y i.n
  case awaitKey => exact { h with }
  case setDelay => exact h.withTimers value ⟨h.sound_nonneg, h.sound_le⟩
  case setSound => exact h.withTimers ⟨h.delay_nonneg, h.delay_le⟩ value
  case addIndex => exact h.withIndex (by omega) (by omega)
  case loadGlyph =>
    have digit : 0 ≤ m.registers.value i.x % 16 ∧ m.registers.value i.x % 16 < 16 := by omega
    unfold Font.glyphAddress Font.address Font.glyphSize
    exact h.withIndex (by omega) (by omega)
  case storeDecimal => exact h.withMemory (Memory.size_put (Microcode.digits_inBounds hf))
  case storeRegisters =>
    exact (h.withMemory (Memory.size_put (Microcode.registers_inBounds hf))).moveIndex _
  case loadRegisters => exact (h.withRegisters _).moveIndex _
  case loadByte | addByte | random | readDelay => exact { h with }
  -- jumps and skips change the program counter only
  all_goals exact h

/-- An instruction goes on within the bounds of the program counter. Only a jump with an offset
comes near the upper one. -/
theorem next_mem (h : m.WellFormed) (hpc : m.pc ≤ memorySize) {i : Instruction}
    (low : 0 ≤ i.nnn) (high : i.nnn ≤ 0xFFF) : 0 ≤ m.next i ∧ m.next i ≤ pcLimit := by
  have start := h.pc_nonneg
  have v0 := m.registers.value_mem 0
  have top := h.top_le
  have skip : ∀ b, 0 ≤ m.skipIf b ∧ m.skipIf b ≤ pcLimit := by
    intro b
    unfold memorySize at hpc
    unfold skipIf pcLimit
    split <;> omega
  unfold next
  cases i.operation
  case skipIfByte | skipUnlessByte | skipIfEqual | skipUnlessEqual | skipIfKey | skipUnlessKey =>
    exact skip _
  -- what is left goes to an address of twelve bits, behind one register value at most, to a return
  -- address, or on to the next instruction
  all_goals
    unfold memorySize at hpc top
    simp only [pcLimit]
    omega

/-! ## Steps -/

theorem pollKey (h : m.WellFormed) (r : Fin 16) : (m.pollKey r).WellFormed := by
  unfold Machine.pollKey
  cases Keypad.firstPressed? m.keysSeen m.keys <;> exact { h with }

/-- Behind a word in memory the program counter is at most the size of memory. -/
theorem advanced_pc_le (h : m.WellFormed) (inside : m.memory.InBounds m.pc 2) :
    m.advanced.pc ≤ memorySize := by
  obtain ⟨-, high⟩ := inside
  rw [h.memory_size] at high
  exact high

theorem advanced (h : m.WellFormed) (inside : m.memory.InBounds m.pc 2) :
    m.advanced.WellFormed := by
  have low := h.pc_nonneg
  have high : m.pc + 2 ≤ memorySize := h.advanced_pc_le inside
  unfold memorySize at high
  exact h.withPc (by omega) (by unfold pcLimit; omega)

theorem execute (h : m.WellFormed) (hpc : m.pc ≤ memorySize) {i : Instruction}
    (low : 0 ≤ i.nnn) (high : i.nnn ≤ 0xFFF) (hf : m.fault? i = none) :
    (m.execute i).WellFormed := by
  obtain ⟨nextLow, nextHigh⟩ := h.next_mem hpc low high
  exact { (h.effect hpc low high hf).withPc nextLow nextHigh with }

/-- A step leaves a well-formed machine, also when it faults. -/
theorem step (h : m.WellFormed) : m.step.1.WellFormed := by
  have transition := m.step_transition
  generalize m.step.1 = after, m.step.2 = f? at transition
  cases transition with
  | poll hw => exact h.pollKey _
  | unfetched hw hb => exact h
  | undecoded hw hd => exact h.advanced hw.inBounds
  | faulted hw hd hf => exact h.advanced hw.inBounds
  | @executed w i hw hd hf =>
    -- the address of an instruction has twelve bits because it was decoded from a word
    obtain ⟨-, hi⟩ := (Instruction.decode?_eq_some_iff hw.word_lt).mp hd
    obtain ⟨low, high⟩ := Instruction.nnn_ofWord_mem i.operation w
    rw [← hi] at low high
    exact (h.advanced hw.inBounds).execute (h.advanced_pc_le hw.inBounds) low high hf

/-! ## Histories -/

theorem tick (h : m.WellFormed) : m.tick.WellFormed := by
  have timer : ∀ t : Int, 0 ≤ t → t ≤ 0xFF → 0 ≤ tickTimer t ∧ tickTimer t ≤ 0xFF := by
    intro t low high
    unfold tickTimer
    split <;> omega
  exact h.withTimers (timer _ h.delay_nonneg h.delay_le) (timer _ h.sound_nonneg h.sound_le)

theorem reset (h : m.WellFormed) : m.reset.WellFormed := by
  rw [h.sized.reset_eq]
  exact powerOn_wellFormed m.dialect m.random

theorem load (h : m.WellFormed) (program : List UInt8) : (m.load program).1.WellFormed := by
  have fresh := h.reset
  unfold Machine.load
  split
  · exact fresh
  · rename_i fits
    exact fresh.withMemory (Memory.size_put (program_inBounds fresh.memory_size (Nat.not_lt.mp fits)))

/-- Every action of a host keeps the machine well-formed, whether it is refused or not. -/
theorem perform (h : m.WellFormed) (action : HostAction) : (m.perform action).1.WellFormed := by
  cases action with
  | reset => exact h.reset
  | load program => exact h.load program
  | step => exact h.step
  | tick => exact h.tick
  | press key => exact h.withKeys _
  | release key => exact h.withKeys _
  | setKeys states =>
    unfold Machine.perform
    cases hk : Keypad.ofList states with
    | ok keys => simpa only [hk] using h.withKeys keys
    | error e => simpa only [hk] using h
  | awaitKey register => exact { h with }

theorem after (h : m.WellFormed) (history : List HostAction) : (m.after history).WellFormed := by
  induction history generalizing m with
  | nil => exact h
  | cons action rest ih => exact ih (h.perform action)

end WellFormed

/-- What is loaded into any machine is well-formed. -/
theorem Sized.load_wellFormed {m : Machine} (h : m.Sized) (program : List UInt8) :
    (m.load program).1.WellFormed := by
  rw [h.load_eq]
  exact (powerOn_wellFormed m.dialect m.random).load program

/-- **The representation invariant.** After every history of a machine that was switched on, with
any dialect and any random bytes, the memory, the display and the call stack have their sizes, and
the return addresses, the stack pointer, the program counter, the index and the timers are within
their bounds. The registers, the cells of memory, the keys now and the keys last seen, and the
register that a key wait fills, are so by their types. -/
theorem wellFormed_after_powerOn (dialect : Dialect) (random : RandomSource)
    (history : List HostAction) : ((powerOn dialect random).after history).WellFormed :=
  (powerOn_wellFormed dialect random).after history

theorem inRange (m : Machine) : m.InRange where
  registers_length := Vector.length_toList
  registers_le := fun v _ => Nat.le_of_lt_succ v.toNat_lt
  bytes_le := fun b _ => Nat.le_of_lt_succ b.toNat_lt
  keys_length := Vector.length_toList
  keysSeen_length := Vector.length_toList
  waiting_le := fun r _ => Nat.le_of_lt_succ r.isLt

/-- With the ranges that the types carry, after every history: sixteen registers and 4096 cells of
memory hold bytes, both keypads have sixteen keys, and a key wait fills one of the registers. -/
theorem inRange_after_powerOn (dialect : Dialect) (random : RandomSource)
    (history : List HostAction) :
    ((powerOn dialect random).after history).InRange ∧
      ((powerOn dialect random).after history).memory.bytes.size = 4096 :=
  ⟨inRange _, ((powerOn_wellFormed dialect random).after history).memory_size⟩

end Machine
end Chip8
