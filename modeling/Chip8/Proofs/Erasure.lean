import Chip8.Proofs.Alike
import Chip8.Proofs.SessionRun
import Chip8.Proofs.WellFormed
import Mathlib.Data.List.GetD

/-!
# Loading erases all history

Whatever was done to two machines of the same dialect, if their random sources have the same bytes left
then they cannot be told apart once a program was loaded into both (`Machine.load_erases_history`). A
machine keeps the sizes and the dialect with which it was built (`Machine.Built.intervened`), and no
more than these, and the random bytes left, outlives a reset.
-/

namespace Chip8
namespace Machine

/-! ## What no intervention changes -/

/-- A machine was built with a dialect. -/
structure Built (m : Machine) (dialect : Dialect) : Prop extends m.Sized where
  dialect_eq : m.dialect = dialect

theorem powerOn_built (dialect : Dialect) (random : RandomSource) :
    (powerOn dialect random).Built dialect :=
  { (powerOn_wellFormed dialect random).sized with dialect_eq := rfl }

namespace Built

variable {m : Machine} {dialect : Dialect}

theorem load_eq (h : m.Built dialect) (program : List UInt8) :
    m.load program = (powerOn dialect m.random).load program := by
  rw [h.toSized.load_eq, h.dialect_eq]

theorem withRegisters (h : m.Built dialect) (registers : Registers) :
    { m with registers := registers }.Built dialect := { h with }

theorem withMemory (h : m.Built dialect) {memory : Memory} (size : memory.size = m.memory.size) :
    { m with memory := memory }.Built dialect :=
  { h with memory_size := size.trans h.memory_size }

theorem withPixels (h : m.Built dialect) {pixels : Array Bool}
    (size : pixels.size = m.display.pixels.size) :
    { m with display := { m.display with pixels := pixels } }.Built dialect :=
  { h with pixels_size := size.trans h.pixels_size }

theorem withStack (h : m.Built dialect) {stack : CallStack}
    (capacity : stack.capacity = m.stack.capacity) : { m with stack := stack }.Built dialect :=
  { h with capacity_eq := capacity.trans h.capacity_eq }

theorem moveIndex (h : m.Built dialect) (length : Int) : (m.moveIndex length).Built dialect := by
  rw [moveIndex_eq]
  exact { h with }

theorem effect (h : m.Built dialect) {i : Instruction} (hf : m.fault? i = none) :
    (m.effect i).Built dialect := by
  unfold Machine.effect
  unfold Machine.fault? at hf
  cases hop : i.operation <;> simp only [hop] at hf ⊢
  case clearScreen => exact h.withPixels (Array.size_map ..)
  case ret => exact h.withStack rfl
  case call => exact h.withStack rfl
  case alu op =>
    simp only [arithmetic_eq]
    exact h.withRegisters _
  case draw => exact (h.withPixels (Display.size_flipAll ..)).withRegisters _
  case storeDecimal => exact h.withMemory (Memory.size_put (Microcode.digits_inBounds hf))
  case storeRegisters =>
    exact (h.withMemory (Memory.size_put (Microcode.registers_inBounds hf))).moveIndex _
  case loadRegisters => exact (h.withRegisters _).moveIndex _
  -- what is left replaces registers, counters, the key wait or the random source
  all_goals exact { h with }

theorem execute (h : m.Built dialect) {i : Instruction} (hf : m.fault? i = none) :
    (m.execute i).Built dialect :=
  { h.effect hf with }

theorem step (h : m.Built dialect) : m.step.1.Built dialect := by
  have transition := m.step_transition
  generalize m.step.1 = after, m.step.2 = f? at transition
  cases transition with
  | @poll r hw =>
    obtain ⟨_, _, _, same⟩ := m.pollKey_frame r
    rw [same]
    exact { h with }
  | unfetched hw hb => exact h
  | undecoded hw hd => exact { h with }
  | faulted hw hd hf => exact { h with }
  | executed hw hd hf =>
    have advanced : m.advanced.Built dialect := { h with }
    exact advanced.execute hf

theorem reset (h : m.Built dialect) : m.reset.Built dialect := by
  rw [h.toSized.reset_eq, h.dialect_eq]
  exact powerOn_built dialect m.random

theorem load (h : m.Built dialect) (program : List UInt8) : (m.load program).1.Built dialect := by
  have fresh := h.reset
  unfold Machine.load
  split
  · exact fresh
  · rename_i fits
    exact fresh.withMemory (Memory.size_put (program_inBounds fresh.memory_size (Nat.not_lt.mp fits)))

theorem perform (h : m.Built dialect) (action : HostAction) :
    (m.perform action).1.Built dialect := by
  cases action with
  | reset => exact h.reset
  | load program => exact h.load program
  | step => exact h.step
  | setKeys states =>
    simp only [Machine.perform]
    cases Keypad.ofList states <;> exact { h with }
  | tick | press _ | release _ | awaitKey _ => exact { h with }

theorem after (h : m.Built dialect) (history : List HostAction) :
    (m.after history).Built dialect := by
  induction history generalizing m with
  | nil => exact h
  | cons action rest ih => exact ih (h.perform action)

theorem intervene (h : m.Built dialect) (i : Intervention) : (m.intervene i).1.Built dialect := by
  cases i with
  | act action => exact h.perform action
  | fetch =>
    simp only [Machine.intervene, Microcode.fetch_eq]
    cases m.memory.fault? m.pc 2 <;> exact { h with }
  | executeWord word =>
    simp only [Machine.intervene, Microcode.executeWord_eq]
    cases Instruction.decode? word with
    | none => exact h
    | some i =>
      cases hf : m.fault? i with
      | some f => simpa only [hf] using h
      | none => simpa only [hf] using h.execute hf
  | carryOut i =>
    simp only [Machine.intervene, Microcode.run_carryOut]
    cases hf : m.fault? i with
    | some f => exact h
    | none => exact h.effect hf
  | assign counter value => cases counter <;> exact { h with }
  | writeRegister register value => exact h.withRegisters _
  | writeMemory address block =>
    simp only [Machine.intervene, Memory.writeBlock, Memory.guarded]
    cases hf : m.memory.fault? address block.length with
    | some f => exact h
    | none => exact h.withMemory (Memory.size_put (Memory.fault?_eq_none_iff.mp hf))
  | push address =>
    simp only [Machine.intervene, CallStack.push]
    cases m.stack.pushFault? with
    | some f => exact h
    | none => exact h.withStack rfl
  | pop =>
    simp only [Machine.intervene, CallStack.pop]
    cases m.stack.popFault? with
    | some f => exact h
    | none => exact h.withStack rfl
  | draw x y sprite => exact h.withPixels (Display.size_flipAll ..)
  | fill => exact h.withPixels (Array.size_map ..)
  | clear part =>
    cases part
    case memory => exact h.withMemory (Memory.size_clear _)
    case registers => exact h.withRegisters _
    case stack => exact h.withStack rfl
    case display => exact h.withPixels (Array.size_map ..)

theorem intervened (h : m.Built dialect) (interventions : List Intervention) :
    (m.intervened interventions).1.Built dialect := by
  induction interventions generalizing m with
  | nil => exact h
  | cons i rest ih => exact ih (h.intervene i)

end Built

/-! ## Memory after loading -/

/-- The font lies at the bottom of memory, the program from its start on, and zeros elsewhere. -/
structure Holds (memory : Memory) (program : List UInt8) : Prop where
  size_eq : memory.size = memorySize
  font : ∀ i, i < Font.bytes.length → memory.byteAt i = Font.bytes.getD i 0
  loaded : ∀ i, i < program.length → memory.byteAt (programStart + i) = program.getD i 0
  zero : ∀ a, Font.bytes.length ≤ a → a < programStart ∨ programStart + program.length ≤ a →
    memory.byteAt a = 0

theorem byteAt_initialMemory (a : Nat) : initialMemory.byteAt a = Font.bytes.getD a 0 := by
  rw [initialMemory, Memory.byteAt_put font_inBounds, Memory.byteAt_zeroed, List.getD_eq_getElem?_getD]
  exact if_pos (Int.natCast_nonneg a)

theorem holds_loaded {program : List UInt8} (fits : program.length ≤ programCapacity) :
    Holds (initialMemory.put programStart program) program := by
  have inside := program_inBounds size_initialMemory fits
  have at_address : ∀ a : Nat, (initialMemory.put programStart program).byteAt a =
      if programStart ≤ a then program[a - programStart]?.getD (Font.bytes.getD a 0)
      else Font.bytes.getD a 0 := by
    intro a
    rw [Memory.byteAt_put inside, byteAt_initialMemory, Int.toNat_natCast]
    simp only [Int.ofNat_le]
  have font_end : ∀ a, 80 ≤ a → Font.bytes.getD a 0 = 0 := by
    intro a ha
    exact List.getD_eq_default _ _ ha
  constructor
  case size_eq => rw [Memory.size_put inside, size_initialMemory]
  case font =>
    intro i hi
    have below : i < 80 := hi
    rw [at_address i, if_neg (by unfold programStart; omega)]
  case loaded =>
    intro i hi
    rw [at_address, if_pos (by omega), Nat.add_sub_cancel_left, List.getElem?_eq_getElem hi,
      Option.getD_some, List.getD_eq_getElem _ _ hi]
  case zero =>
    intro a ha outside
    rw [at_address a, font_end a ha]
    split
    · rename_i high
      rw [List.getElem?_eq_none (by omega), Option.getD_none]
    · rfl

/-! ## Two machines -/

theorem load_of_fits (m : Machine) {program : List UInt8} (fits : program.length ≤ programCapacity) :
    m.load program = (m.reset.withProgram program, none) :=
  if_neg (Nat.not_lt.mpr fits)

theorem load_of_large (m : Machine) {program : List UInt8} (large : programCapacity < program.length) :
    m.load program =
      (m.reset, some (.programTooLarge program.length programCapacity)) :=
  if_pos large

/-- What is loaded depends on the dialect and the random bytes left. -/
theorem Built.load_alike {a b : Machine} {dialect : Dialect} (ha : a.Built dialect)
    (hb : b.Built dialect) (stream : b.random.remaining = a.random.remaining)
    (program : List UInt8) :
    (b.load program).2 = (a.load program).2 ∧ Alike (a.load program).1 (b.load program).1 := by
  have fresh : Alike (powerOn dialect a.random) (powerOn dialect b.random) :=
    ⟨b.random, stream, rfl⟩
  rw [ha.load_eq, hb.load_eq]
  exact fresh.load program

end Machine

/-! ## Two sessions -/

namespace Session

variable {s t : Session}

theorem load_clock (s : Session) (program : List UInt8) : (s.load program).1.clock = s.clock := by
  rw [load]
  rcases s.machine.load program with ⟨m, _ | f⟩ <;> rfl

/-- A load that is accepted ends a halt, and one that is refused does not. -/
theorem load_halted (s : Session) (program : List UInt8) :
    (s.load program).1.halted =
      if program.length ≤ Machine.programCapacity then false else s.halted := by
  rcases Nat.lt_or_ge Machine.programCapacity program.length with large | fits
  · rw [if_neg (Nat.not_le.mpr large), load, Machine.load_of_large _ large, halted, halted]
  · rw [if_pos fits, load, Machine.load_of_fits _ fits, halted, Option.isSome_none]

theorem load_alike {dialect : Dialect} (hs : s.machine.Built dialect) (ht : t.machine.Built dialect)
    (stream : t.machine.random.remaining = s.machine.random.remaining) (clock : t.clock = s.clock)
    {program : List UInt8}
    (running : program.length ≤ Machine.programCapacity ∨ t.halted = s.halted) :
    Session.Alike (s.load program).1 (t.load program).1 := by
  constructor
  case machine =>
    rw [load_machine, load_machine]
    exact (hs.load_alike ht stream program).2
  case clock_eq => rw [load_clock, load_clock, clock]
  case halted_eq =>
    rw [load_halted, load_halted]
    rcases running with fits | halted
    · rw [if_pos fits, if_pos fits]
    · rw [halted]

end Session

namespace Machine

/-- **Loading erases all history.** Two machines of one dialect, whatever a host did to them, with the
same random bytes left, answer a load with the same outcome and become alike: each is what a machine
just switched on becomes, with the font, the program and zeros elsewhere in its memory. A program that
does not fit leaves the power-on state. All that a host does from then on has the same answers on
both, and so have all frames of two sessions over them with equal clocks, limits included, unless the
load was refused and left only one of the two halted. -/
theorem load_erases_history {dialect : Dialect} {random₁ random₂ : RandomSource}
    {past₁ past₂ : List Intervention}
    (stream : ((powerOn dialect random₂).intervened past₂).1.random.remaining =
      ((powerOn dialect random₁).intervened past₁).1.random.remaining)
    (program : List UInt8) :
    let a := ((powerOn dialect random₁).intervened past₁).1
    let b := ((powerOn dialect random₂).intervened past₂).1
    ((b.load program).2 = (a.load program).2 ∧ Alike (a.load program).1 (b.load program).1) ∧
    a.load program = (powerOn dialect a.random).load program ∧
    (program.length ≤ programCapacity →
      (a.load program).2 = none ∧ Holds (a.load program).1.memory program) ∧
    (programCapacity < program.length →
      a.load program =
        (powerOn dialect a.random, some (.programTooLarge program.length programCapacity))) ∧
    (∀ later, ((b.load program).1.intervened later).2 = ((a.load program).1.intervened later).2 ∧
      Alike ((a.load program).1.intervened later).1 ((b.load program).1.intervened later).1) ∧
    ∀ s t : Session, s.machine = a → t.machine = b → t.clock = s.clock →
      (program.length ≤ programCapacity ∨ t.halted = s.halted) → ∀ calls n,
      (t.load program).1.answerAt calls n = (s.load program).1.answerAt calls n := by
  intro a b
  have ha : a.Built dialect := (powerOn_built dialect random₁).intervened past₁
  have hb : b.Built dialect := (powerOn_built dialect random₂).intervened past₂
  have loaded := ha.load_alike hb stream program
  have reset : a.reset = powerOn dialect a.random := by
    rw [ha.toSized.reset_eq, ha.dialect_eq]
  refine ⟨loaded, ha.load_eq program, ?_, ?_, ?_, ?_⟩
  · intro fits
    rw [load_of_fits a fits, reset]
    exact ⟨rfl, holds_loaded fits⟩
  · intro large
    rw [load_of_large a large, reset]
  · intro later
    exact loaded.2.intervened later
  · intro s t hs ht clock running calls n
    rw [← hs] at ha
    rw [← ht] at hb
    have same : t.machine.random.remaining = s.machine.random.remaining := by
      rw [hs, ht]
      exact stream
    exact (Session.load_alike ha hb same clock running).answerAt_eq calls n

/-- A machine with an index out of range, junk on its stack and a key wait is as good as new. -/
theorem load_erases_wait :
    let m := ((powerOn .modern .zero).intervened
      [.assign .index (-1), .push 9, .act (.press 3), .act (.awaitKey 5)]).1
    m.waiting = some 5 ∧ m.stack.pointer = 1 ∧
      m.load [0x12, 0x00] = (powerOn .modern .zero).load [0x12, 0x00] := by
  intro m
  have past : m.random = .zero ∧ m.waiting = some 5 ∧ m.stack.pointer = 1 := ⟨rfl, rfl, rfl⟩
  have stream : ((powerOn .modern .zero).intervened []).1.random.remaining = m.random.remaining := rfl
  obtain ⟨-, fresh, -⟩ := load_erases_history stream [0x12, 0x00]
  exact ⟨past.2.1, past.2.2, fresh⟩

/-- Equal rates and debts do not make equal clocks: the longest time that a frame accounts for outlives
a load. And a load that is refused leaves a session halted that was. -/
theorem load_keeps_limit_and_fault :
    let released := List.replicate 16 false
    let fresh : Int → Binary64 → Session := fun rate limit =>
      .start (powerOn .modern .zero) ⟨rate, 60, limit, .zero, .zero⟩
    let half : Binary64 := .finite false (Binary64.unitsPerOne / 2)
    let quarter : Binary64 := .finite false (Binary64.unitsPerOne / 4)
    let short := ((fresh 8 quarter).load [0x12, 0x00]).1
    let long := ((fresh 8 half).load [0x12, 0x00]).1
    let halted := (((fresh 60 quarter).load [0x00, 0xEE]).1.runFrame released none).1
    let running := (((fresh 60 quarter).load [0x12, 0x00]).1.runFrame released none).1
    let large := List.replicate 3585 0
    let ratesAndDebts : Session → (Int × Int) × Binary64 × Binary64 := fun s =>
      ((s.clock.cpuRate, s.clock.timerRate), s.clock.cpuDebt, s.clock.timerDebt)
    ratesAndDebts short = ratesAndDebts long ∧
      (short.runFrame released (some half)).2 ≠ (long.runFrame released (some half)).2 ∧
      ratesAndDebts halted = ratesAndDebts running ∧
      ((halted.load large).1.runFrame released none).2 ≠
        ((running.load large).1.runFrame released none).2 := by
  intro released fresh half quarter short long halted running large ratesAndDebts
  have reports : (short.runFrame released (some half)).2.toOption ≠
      (long.runFrame released (some half)).2.toOption ∧
      ((halted.load large).1.runFrame released none).2.toOption ≠
        ((running.load large).1.runFrame released none).2.toOption := by
    decide +kernel
  refine ⟨by decide +kernel, ?_, by decide +kernel, ?_⟩
  · intro same
    exact reports.1 (congrArg Except.toOption same)
  · intro same
    exact reports.2 (congrArg Except.toOption same)

end Machine
end Chip8
