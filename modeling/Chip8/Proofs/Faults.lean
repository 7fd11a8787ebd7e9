import Chip8.Proofs.WellFormed

/-!
# The faults of a step

A step of a well-formed machine faults exactly in the cases of `Machine.StepFault`, with the numbers
that they name, and uses no cell that is not there (`Machine.step_fault_iff`). A fault of any machine
leaves it as it was, but for the program counter (`Machine.step_of_fault`).
-/

namespace Chip8

theorem Memory.fault?_eq_some_iff {m : Memory} {address width : Int} {f : Fault} :
    m.fault? address width = some f ↔ ¬ m.InBounds address width ∧ f = .outOfBounds address width := by
  unfold fault?
  split <;> simp_all [eq_comm]

/-- A grid with columns, rows and all its pixels has a pixel at every position. -/
theorem Display.cell_lt {d : Display} (hw : 0 < d.width) (hh : 0 < d.height)
    (size : (d.pixels.size : Int) = d.width * d.height) (x y : Int) :
    d.cell x y < d.pixels.size := by
  have column := Int.fmod_lt_of_pos x hw
  have columnLow := Int.fmod_nonneg_of_pos x hw
  have row := Int.fmod_lt_of_pos y hh
  have rowLow := Int.fmod_nonneg_of_pos y hh
  have low : 0 ≤ d.offset x y := by
    have := Int.mul_nonneg rowLow (Int.le_of_lt hw)
    unfold offset
    omega
  have high : d.offset x y < d.pixels.size := by
    -- the row of the cell ends within the grid
    have : (y.fmod d.height + 1) * d.width ≤ d.height * d.width :=
      Int.mul_le_mul_of_nonneg_right (by omega) (by omega)
    rw [size, Int.mul_comm d.width]
    rw [Int.add_mul] at this
    unfold offset
    omega
  unfold cell
  simp only
  split <;> omega

namespace Machine

/-! ## Which faults there are -/

/-- The faults of a step, each with the state and the word that lead to it. A suspended machine has
none. -/
inductive StepFault (m : Machine) : Fault → Prop
  /-- There is no word at the program counter. -/
  | fetch : m.waiting = none → memorySize ≤ m.pc + 1 → StepFault m (.outOfBounds m.pc 2)
  /-- The opcode table does not list the word. -/
  | opcode {w} : m.Fetches w → ¬ Operation.Listed w → StepFault m (.unimplementedOpcode w)
  /-- A call, `2nnn`, with every slot in use. -/
  | call {w} : m.Fetches w → w / 4096 = 0x2 → m.stack.pointer = stackSize →
      StepFault m (.stackOverflow stackSize)
  /-- A return, `00EE`, with no call open. -/
  | ret {w} : m.Fetches w → w = 0x00EE → m.stack.pointer = 0 → StepFault m .stackUnderflow
  /-- A sprite, `Dxyn`, with a row behind the memory. -/
  | draw {w} : m.Fetches w → w / 4096 = 0xD → memorySize < m.index + (w % 16 : Nat) →
      StepFault m (.outOfBounds m.index (w % 16 : Nat))
  /-- The digits of a register, `Fx33`, with one behind the memory. -/
  | decimal {w} : m.Fetches w → w / 4096 = 0xF → w % 256 = 0x33 → memorySize < m.index + 3 →
      StepFault m (.outOfBounds m.index 3)
  /-- A transfer of the registers up to `Vx`, `Fx55` or `Fx65`, with one behind the memory. -/
  | transfer {w} : m.Fetches w → w / 4096 = 0xF → w % 256 = 0x55 ∨ w % 256 = 0x65 →
      memorySize < m.index + ((w / 256 % 16 : Nat) + 1) →
      StepFault m (.outOfBounds m.index ((w / 256 % 16 : Nat) + 1))

/-- Every cell of memory, call stack and display that an instruction uses is there. -/
def CellsExist (m : Machine) (i : Instruction) : Prop :=
  match i.operation with
  | .ret => m.stack.pointer - 1 < m.stack.slots.size
  | .call => m.stack.pointer < m.stack.slots.size
  | .draw =>
    let sprite := m.memory.slice m.index i.n
    m.memory.InBounds m.index i.n ∧ m.display.drawError? sprite = none ∧
      ∀ cell ∈ m.display.touched (m.registers.value i.x) (m.registers.value i.y) sprite,
        cell < m.display.pixels.size
  | .storeDecimal => m.memory.InBounds m.index 3
  | .storeRegisters | .loadRegisters => m.memory.InBounds m.index (i.x + 1)
  | _ => True

variable {m : Machine} {w : Nat} {f : Fault}

/-- In a well-formed machine an access is refused only because its end leaves the memory. -/
theorem WellFormed.access_fault_iff (h : m.WellFormed) {width : Int} :
    m.memory.fault? m.index width = some f ↔
      memorySize < m.index + width ∧ f = .outOfBounds m.index width := by
  have low := h.index_nonneg
  rw [Memory.fault?_eq_some_iff, Memory.InBounds, h.memory_size]
  constructor
  · rintro ⟨outside, rfl⟩
    exact ⟨by omega, rfl⟩
  · rintro ⟨outside, rfl⟩
    exact ⟨by omega, rfl⟩

theorem WellFormed.push_fault_iff (h : m.WellFormed) :
    m.stack.pushFault? = some f ↔ m.stack.pointer = stackSize ∧ f = .stackOverflow stackSize := by
  have capacity := h.capacity_eq
  have pointer := h.pointer_le
  unfold CallStack.pushFault?
  rw [capacity]
  split
  · have full : m.stack.pointer = stackSize := by omega
    simp [full, eq_comm]
  · have free : m.stack.pointer ≠ stackSize := by omega
    simp [free]

theorem pop_fault_iff : m.stack.popFault? = some f ↔ m.stack.pointer = 0 ∧ f = .stackUnderflow := by
  unfold CallStack.popFault?
  split <;> simp_all [eq_comm]

/-- An instruction that cannot be executed has one of the faults of a step. -/
theorem WellFormed.stepFault_of_instruction (h : m.WellFormed) (fetched : m.Fetches w)
    {i : Instruction} (hd : Instruction.decode? w = some i) (hf : m.fault? i = some f) :
    m.StepFault f := by
  have hw := fetched.word_lt
  obtain ⟨admitted, hi⟩ := (Instruction.decode?_eq_some_iff hw).mp hd
  have hn : i.n = (w % 16 : Nat) := by rw [hi]; rfl
  have hx : i.x = (w / 256 % 16 : Nat) := by rw [hi]; rfl
  have count : ((i.x + 1).toNat : Int) = (w / 256 % 16 : Nat) + 1 := by omega
  unfold fault? at hf
  cases hop : i.operation <;> simp only [hop] at hf admitted
  case ret =>
    obtain ⟨empty, rfl⟩ := pop_fault_iff.mp hf
    have word := (Encoding.admits_word hw (by decide) (by decide) (by decide)).mp admitted
    exact .ret fetched word empty
  case call =>
    obtain ⟨full, rfl⟩ := h.push_fault_iff.mp hf
    exact .call fetched ((Encoding.admits_firstDigit hw).mp admitted) full
  case draw =>
    obtain ⟨outside, rfl⟩ := h.access_fault_iff.mp hf
    rw [hn] at outside ⊢
    exact .draw fetched ((Encoding.admits_firstDigit hw).mp admitted) outside
  case storeDecimal =>
    obtain ⟨outside, rfl⟩ := h.access_fault_iff.mp hf
    obtain ⟨first, low⟩ := (Encoding.admits_lowByte hw (by decide) (by decide)).mp admitted
    exact .decimal fetched first low outside
  case storeRegisters =>
    obtain ⟨outside, rfl⟩ := h.access_fault_iff.mp hf
    obtain ⟨first, low⟩ := (Encoding.admits_lowByte hw (by decide) (by decide)).mp admitted
    rw [count] at outside ⊢
    exact .transfer fetched first (.inl low) outside
  case loadRegisters =>
    obtain ⟨outside, rfl⟩ := h.access_fault_iff.mp hf
    obtain ⟨first, low⟩ := (Encoding.admits_lowByte hw (by decide) (by decide)).mp admitted
    rw [hx] at outside ⊢
    exact .transfer fetched first (.inr low) outside
  -- no other operation can fault
  all_goals exact absurd hf (by simp)

/-- A word of the encoding of an operation decodes to it, with its digits as operands. -/
theorem Fetches.decode?_eq (fetched : m.Fetches w) {op : Operation}
    (admitted : op.encoding.admits w = true) :
    Instruction.decode? w = some (.ofWord op w) :=
  (Instruction.decode?_eq_some_iff fetched.word_lt).mpr ⟨admitted, rfl⟩

/-- Where an instruction cannot be executed, the step faults. -/
theorem Fetches.step_fault (fetched : m.Fetches w) (op : Operation)
    (admitted : op.encoding.admits w = true) (hf : m.fault? (.ofWord op w) = some f) :
    m.step.2 = some f := by
  have faulted : m.Transition m.advanced (some f) :=
    .faulted fetched (fetched.decode?_eq admitted) hf
  rw [faulted.step_eq]

/-- Each of the faults of a step arises. -/
theorem WellFormed.step_of_stepFault (h : m.WellFormed) (hf : m.StepFault f) :
    m.step.2 = some f := by
  cases hf with
  | fetch awake outside =>
    have unfetched : ¬ m.memory.InBounds m.pc 2 := by
      rintro ⟨-, high⟩
      rw [h.memory_size] at high
      omega
    rw [step_of_unfetched awake unfetched]
  | opcode fetched unlisted =>
    have undecoded := (Instruction.decode?_eq_none_iff fetched.word_lt).mpr unlisted
    rw [(Transition.undecoded fetched undecoded).step_eq]
  | call fetched first full =>
    exact fetched.step_fault .call ((Encoding.admits_firstDigit fetched.word_lt).mpr first)
      (h.push_fault_iff.mpr ⟨full, rfl⟩)
  | ret fetched word empty =>
    exact fetched.step_fault .ret
      ((Encoding.admits_word fetched.word_lt (by decide) (by decide) (by decide)).mpr word)
      (pop_fault_iff.mpr ⟨empty, rfl⟩)
  | draw fetched first outside =>
    exact fetched.step_fault .draw ((Encoding.admits_firstDigit fetched.word_lt).mpr first)
      (h.access_fault_iff.mpr ⟨outside, rfl⟩)
  | decimal fetched first low outside =>
    exact fetched.step_fault .storeDecimal
      ((Encoding.admits_lowByte fetched.word_lt (by decide) (by decide)).mpr ⟨first, low⟩)
      (h.access_fault_iff.mpr ⟨outside, rfl⟩)
  | transfer fetched first low outside =>
    rcases low with low | low
    · exact fetched.step_fault .storeRegisters
        ((Encoding.admits_lowByte fetched.word_lt (by decide) (by decide)).mpr ⟨first, low⟩)
        (h.access_fault_iff.mpr ⟨outside, rfl⟩)
    · exact fetched.step_fault .loadRegisters
        ((Encoding.admits_lowByte fetched.word_lt (by decide) (by decide)).mpr ⟨first, low⟩)
        (h.access_fault_iff.mpr ⟨outside, rfl⟩)

/-! ## No cell is missing -/

theorem WellFormed.drawError?_eq_none (h : m.WellFormed) (sprite : Sprite) :
    m.display.drawError? sprite = none := by
  have position : m.display.positionError? = none := by
    unfold Display.positionError?
    rw [h.display_width, h.display_height]
    decide
  unfold Display.drawError?
  rw [position, h.display_height]
  simp [screenHeight]

theorem WellFormed.cell_lt (h : m.WellFormed) (x y : Int) :
    m.display.cell x y < m.display.pixels.size := by
  refine Display.cell_lt ?_ ?_ ?_ x y
  · rw [h.display_width]
    decide
  · rw [h.display_height]
    decide
  · rw [h.display_width, h.display_height, h.pixels_size]
    decide

/-- What an instruction uses is there, if it can be executed at all. -/
theorem WellFormed.cellsExist (h : m.WellFormed) {i : Instruction} (hx : 0 ≤ i.x)
    (hf : m.fault? i = none) : m.CellsExist i := by
  have pointer := h.pointer_le
  have slots := h.slots_size
  unfold CellsExist
  unfold fault? at hf
  cases hop : i.operation <;> simp only [hop] at hf ⊢
  case ret =>
    have used : m.stack.pointer ≠ 0 := by
      intro empty
      rw [pop_fault_iff.mpr ⟨empty, rfl⟩] at hf
      exact absurd hf (by simp)
    unfold stackSize at pointer slots
    omega
  case call =>
    have free : m.stack.pointer ≠ stackSize := by
      intro full
      rw [h.push_fault_iff.mpr ⟨full, rfl⟩] at hf
      exact absurd hf (by simp)
    omega
  case draw =>
    refine ⟨Memory.fault?_eq_none_iff.mp hf, h.drawError?_eq_none _, ?_⟩
    intro cell touched
    obtain ⟨point, -, rfl⟩ := List.mem_map.mp touched
    exact h.cell_lt _ _
  case storeDecimal | loadRegisters => exact Memory.fault?_eq_none_iff.mp hf
  case storeRegisters =>
    -- a store counts its bytes, where a load takes the width as it is
    have inside := Memory.fault?_eq_none_iff.mp hf
    rwa [Int.toNat_of_nonneg (by omega)] at inside

/-! ## The faults of a step -/

/-- **The exact faults of a step.** A step of a well-formed machine faults in the cases of
`StepFault`, with the numbers named there, and succeeds in all others. Nothing else can go wrong:
whatever word is decoded, its mnemonic is one under which an instruction can be executed, and an
instruction that does not fault uses only cells of memory, call stack and display that are there. -/
theorem step_fault_iff (h : m.WellFormed) :
    (∀ f, m.step.2 = some f ↔ m.StepFault f) ∧
    ∀ w i, m.Fetches w → Instruction.decode? w = some i →
      Instruction.assemble i.operation.mnemonic i.word i.x i.y i.n i.kk i.nnn = .ok i ∧
        (m.advanced.fault? i = none → m.advanced.CellsExist i) := by
  constructor
  · intro f
    constructor
    · intro hf
      have transition := m.step_transition
      rw [hf] at transition
      generalize m.step.1 = after at transition
      cases transition with
      | unfetched hw hb =>
        have low := h.pc_nonneg
        rw [Memory.InBounds, h.memory_size] at hb
        exact .fetch hw (by omega)
      | undecoded hw hd => exact .opcode hw ((Instruction.decode?_eq_none_iff hw.word_lt).mp hd)
      | faulted hw hd hf => exact h.stepFault_of_instruction hw hd hf
    · exact h.step_of_stepFault
  · intro w i fetched hd
    obtain ⟨-, hi⟩ := (Instruction.decode?_eq_some_iff fetched.word_lt).mp hd
    have hx : 0 ≤ i.x := by
      rw [hi]
      exact Int.natCast_nonneg _
    constructor
    · exact Instruction.assemble_eq_ok_iff.mpr ⟨rfl, rfl⟩
    · exact (h.advanced fetched.inBounds).cellsExist hx

/-- The digits of a register from `FFE` on would end behind the memory. -/
theorem step_fault_behind_memory :
    ((powerOn .modern .zero).load [0xAF, 0xFE, 0xF0, 0x33]).1.step.1.WellFormed ∧
      ((powerOn .modern .zero).load [0xAF, 0xFE, 0xF0, 0x33]).1.step.1.step.2 =
        some (.outOfBounds 0xFFE 3) := by
  have h := ((powerOn_wellFormed .modern .zero).load [0xAF, 0xFE, 0xF0, 0x33]).step
  have state : ((powerOn .modern .zero).load [0xAF, 0xFE, 0xF0, 0x33]).1.step.1.index = 0xFFE ∧
      ((powerOn .modern .zero).load [0xAF, 0xFE, 0xF0, 0x33]).1.step.1.waiting = none ∧
      ((powerOn .modern .zero).load [0xAF, 0xFE, 0xF0, 0x33]).1.step.1.memory.InBounds
        ((powerOn .modern .zero).load [0xAF, 0xFE, 0xF0, 0x33]).1.step.1.pc 2 ∧
      ((powerOn .modern .zero).load [0xAF, 0xFE, 0xF0, 0x33]).1.step.1.currentWord = 0xF033 := by
    decide +kernel
  generalize ((powerOn .modern .zero).load [0xAF, 0xFE, 0xF0, 0x33]).1.step.1 = m at h state ⊢
  obtain ⟨index, awake, inside, word⟩ := state
  refine ⟨h, ((step_fault_iff h).1 _).mpr ?_⟩
  rw [← index]
  exact .decimal ⟨awake, inside, congrArg UInt16.toNat word⟩ rfl rfl (by rw [index]; decide)

/-- **A fault changes nothing else.** A step that faults leaves every part of the machine as it was,
also those that its instruction would have changed before the access that failed: where the fetch
itself faulted the whole machine, and otherwise all but the program counter, which is behind the
word. -/
theorem step_of_fault (hf : m.step.2 = some f) :
    (m.fetch = .error f ∧ m.step.1 = m) ∨
      ∃ word, m.fetch = .ok (word, { m with pc := m.pc + 2 }) ∧
        m.step.1 = { m with pc := m.pc + 2 } := by
  have transition := m.step_transition
  rw [hf] at transition
  generalize m.step.1 = after at transition
  have fetched : ∀ {w}, m.Fetches w → m.fetch = .ok (m.currentWord, { m with pc := m.pc + 2 }) := by
    intro w hw
    rw [Microcode.fetch_eq, Memory.fault?_eq_none_iff.mpr hw.inBounds]
    rfl
  cases transition with
  | unfetched hw hb =>
    have refused := Memory.fault?_eq_some_iff.mpr ⟨hb, rfl⟩
    exact .inl ⟨by rw [Microcode.fetch_eq, refused], rfl⟩
  | undecoded hw hd => exact .inr ⟨_, fetched hw, rfl⟩
  | faulted hw hd hf => exact .inr ⟨_, fetched hw, rfl⟩

/-- A return with no call open has been fetched and has done nothing else. -/
theorem step_of_fault_return :
    ((powerOn .modern .zero).load [0x00, 0xEE]).1.step.2 = some .stackUnderflow ∧
      ((powerOn .modern .zero).load [0x00, 0xEE]).1.step.1 =
        { ((powerOn .modern .zero).load [0x00, 0xEE]).1 with
          pc := ((powerOn .modern .zero).load [0x00, 0xEE]).1.pc + 2 } := by
  have fault : ((powerOn .modern .zero).load [0x00, 0xEE]).1.step.2 = some .stackUnderflow := by
    decide +kernel
  have moved : ((powerOn .modern .zero).load [0x00, 0xEE]).1.step.1.pc ≠
      ((powerOn .modern .zero).load [0x00, 0xEE]).1.pc := by
    decide +kernel
  rcases step_of_fault fault with ⟨-, same⟩ | ⟨-, -, behind⟩
  · rw [same] at moved
    exact absurd rfl moved
  · exact ⟨fault, behind⟩

end Machine
end Chip8
