import Chip8.Proofs.Executions
import Chip8.Proofs.Footprint
import Mathlib.Algebra.GroupWithZero.Nat

/-!
# Block transfers

`Fx55` writes the registers `V0` to `Vx` to memory from the index on, and `Fx65` reads them back. The two
undo each other at one index, in both orders. In the dialect that moves the index, several stores write
their blocks one behind the other, and as many loads from the same start read the same blocks in order
(`Machine.transfers_restore`).

* Blocks of memory: what was written is read back, and a range is read in two parts;
* blocks of registers;
* one transfer, then many of them by induction on their list.
-/

namespace Chip8

/-! ## Blocks of memory -/

namespace Memory

variable {m : Memory} {address length : Int}

theorem readBlock_of_inBounds (inside : m.InBounds address length) :
    m.readBlock address length = .ok (m.slice address length) := by
  rw [readBlock, guarded, fault?_eq_none_iff.mpr inside]

theorem length_slice (low : 0 ≤ address) (nonneg : 0 ≤ length) (high : address + length ≤ m.size) :
    (m.slice address length).length = length.toNat := by
  rw [slice_eq low nonneg high, List.length_map, List.length_range]

/-- What was written to a range is read back from it. -/
theorem slice_put (block : List UInt8) (low : 0 ≤ address) (high : address + block.length ≤ m.size) :
    (m.put address block).slice address block.length = block := by
  have inside : m.InBounds address block.length := ⟨low, high⟩
  obtain ⟨start, rfl⟩ := Int.eq_ofNat_of_zero_le low
  rw [slice_eq low (Int.natCast_nonneg _) (by rwa [size_put inside])]
  apply List.ext_getElem
  · simp
  · intro k hk hk'
    rw [List.getElem_map, List.getElem_range, byteAt_put inside, if_pos (by omega)]
    simp [hk']

/-- Writing back what a range holds changes nothing. -/
theorem put_slice (low : 0 ≤ address) (nonneg : 0 ≤ length) (high : address + length ≤ m.size) :
    m.put address (m.slice address length) = m := by
  have inside : m.InBounds address (m.slice address length).length := by
    rw [length_slice low nonneg high, Int.toNat_of_nonneg nonneg]
    exact ⟨low, high⟩
  refine eq_of_byteAt (size_put inside) ?_
  intro a _
  rw [byteAt_put inside, slice_eq low nonneg high]
  split
  · rename_i behind
    have offset : address.toNat + (a - address.toNat) = a := by omega
    by_cases within : a - address.toNat < length.toNat
    · simp [within, offset]
    · simp [within]
  · rfl

/-- A range is read in two parts. -/
theorem slice_add {first second : Int} (low : 0 ≤ address) (hf : 0 ≤ first) (hs : 0 ≤ second)
    (high : address + (first + second) ≤ m.size) :
    m.slice address (first + second) = m.slice address first ++ m.slice (address + first) second := by
  rw [slice_eq low (by omega) high, slice_eq low hf (by omega), slice_eq (by omega) hs (by omega)]
  have count : (first + second).toNat = first.toNat + second.toNat := by omega
  have start : (address + first).toNat = address.toNat + first.toNat := by omega
  rw [count, start, List.range_add, List.map_append, List.map_map]
  simp [Nat.add_assoc]

end Memory

/-! ## Blocks of registers -/

namespace Registers

variable {regs : Registers}

theorem getD_take {count k : Nat} (hk : k < count) (default : UInt8) :
    (regs.take count).getD k default = regs.read k := by
  rw [take, List.getD_eq_getElem _ _ (by simpa using hk)]
  simp

/-- A block that comes from registers is put back into them. -/
theorem read_writeFrom_take (source : Registers) {count : Nat} (room : count ≤ 16) (r : Fin 16) :
    (regs.writeFrom 0 (source.take count)).read r.val =
      if r < count then source.read r.val else regs.read r.val := by
  have written := regs.read_writeFrom 0 (source.take count) r (by simpa using room)
  rw [Int.natCast_zero] at written
  rw [written, if_pos (Nat.zero_le _), Nat.sub_zero]
  split
  · rename_i inside
    exact getD_take inside _
  · rename_i beyond
    exact List.getD_eq_default _ _ (by simpa using beyond)

/-- The registers written hold the block. -/
theorem take_writeFrom (block : List UInt8) (room : block.length ≤ 16) :
    (regs.writeFrom 0 block).take block.length = block := by
  apply List.ext_getElem
  · simp
  · intro k hk hk'
    have written := regs.read_writeFrom 0 block ⟨k, by omega⟩ (by simpa using room)
    rw [Int.natCast_zero] at written
    simp only [take, List.getElem_map, List.getElem_range, written, if_pos (Nat.zero_le _),
      Nat.sub_zero, List.getD_eq_getElem _ _ hk']

end Registers

/-! ## One transfer -/

namespace Instruction

/-- The word `Fx` with a low byte behind it. -/
def wordFx (low : Nat) (x : Fin 16) : Nat := 0xF000 + 0x100 * x + low

theorem wordFx_lt {low : Nat} (small : low < 256) (x : Fin 16) : wordFx low x < 65536 := by
  unfold wordFx
  omega

theorem admits_wordFx {low : Nat} (small : low < 256) (x : Fin 16) {op : Operation}
    (row : op.encoding = ⟨.fixed 0xF, .operand, .fixed (low / 16), .fixed (low % 16)⟩) :
    op.encoding.admits (wordFx low x) = true := by
  rw [row, Encoding.admits_lowByte (wordFx_lt small x) (by omega) (by omega)]
  unfold wordFx
  omega

/-- The register of the word is the operand of its instruction. -/
theorem ofWord_wordFx_x {low : Nat} (small : low < 256) (op : Operation) (x : Fin 16) :
    (ofWord op (wordFx low x)).x = x.val := by
  show ((wordFx low x / 256 % 16 : Nat) : Int) = x.val
  unfold wordFx
  omega

end Instruction

namespace Machine

open Instruction (wordFx)

variable {m : Machine} {x : Fin 16} {length : Nat}

theorem executeWord_wordFx {low : Nat} (small : low < 256) (x : Fin 16) (op : Operation)
    (row : op.encoding = ⟨.fixed 0xF, .operand, .fixed (low / 16), .fixed (low % 16)⟩)
    (allowed : m.fault? (.ofWord op (wordFx low x)) = none) :
    m.executeWord (wordFx low x : Nat) = (m.execute (.ofWord op (wordFx low x)), none) :=
  executeWord_of_admits (Instruction.wordFx_lt small x) (Instruction.admits_wordFx small x row) allowed

/-- A block of bytes from the index on lies in a memory of the usual size. -/
structure Room (m : Machine) (length : Nat) : Prop where
  size_eq : m.memory.size = memorySize
  low : 0 ≤ m.index
  high : m.index + length ≤ memorySize

/-- Where a transfer of `V0` to `Vx` leaves the index. -/
def indexBehind (m : Machine) (x : Fin 16) : Int :=
  if m.dialect.transferMovesIndex then m.index + (x.val + 1) else m.index

theorem Room.inBounds (room : m.Room length) : m.memory.InBounds m.index length := by
  refine ⟨room.low, ?_⟩
  rw [room.size_eq]
  exact room.high

theorem Room.holds (room : m.Room length) {block : List UInt8} (count : block.length = length) :
    m.memory.InBounds m.index block.length := by
  rw [count]
  exact room.inBounds

/-- The index stays in sixteen bits. -/
theorem Room.moved (room : m.Room (x + 1)) :
    (if m.dialect.transferMovesIndex then (m.index + (x.val + 1)) % 65536 else m.index) =
      m.indexBehind x := by
  have low := room.low
  have high := room.high
  unfold memorySize at high
  rw [indexBehind, Int.emod_eq_of_lt (by omega) (by omega)]

theorem executeWord_store (room : m.Room (x + 1)) :
    m.executeWord (wordFx 0x55 x : Nat) =
      ({ m with
          memory := m.memory.put m.index (m.registers.take (x + 1))
          index := m.indexBehind x
          tally := m.tally.record .storeRegisters
          cycles := m.cycles + 1 }, none) := by
  have operand : (Instruction.ofWord .storeRegisters (wordFx 0x55 x)).x = x.val :=
    Instruction.ofWord_wordFx_x (by decide) ..
  have width : ((x.val : Int) + 1).toNat = x + 1 := by omega
  have allowed : m.fault? (.ofWord .storeRegisters (wordFx 0x55 x)) = none := by
    show m.memory.fault? m.index
      ((Instruction.ofWord .storeRegisters (wordFx 0x55 x)).x + 1).toNat = none
    rw [operand, width]
    exact Memory.fault?_eq_none_iff.mpr room.inBounds
  rw [executeWord_wordFx (by decide) x .storeRegisters rfl allowed, execute, effect_eq]
  simp only [operand, width, ← room.moved]
  rfl

theorem executeWord_load (room : m.Room (x + 1)) :
    m.executeWord (wordFx 0x65 x : Nat) =
      ({ m with
          registers := m.registers.writeFrom 0 (m.memory.slice m.index (x.val + 1))
          index := m.indexBehind x
          tally := m.tally.record .loadRegisters
          cycles := m.cycles + 1 }, none) := by
  have operand : (Instruction.ofWord .loadRegisters (wordFx 0x65 x)).x = x.val :=
    Instruction.ofWord_wordFx_x (by decide) ..
  have allowed : m.fault? (.ofWord .loadRegisters (wordFx 0x65 x)) = none := by
    show m.memory.fault? m.index
      ((Instruction.ofWord .loadRegisters (wordFx 0x65 x)).x + 1) = none
    rw [operand]
    exact Memory.fault?_eq_none_iff.mpr room.inBounds
  rw [executeWord_wordFx (by decide) x .loadRegisters rfl allowed, execute, effect_eq]
  simp only [operand, ← room.moved]
  rfl

/-- What `Fx55` and `Fx65` are to each other at one index, whatever happens to the rest of the machine
between them. -/
structure Inverse (m : Machine) (x : Fin 16) : Prop where
  store_succeeds : (m.executeWord (wordFx 0x55 x : Nat)).2 = none
  load_succeeds : (m.executeWord (wordFx 0x65 x : Nat)).2 = none
  /-- A store writes no register. -/
  keeps_registers : (m.executeWord (wordFx 0x55 x : Nat)).1.registers = m.registers
  /-- A load behind a store gives back the registers of the block, and leaves those beyond it. -/
  restores_registers : ∀ n : Machine,
    n.memory = (m.executeWord (wordFx 0x55 x : Nat)).1.memory → n.index = m.index →
    (n.executeWord (wordFx 0x65 x : Nat)).2 = none ∧
    ∀ r : Fin 16, (n.executeWord (wordFx 0x65 x : Nat)).1.registers.read r.val =
      if r ≤ x then m.registers.read r.val else n.registers.read r.val
  /-- A store behind a load writes what was there. -/
  restores_memory : ∀ n : Machine,
    n.memory = (m.executeWord (wordFx 0x65 x : Nat)).1.memory →
    n.registers = (m.executeWord (wordFx 0x65 x : Nat)).1.registers → n.index = m.index →
    (n.executeWord (wordFx 0x55 x : Nat)).2 = none ∧
    (n.executeWord (wordFx 0x55 x : Nat)).1.memory = m.memory
  keeps_index : m.dialect.transferMovesIndex = false →
    (m.executeWord (wordFx 0x55 x : Nat)).1.index = m.index ∧
    (m.executeWord (wordFx 0x65 x : Nat)).1.index = m.index

/-- A load fills `V0` to `Vx` with the bytes from the index on. -/
theorem Room.take_loaded (room : m.Room (x + 1)) (regs : Registers) :
    (regs.writeFrom 0 (m.memory.slice m.index (x.val + 1))).take (x + 1) =
      m.memory.slice m.index (x.val + 1) := by
  have length : (m.memory.slice m.index (x.val + 1)).length = x + 1 :=
    Memory.length_slice room.low (by omega) room.inBounds.2
  have loaded := regs.take_writeFrom (m.memory.slice m.index (x.val + 1)) (by omega)
  rwa [length] at loaded

theorem Room.inverse (room : m.Room (x + 1)) : m.Inverse x := by
  have low := room.low
  have high : m.index + (x.val + 1) ≤ m.memory.size := by
    rw [room.size_eq]
    exact room.high
  -- any machine with the same index and a memory of the same size has the same room
  have again : ∀ n : Machine, n.memory.size = m.memory.size → n.index = m.index → n.Room (x + 1) := by
    intro n size index
    exact ⟨size.trans room.size_eq, index ▸ room.low, index ▸ room.high⟩
  constructor
  case store_succeeds => rw [executeWord_store room]
  case load_succeeds => rw [executeWord_load room]
  case keeps_registers => rw [executeWord_store room]
  case restores_registers =>
    intro n memory index
    rw [executeWord_store room] at memory
    have block : n.memory.slice n.index (x.val + 1) = m.registers.take (x + 1) := by
      have written := m.memory.slice_put (m.registers.take (x + 1)) low (by simpa using high)
      rw [memory, index]
      simpa using written
    have size : n.memory.size = m.memory.size := by
      rw [memory, Memory.size_put (room.holds (Registers.length_take ..))]
    rw [executeWord_load (again n size index), block]
    refine ⟨rfl, ?_⟩
    intro r
    rw [Registers.read_writeFrom_take _ x.isLt]
    simp only [Nat.lt_succ_iff, Fin.le_def]
  case restores_memory =>
    intro n memory registers index
    rw [executeWord_load room] at memory registers
    have block : n.registers.take (x + 1) = m.memory.slice m.index (x.val + 1) := by
      rw [registers]
      exact room.take_loaded _
    rw [executeWord_store (again n (by rw [memory]) index), block, memory, index]
    exact ⟨rfl, Memory.put_slice low (by omega) high⟩
  case keeps_index =>
    intro still
    have same : m.indexBehind x = m.index := by simp [indexBehind, still]
    rw [executeWord_store room, executeWord_load room]
    exact ⟨same, same⟩

/-! ## Many transfers -/

/-- A transfer of `V0` to `Vx`, and what becomes of the registers before it. -/
structure Transfer where
  last : Fin 16
  prepare : Registers → Registers

/-- The registers that a transfer found and those that it left. -/
structure Passage where
  last : Fin 16
  found : Registers
  left : Registers

/-- The bytes of `V0` to `Vx` at a store. -/
def Passage.stored (p : Passage) : List UInt8 := p.found.take (p.last + 1)

/-- The bytes of `V0` to `Vx` behind a load. -/
def Passage.loaded (p : Passage) : List UInt8 := p.left.take (p.last + 1)

/-- What many transfers came to. -/
structure Transferred where
  machine : Machine
  passages : List Passage
  fault : Option Fault

/-- The same with a passage before it. -/
def Transferred.behind (run : Transferred) (p : Passage) : Transferred :=
  { run with passages := p :: run.passages }

/-- Executes the word `Fx` with a low byte for one transfer after another, up to the first fault. -/
def transferEach (low : Nat) (m : Machine) : List Transfer → Transferred
  | [] => ⟨m, [], none⟩
  | t :: rest =>
    let registers := t.prepare m.registers
    match { m with registers := registers }.executeWord (wordFx low t.last : Nat) with
    | (m, some f) => ⟨m, [], some f⟩
    | (m, none) => (m.transferEach low rest).behind ⟨t.last, registers, m.registers⟩

/-- The number of bytes that transfers move. -/
def totalLength (transfers : List Transfer) : Nat := (transfers.map fun t => t.last.val + 1).sum

/-- No transfer faults, and each moves the index behind its block. -/
structure Advances (m : Machine) (transfers : List Transfer) (run : Transferred) : Prop where
  succeeds : run.fault = none
  index_eq : run.machine.index = m.index + totalLength transfers
  lasts_eq : run.passages.map Passage.last = transfers.map Transfer.last

variable {m' : Machine} {t : Transfer} {others transfers : List Transfer}

theorem totalLength_cons : totalLength (t :: others) = t.last + 1 + totalLength others := by
  simp [totalLength]

theorem Room.first (room : m.Room (totalLength (t :: others))) : m.Room (t.last + 1) := by
  have high := room.high
  rw [totalLength_cons] at high
  exact { room with high := by omega }

/-- Behind its first part, the room is left for the others. -/
theorem Room.behind (room : m.Room (totalLength (t :: others)))
    (size : m'.memory.size = m.memory.size) (index : m'.index = m.index + (t.last.val + 1)) :
    m'.Room (totalLength others) := by
  have low := room.low
  have high := room.high
  rw [totalLength_cons] at high
  exact ⟨size.trans room.size_eq, by omega, by omega⟩

theorem Advances.cons {run : Transferred} (advances : m'.Advances others run)
    (index : m'.index = m.index + (t.last.val + 1)) (found left : Registers) :
    m.Advances (t :: others) (run.behind ⟨t.last, found, left⟩) where
  succeeds := advances.succeeds
  index_eq := by
    show run.machine.index = _
    rw [advances.index_eq, index, totalLength_cons]
    omega
  lasts_eq := congrArg (t.last :: ·) advances.lasts_eq

theorem transferEach_cons {low : Nat}
    (executed : { m with registers := t.prepare m.registers }.executeWord (wordFx low t.last : Nat) =
      (m', none)) (others : List Transfer) :
    m.transferEach low (t :: others) =
      (m'.transferEach low others).behind ⟨t.last, t.prepare m.registers, m'.registers⟩ := by
  simp only [transferEach, executed]

section

variable (moves : m.dialect.transferMovesIndex = true)
include moves

theorem store_step (room : m.Room (t.last + 1)) : ∃ m',
    { m with registers := t.prepare m.registers }.executeWord (wordFx 0x55 t.last : Nat) = (m', none) ∧
    m'.dialect = m.dialect ∧ m'.index = m.index + (t.last.val + 1) ∧
    m'.memory = m.memory.put m.index ((t.prepare m.registers).take (t.last + 1)) := by
  have found : { m with registers := t.prepare m.registers }.Room (t.last + 1) := { room with }
  exact ⟨_, executeWord_store found, rfl, if_pos moves, rfl⟩

theorem load_step (room : m.Room (t.last + 1)) : ∃ m',
    { m with registers := t.prepare m.registers }.executeWord (wordFx 0x65 t.last : Nat) = (m', none) ∧
    m'.dialect = m.dialect ∧ m'.index = m.index + (t.last.val + 1) ∧ m'.memory = m.memory ∧
    m'.registers.take (t.last + 1) = m.memory.slice m.index (t.last.val + 1) := by
  have found : { m with registers := t.prepare m.registers }.Room (t.last + 1) := { room with }
  exact ⟨_, executeWord_load found, rfl, if_pos moves, rfl, room.take_loaded _⟩

end

/-- A block has a byte for each register. -/
theorem Advances.length_stored {stores : List Transfer} {run : Transferred}
    (advances : m.Advances stores run) :
    (run.passages.flatMap Passage.stored).length = totalLength stores := by
  have lengths := congrArg (List.map fun last : Fin 16 => last.val + 1) advances.lasts_eq
  rw [List.map_map, List.map_map] at lengths
  rw [List.length_flatMap, totalLength]
  refine congrArg List.sum (Eq.trans ?_ lengths)
  exact List.map_congr_left fun p _ => Registers.length_take ..

/-- Stores write their blocks one behind the other. -/
theorem stores_run (moves : m.dialect.transferMovesIndex = true)
    (room : m.Room (totalLength transfers)) :
    let run := m.transferEach 0x55 transfers
    m.Advances transfers run ∧
      run.machine.memory = m.memory.put m.index (run.passages.flatMap Passage.stored) := by
  intro run
  unfold run
  induction transfers generalizing m with
  | nil => exact ⟨⟨rfl, (Int.add_zero _).symm, rfl⟩, (Memory.put_nil ..).symm⟩
  | cons t others ih =>
    obtain ⟨m', executed, dialect, index, memory⟩ := store_step moves room.first
    have size : m'.memory.size = m.memory.size := by
      rw [memory, Memory.size_put (room.first.holds (Registers.length_take ..))]
    obtain ⟨advances, written⟩ := ih (dialect ▸ moves) (room.behind size index)
    rw [transferEach_cons executed]
    refine ⟨advances.cons index _ _, ?_⟩
    have block : m'.index = m.index + ((t.prepare m.registers).take (t.last + 1)).length := by
      rw [index, Registers.length_take]
      rfl
    have inside := room.holds (advances.cons index (t.prepare m.registers) m'.registers).length_stored
    show (m'.transferEach 0x55 others).machine.memory = _
    rw [written, memory, block]
    exact (Memory.put_append _ _ inside).symm

/-- Loads read consecutive blocks. -/
theorem loads_run (moves : m.dialect.transferMovesIndex = true)
    (room : m.Room (totalLength transfers)) :
    let run := m.transferEach 0x65 transfers
    m.Advances transfers run ∧
      run.passages.flatMap Passage.loaded = m.memory.slice m.index (totalLength transfers) := by
  intro run
  unfold run
  induction transfers generalizing m with
  | nil =>
    refine ⟨⟨rfl, (Int.add_zero _).symm, rfl⟩, ?_⟩
    have empty := Memory.length_slice room.low (Int.natCast_nonneg _) room.inBounds.2
    exact (List.eq_nil_of_length_eq_zero empty).symm
  | cons t others ih =>
    obtain ⟨m', executed, dialect, index, memory, block⟩ := load_step moves room.first
    obtain ⟨advances, loaded⟩ := ih (dialect ▸ moves) (room.behind (by rw [memory]) index)
    have high := room.inBounds.2
    rw [totalLength_cons] at high
    have length : (totalLength (t :: others) : Int) = (t.last.val + 1) + totalLength others := by
      rw [totalLength_cons]
      omega
    rw [transferEach_cons executed]
    refine ⟨advances.cons index _ _, ?_⟩
    rw [length, Memory.slice_add room.low (by omega) (by omega) (by omega), ← block, ← index, ← memory,
      ← loaded]
    rfl

/-- What stores come to in the dialect that moves the index, and loads from where the first began. -/
structure Consecutive (m : Machine) (stores : List Transfer) : Prop where
  advances : m.Advances stores (m.transferEach 0x55 stores)
  /-- The blocks lie one behind the other. -/
  written : (m.transferEach 0x55 stores).machine.memory.readBlock m.index (totalLength stores) =
    .ok ((m.transferEach 0x55 stores).passages.flatMap Passage.stored)
  kept : ∀ a : Nat, a < m.index ∨ m.index + totalLength stores ≤ a →
    (m.transferEach 0x55 stores).machine.memory.byteAt a = m.memory.byteAt a
  /-- Loads of the same sizes read the same blocks, whatever happens to the registers between them. -/
  reads_back : ∀ (n : Machine) (loads : List Transfer),
    n.memory = (m.transferEach 0x55 stores).machine.memory → n.index = m.index →
    n.dialect = m.dialect → loads.map Transfer.last = stores.map Transfer.last →
    n.Advances loads (n.transferEach 0x65 loads) ∧
    (n.transferEach 0x65 loads).passages.map Passage.loaded =
      (m.transferEach 0x55 stores).passages.map Passage.stored

theorem totalLength_congr {loads stores : List Transfer}
    (lasts : loads.map Transfer.last = stores.map Transfer.last) :
    totalLength loads = totalLength stores := by
  have lengths := congrArg (List.map fun last : Fin 16 => last.val + 1) lasts
  rw [List.map_map, List.map_map] at lengths
  exact congrArg List.sum lengths

theorem Room.consecutive (moves : m.dialect.transferMovesIndex = true) {stores : List Transfer}
    (room : m.Room (totalLength stores)) : m.Consecutive stores := by
  obtain ⟨advances, memory⟩ := stores_run moves room
  have length := advances.length_stored
  have size : (m.transferEach 0x55 stores).machine.memory.size = m.memory.size := by
    rw [memory, Memory.size_put (room.holds length)]
  have slice : (m.transferEach 0x55 stores).machine.memory.slice m.index (totalLength stores) =
      (m.transferEach 0x55 stores).passages.flatMap Passage.stored := by
    rw [memory, ← length]
    exact Memory.slice_put _ room.low (by rw [length]; exact room.inBounds.2)
  constructor
  case advances => exact advances
  case written =>
    rw [← slice]
    refine Memory.readBlock_of_inBounds ⟨room.low, ?_⟩
    rw [size]
    exact room.inBounds.2
  case kept =>
    intro a outside
    by_contra changed
    rw [memory] at changed
    obtain ⟨low, high⟩ := Memory.range_of_put (room.holds length) changed
    rw [length] at high
    omega
  case reads_back =>
    intro n loads same index dialect lasts
    have total := totalLength_congr lasts
    have again : n.Room (totalLength loads) := by
      rw [total]
      exact ⟨by rw [same, size, room.size_eq], index ▸ room.low, index ▸ room.high⟩
    obtain ⟨advances', loaded⟩ := loads_run (dialect ▸ moves) again
    refine ⟨advances', ?_⟩
    -- the same bytes, cut into blocks of the same lengths
    rw [total, same, index, slice] at loaded
    rw [List.eq_iff_flatten_eq]
    refine ⟨?_, ?_⟩
    · rw [← List.flatMap_def, ← List.flatMap_def, loaded]
    · have lasts' : (n.transferEach 0x65 loads).passages.map Passage.last =
          (m.transferEach 0x55 stores).passages.map Passage.last := by
        rw [advances'.lasts_eq, advances.lasts_eq, lasts]
      have lengths := congrArg (List.map fun last : Fin 16 => last.val + 1) lasts'
      simpa [Passage.loaded, Passage.stored, Function.comp_def] using lengths

/-- **Block transfers.** On a well-formed machine whose memory has room for the block, `Fx55` and `Fx65`
at one index undo each other: a load behind a store gives `V0` to `Vx` back, whatever they became
meanwhile, and leaves the other registers; a store behind a load leaves the memory as it was. In a
dialect that leaves the index, it stays. In one that moves it, stores of any sizes, with any changes of
the registers between them, write their blocks one behind the other from the first index on and leave
the index behind the last; and loads of the same sizes from the first index read the same blocks in
order. -/
theorem transfers_restore (h : m.WellFormed) :
    (∀ x : Fin 16, m.index + x.val + 1 ≤ memorySize → m.Inverse x) ∧
    (m.dialect.transferMovesIndex = true → ∀ stores : List Transfer,
      m.index + totalLength stores ≤ memorySize → m.Consecutive stores) := by
  constructor
  · intro x fits
    exact Room.inverse ⟨h.memory_size, h.index_nonneg, by omega⟩
  · intro moves stores fits
    exact Room.consecutive moves ⟨h.memory_size, h.index_nonneg, fits⟩

/-- Two stores fill the memory to its end, and two loads read them back. -/
theorem transfers_restore_end :
    let m := { powerOn ⟨false, false, true⟩ .zero with
      index := 4093, registers := Registers.zero.write 0 0x2A }
    let stores : List Transfer := [⟨0, id⟩, ⟨1, fun regs => regs.write 1 0x07⟩]
    let stored := m.transferEach 0x55 stores
    let n := { stored.machine with index := 4093, registers := .zero }
    (m.executeWord (wordFx 0x55 2 : Nat)).2 = none ∧ stored.fault = none ∧
      stored.machine.index = 4096 ∧
      (n.transferEach 0x65 [⟨0, id⟩, ⟨1, id⟩]).passages.map Passage.loaded =
        [[0x2A], [0x2A, 0x07]] := by
  intro m stores stored
  have wellFormed : m.WellFormed :=
    { (powerOn_wellFormed ⟨false, false, true⟩ .zero).withRegisters m.registers with
      index_nonneg := by decide, index_le := by decide }
  obtain ⟨inverse, consecutive⟩ := transfers_restore wellFormed
  have facts : stored.passages.map Passage.stored = [[0x2A], [0x2A, 0x07]] ∧
      stored.machine.dialect = m.dialect := by
    decide +kernel
  obtain ⟨blocks, dialect⟩ := facts
  have run : m.Consecutive stores := consecutive rfl stores (by decide)
  have end_index : m.index + (totalLength stores : Nat) = 4096 := by decide
  obtain ⟨⟨succeeds, index, -⟩, -, -, reads_back⟩ := run
  -- what the stores left is known by now, and is not to be computed again
  have left : m.transferEach 0x55 stores = stored := rfl
  rw [left] at succeeds index reads_back
  rw [end_index] at index
  clear_value stored
  intro n
  obtain ⟨-, loaded⟩ := reads_back n [⟨0, id⟩, ⟨1, id⟩] rfl rfl dialect rfl
  exact ⟨(inverse 2 (by decide)).store_succeeds, succeeds, index, loaded.trans blocks⟩

end Machine
end Chip8
