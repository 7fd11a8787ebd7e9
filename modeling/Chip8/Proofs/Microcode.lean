import Chip8.Machine.Cycle

/-!
# What microcode comes to

Each sequence of elementary operations is brought down to a condition, decided before anything
changes, and an effect on the whole machine. The main statement is `Microcode.run_carryOut`: an
instruction that faults has done nothing yet, although some instructions write in several parts.

* Blocks of memory in several parts: `Memory.put_append`, and checks that do not depend on what was
  written before them (`Memory.fault?_put`);
* one lemma for each elementary operation and each instruction that accesses memory;
* the operations together (`run_carryOut`), and the cycle around them (`fetch_eq`,
  `executeWord_eq`).
-/

namespace Chip8

namespace Memory

/-- A block in two parts takes the place of two ranges, one behind the other. -/
theorem put_append {m : Memory} {address : Int} (first second : List UInt8)
    (inside : m.InBounds address (first ++ second).length) :
    m.put address (first ++ second) =
      (m.put address first).put (address + first.length) second := by
  have low := inside.1
  have room := inside.2
  rw [List.length_append] at room
  have here : m.InBounds address first.length := ⟨low, by omega⟩
  have behind : (m.put address first).InBounds (address + first.length) second.length :=
    ⟨by omega, by rw [size_put here]; omega⟩
  refine eq_of_byteAt (by rw [size_put inside, size_put behind, size_put here]) ?_
  intro a _
  rw [byteAt_put inside, byteAt_put behind, byteAt_put here, List.getElem?_append]
  by_cases rest : address + first.length ≤ a
  · have offset : a - (address + first.length).toNat = a - address.toNat - first.length := by omega
    rw [if_pos (by omega), if_neg (by omega), if_pos rest, if_pos (by omega), offset,
      List.getElem?_eq_none (show first.length ≤ a - address.toNat by omega), Option.getD_none]
  · rw [if_neg rest]
    split
    · rw [if_pos (by omega)]
    · rfl

theorem fault?_put {m : Memory} {start : Int} {block : List UInt8}
    (inside : m.InBounds start block.length) (address width : Int) :
    (m.put start block).fault? address width = m.fault? address width := by
  have same : (m.put start block).InBounds address width ↔ m.InBounds address width := by
    rw [InBounds, InBounds, size_put inside]
  simp only [fault?, same]

end Memory

namespace Microcode

@[simp] theorem run_ofExcept {α : Type} (r : Except Fault α) (m : Machine) :
    EStateM.run (ofExcept r : Microcode α) m =
      match r with
      | .ok a => .ok a m
      | .error f => .error f m := by
  cases r <;> rfl

theorem run_readBlock (address length : Int) (m : Machine) :
    (readBlock address length).run m =
      match m.memory.fault? address length with
      | none => .ok (m.memory.slice address length) m
      | some f => .error f m := by
  cases h : m.memory.fault? address length <;>
    simp [readBlock, Memory.readBlock, Memory.guarded, h]

theorem run_writeBlock (address : Int) (block : List UInt8) (m : Machine) :
    (writeBlock address block).run m =
      match m.memory.fault? address block.length with
      | none => .ok () { m with memory := m.memory.put address block }
      | some f => .error f m := by
  cases h : m.memory.fault? address block.length <;>
    simp [writeBlock, Memory.writeBlock, Memory.guarded, h]

theorem run_writeByte (address value : Int) (m : Machine) :
    (writeByte address value).run m =
      match m.memory.fault? address 1 with
      | none => .ok () { m with memory := m.memory.put address [UInt8.ofInt value] }
      | some f => .error f m := by
  cases h : m.memory.fault? address 1 <;>
    simp [writeByte, Memory.writeByte_eq, Memory.writeBlock, Memory.guarded, h]

theorem run_push (address : Int) (m : Machine) :
    (push address).run m =
      match m.stack.pushFault? with
      | none => .ok () { m with stack := m.stack.pushed address }
      | some f => .error f m := by
  cases h : m.stack.pushFault? <;> simp [push, CallStack.push, h]

theorem run_pop (m : Machine) :
    pop.run m =
      match m.stack.popFault? with
      | none => .ok m.stack.top { m with stack := m.stack.popped }
      | some f => .error f m := by
  cases h : m.stack.popFault? <;> simp [pop, CallStack.pop, h, -bind_pure_comp]

theorem run_drawSprite (x y n : Int) (m : Machine) :
    (drawSprite x y n).run m =
      match m.memory.fault? m.index n with
      | none => .ok () (m.drawSprite x y n)
      | some f => .error f m := by
  cases h : m.memory.fault? m.index n <;>
    simp [drawSprite, run_readBlock, h, Machine.drawSprite]

theorem run_storeRegisters (x : Int) (m : Machine) :
    (storeRegisters x).run m =
      match m.memory.fault? m.index (x + 1).toNat with
      | none => .ok () (m.storeRegisters x)
      | some f => .error f m := by
  have length := m.registers.length_take (x + 1).toNat
  cases h : m.memory.fault? m.index (x + 1).toNat <;> rw [← length] at h <;>
    simp [storeRegisters, run_writeBlock, h, Machine.storeRegisters, Machine.storeBlock,
      -Registers.length_take]

theorem run_loadRegisters (x : Int) (m : Machine) :
    (loadRegisters x).run m =
      match m.memory.fault? m.index (x + 1) with
      | none => .ok () (m.loadRegisters x)
      | some f => .error f m := by
  cases h : m.memory.fault? m.index (x + 1) <;>
    simp [loadRegisters, run_readBlock, h, Machine.loadRegisters, -bind_pure_comp]

theorem decimalDigits_eq (v : UInt8) :
    Machine.decimalDigits v =
      [UInt8.ofInt ((v.toNat : Int) / 100), UInt8.ofInt ((v.toNat : Int) / 10 % 10),
        UInt8.ofInt ((v.toNat : Int) % 10)] := by
  have bound := v.toNat_lt
  simp only [Machine.decimalDigits, List.cons.injEq, and_true, ← UInt8.toNat_inj, UInt8.ofInt,
    UInt8.toNat_div, UInt8.toNat_mod, UInt8.toNat_ofNat]
  simp
  omega

theorem run_storeDecimal (x : Int) (m : Machine) :
    (storeDecimal x).run m =
      match m.memory.fault? m.index 3 with
      | none => .ok () (m.storeBlock (Machine.decimalDigits (m.registers.read x)))
      | some f => .error f m := by
  cases h : m.memory.fault? m.index 3 with
  | some f => simp [storeDecimal, run_readBlock, h]
  | none =>
    obtain ⟨low, high⟩ := Memory.fault?_eq_none_iff.mp h
    -- the check of the whole range covers the check of each byte
    have covered : ∀ k : Int, 0 ≤ k → k < 3 → m.memory.fault? (m.index + k) 1 = none :=
      fun k _ _ => Memory.fault?_eq_none_iff.mpr ⟨by omega, by omega⟩
    have first : m.memory.fault? m.index 1 = none := by simpa using covered 0
    have inside : ∀ block : List UInt8, block.length ≤ 3 → m.memory.InBounds m.index block.length :=
      fun block short => ⟨low, by omega⟩
    have two : ∀ a b : UInt8, (m.memory.put m.index [a]).put (m.index + 1) [b] =
        m.memory.put m.index [a, b] := fun a b =>
      (Memory.put_append [a] [b] (inside _ (by simp))).symm
    have three : ∀ a b c : UInt8, (m.memory.put m.index [a, b]).put (m.index + 2) [c] =
        m.memory.put m.index [a, b, c] := fun a b c =>
      (Memory.put_append [a, b] [c] (inside _ (by simp))).symm
    have kept : ∀ (block : List UInt8) (k : Int), block.length ≤ 3 → 0 ≤ k → k < 3 →
        (m.memory.put m.index block).fault? (m.index + k) 1 = none := fun block k short nonneg below => by
      rw [Memory.fault?_put (inside block short), covered k nonneg below]
    simp [storeDecimal, run_readBlock, run_writeByte, kept, h, first,
      Machine.storeBlock, decimalDigits_eq, two, three, Registers.value]

/-- Three digits lie in the memory, if three bytes do. -/
theorem digits_inBounds {m : Machine} {v : UInt8} (hf : m.memory.fault? m.index 3 = none) :
    m.memory.InBounds m.index (Machine.decimalDigits v).length :=
  Memory.fault?_eq_none_iff.mp hf

/-- The registers that a store writes lie in the memory, if as many bytes do. -/
theorem registers_inBounds {m : Machine} {x : Int}
    (hf : m.memory.fault? m.index (x + 1).toNat = none) :
    m.memory.InBounds m.index (m.registers.take (x + 1).toNat).length := by
  rw [Registers.length_take]
  exact Memory.fault?_eq_none_iff.mp hf

/-- A fault comes before the first change: an instruction that faults leaves the machine as it was,
and any other has its effect. -/
theorem run_carryOut (i : Instruction) (m : Machine) :
    (carryOut i).run m =
      match m.fault? i with
      | none => .ok (m.next i) (m.effect i)
      | some f => .error f m := by
  unfold carryOut Machine.fault? Machine.next Machine.effect
  cases i.operation
  case ret => cases h : m.stack.popFault? <;> simp [run_pop, h, -bind_pure_comp]
  case call => cases h : m.stack.pushFault? <;> simp [run_push, h, -bind_pure_comp]
  case draw =>
    cases h : m.memory.fault? m.index i.n <;> simp [run_drawSprite, h, -bind_pure_comp]
  case storeDecimal =>
    cases h : m.memory.fault? m.index 3 <;> simp [run_storeDecimal, h, -bind_pure_comp]
  case storeRegisters =>
    -- `simp` would rewrite the width of the access, so that `h` no longer fits
    cases h : m.memory.fault? m.index (i.x + 1).toNat <;>
      simp only [EStateM.run_bind, EStateM.run_get, EStateM.run_pure, run_storeRegisters, h]
  case loadRegisters =>
    cases h : m.memory.fault? m.index (i.x + 1) <;> simp [run_loadRegisters, h, -bind_pure_comp]
  -- the other operations are single effects
  all_goals rfl

/-! ## The cycle -/

/-- The first test of a fetch and the check of the access to memory are one condition. -/
theorem run_fetch (m : Machine) :
    fetch.run m =
      match m.memory.fault? m.pc 2 with
      | none => .ok m.currentWord m.advanced
      | some f => .error f m := by
  by_cases h : m.memory.InBounds m.pc 2
  · have inside : ¬ (m.pc < 0 ∨ m.memory.size ≤ m.pc + 1) := by
      obtain ⟨low, high⟩ := h
      omega
    have access := Memory.fault?_eq_none_iff.mpr h
    simp [fetch, readWord, Memory.readWord, Memory.guarded, inside, access, -bind_pure_comp]
    rfl
  · have outside : m.pc < 0 ∨ m.memory.size ≤ m.pc + 1 := by
      unfold Memory.InBounds at h
      omega
    simp [fetch, Memory.fault?, h, outside]

theorem fetch_eq (m : Machine) :
    m.fetch =
      match m.memory.fault? m.pc 2 with
      | none => .ok (m.currentWord, m.advanced)
      | some f => .error f := by
  unfold Machine.fetch
  cases h : m.memory.fault? m.pc 2 <;> simp [run_fetch, h]

/-- An instruction is executed as a whole, or its word or its fault stops it before it begins. -/
theorem executeWord_eq (m : Machine) (word : Int) :
    m.executeWord word =
      match Instruction.decode? word with
      | none => (m, some (Instruction.undecoded word))
      | some i =>
        match m.fault? i with
        | some f => (m, some f)
        | none => (m.execute i, none) := by
  unfold Machine.executeWord outcome executeWord Instruction.decode
  cases Instruction.decode? word with
  | none => rfl
  | some i => cases h : m.fault? i <;> simp [run_carryOut, h, Machine.execute]

end Microcode
end Chip8
