import Chip8.Memory.Access
import Mathlib.Data.List.DropRight

/-!
# A memory is a bounded array of bytes

Whatever accesses a memory went through, each of its bytes is the one written there last since the
memory was cleared, and the next access is served from these bytes alone (`Memory.accesses_refine`).
All an access does is said once (`Memory.perform_eq`): it is refused as a whole, or its bytes lie in
the memory.

A range of a length below zero has no bytes, but some of them read as bytes behind their address:
those whose end lies below zero, in a memory that is longer than the length is below zero
(`Memory.readsRange_iff`).
-/

namespace Chip8.Memory

/-! ## What an access is about -/

namespace Access

/-- The address of the first byte of an access and the number of its bytes. Clearing has no range. -/
def range? : Access → Option (Int × Nat)
  | .readByte address => some (address, 1)
  | .readWord address => some (address, 2)
  | .readBlock address length => some (address, length)
  | .writeByte address _ => some (address, 1)
  | .writeWord address _ => some (address, 2)
  | .writeBlock address block => some (address, block.length)
  | .clear => none

/-- The bytes that an access writes to its range: a value modulo 256, a value modulo 65536 with its
high byte first, or the bytes given. -/
def block : Access → List UInt8
  | .writeByte _ value => [UInt8.ofNat (value % 256).toNat]
  | .writeWord _ value =>
    let word := (value % 65536).toNat
    [UInt8.ofNat (word / 256), UInt8.ofNat (word % 256)]
  | .writeBlock _ block => block
  | .readByte _ | .readWord _ | .readBlock _ _ | .clear => []

/-- What an access answers that is served by a memory with the bytes `held`. -/
def answer (held : Nat → UInt8) : Access → Answer
  | .readByte address => .byte (held address.toNat)
  | .readWord address =>
    .word (UInt16.ofNat (256 * (held address.toNat).toNat + (held (address.toNat + 1)).toNat))
  | .readBlock address length => .block ((List.range length).map fun k => held (address.toNat + k))
  | .writeByte _ _ | .writeWord _ _ | .writeBlock _ _ | .clear => .done

/-- A range of a memory of `size` bytes. -/
def Inside (size : Nat) (range : Int × Nat) : Prop := 0 ≤ range.1 ∧ range.1 + range.2 ≤ size

instance (size : Nat) (range : Int × Nat) : Decidable (Inside size range) :=
  inferInstanceAs (Decidable (_ ∧ _))

/-- The byte that an access writes to an address of a memory of `size` bytes, if it writes one there. -/
def writes? (size : Nat) (x : Access) (a : Nat) : Option UInt8 :=
  match x.range? with
  | some range =>
    if Inside size range ∧ range.1 ≤ a then x.block[a - range.1.toNat]? else none
  | none => none

end Access

/-- The byte that a history wrote last to an address since it cleared the memory last, or zero. -/
def lastWritten (size : Nat) (history : List Access) (a : Nat) : UInt8 :=
  ((history.rtakeWhile (· ≠ .clear)).filterMap (·.writes? size a)).getLast?.getD 0

variable {m : Memory} {address : Int}

/-! ## All that an access does -/

theorem guarded_eq {α : Type} (m : Memory) (address width : Int) (value : α) :
    m.guarded address width value =
      if m.InBounds address width then .ok value else .error (.outOfBounds address width) := by
  unfold guarded fault?
  split <;> simp_all

theorem read_eq {α : Type} (m : Memory) (address : Int) (width : Nat) (value : α) (f : α → Answer) :
    (m, (m.guarded address width value).map f) =
      if m.InBounds address width then (m, .ok (f value))
      else (m, .error (.outOfBounds address width)) := by
  rw [guarded_eq]
  split <;> rfl

theorem behindWrite_eq (m : Memory) (address : Int) (block : List UInt8) :
    m.behindWrite (m.writeBlock address block) =
      if m.InBounds address block.length then (m.put address block, .ok .done)
      else (m, .error (.outOfBounds address block.length)) := by
  rw [writeBlock, guarded_eq]
  split <;> rfl

theorem block_writeWord (address value : Int) :
    Access.block (.writeWord address value) = [UInt8.ofInt (value / 256), UInt8.ofInt value] := by
  have high : (value / 256 % 256).toNat = (value % 65536).toNat / 256 := by omega
  have low : (value % 256).toNat = (value % 65536).toNat % 256 := by omega
  simp only [Access.block, ← high, ← low]
  rfl

/-- An access is refused as a whole, or writes its block and answers from the bytes that were there. -/
theorem perform_eq (m : Memory) (x : Access) {range : Int × Nat} (h : x.range? = some range) :
    m.perform x =
      if m.InBounds range.1 range.2 then (m.put range.1 x.block, .ok (x.answer m.byteAt))
      else (m, .error (.outOfBounds range.1 range.2)) := by
  cases x
  case clear => exact absurd h (by simp [Access.range?])
  all_goals obtain rfl := Option.some.inj h
  -- a read puts no byte back
  case readByte address =>
    rw [Access.block, put_nil]
    exact read_eq m address 1 (m.byteAt address.toNat) .byte
  case readWord address =>
    rw [Access.block, put_nil]
    exact read_eq m address 2 (m.wordAt address.toNat) .word
  case readBlock address length =>
    rw [Access.block, put_nil]
    refine (read_eq m address length (m.slice address length) .block).trans ?_
    split
    · rename_i inside
      have bytes := slice_eq inside.1 (Int.natCast_nonneg length) inside.2
      rw [Int.toNat_natCast] at bytes
      rw [bytes]
      rfl
    · rfl
  case writeByte address value =>
    rw [perform, writeByte_eq]
    exact behindWrite_eq m address [UInt8.ofInt value]
  case writeWord address value =>
    rw [block_writeWord]
    exact behindWrite_eq m address [UInt8.ofInt (value / 256), UInt8.ofInt value]
  case writeBlock address block => exact behindWrite_eq m address block

theorem range?_eq_none_iff {x : Access} : x.range? = none ↔ x = .clear := by
  cases x <;> simp [Access.range?]

theorem length_block_le {x : Access} {range : Int × Nat} (h : x.range? = some range) :
    x.block.length ≤ range.2 := by
  cases x
  case clear => exact Nat.zero_le _
  all_goals
    obtain rfl := Option.some.inj h
    simp [Access.block]

/-- The block of an access that is served lies in the memory with the range of the access. -/
theorem block_inBounds {x : Access} {range : Int × Nat} (h : x.range? = some range)
    (inside : m.InBounds range.1 range.2) : m.InBounds range.1 x.block.length := by
  obtain ⟨low, high⟩ := inside
  have shorter := length_block_le h
  exact ⟨low, by omega⟩

/-- What an access leaves at an address: clearing leaves zero, and any other access the byte it writes
there, or what was there. -/
theorem byteAt_perform (m : Memory) (x : Access) (a : Nat) :
    (m.perform x).1.byteAt a =
      if x = .clear then 0 else (x.writes? m.size a).getD (m.byteAt a) := by
  cases h : x.range? with
  | none =>
    obtain rfl := range?_eq_none_iff.mp h
    rw [if_pos rfl]
    exact byteAt_zeroed m.size a
  | some range =>
    have other : x ≠ .clear := by
      rw [ne_eq, ← range?_eq_none_iff, h]
      exact Option.some_ne_none range
    rw [if_neg other, perform_eq m x h, Access.writes?, h]
    by_cases inside : m.InBounds range.1 range.2
    · rw [if_pos inside]
      refine (byteAt_put (block_inBounds h inside) a).trans ?_
      obtain ⟨low, high⟩ := inside
      by_cases above : range.1 ≤ a <;> simp [above, Access.Inside, low, high]
    · have outside : ¬ Access.Inside m.size range := inside
      simp [inside, outside]

@[simp] theorem size_perform (m : Memory) (x : Access) : (m.perform x).1.size = m.size := by
  cases h : x.range? with
  | none =>
    obtain rfl := range?_eq_none_iff.mp h
    exact size_clear m
  | some range =>
    rw [perform_eq m x h]
    split
    · rename_i inside
      exact size_put (block_inBounds h inside)
    · rfl

/-! ## Histories -/

@[simp] theorem size_after (m : Memory) (history : List Access) : (m.after history).size = m.size := by
  induction history using List.reverseRecOn with
  | nil => rfl
  | append_singleton history x ih => rw [after_snoc, size_perform, ih]

/-- What is written last changes with an access as the memory does. -/
theorem lastWritten_snoc (size : Nat) (history : List Access) (x : Access) (a : Nat) :
    lastWritten size (history ++ [x]) a =
      if x = .clear then 0 else (x.writes? size a).getD (lastWritten size history a) := by
  unfold lastWritten
  rw [List.rtakeWhile_concat]
  by_cases clears : x = .clear
  · simp [clears]
  · cases written : x.writes? size a <;> simp [clears, written]

theorem byteAt_after (size : Nat) (history : List Access) (a : Nat) :
    ((zeroed size).after history).byteAt a = lastWritten size history a := by
  induction history using List.reverseRecOn with
  | nil => exact byteAt_zeroed size a
  | append_singleton history x ih =>
    rw [after_snoc, byteAt_perform, lastWritten_snoc, size_after, size_zeroed, ih]

/-- The memory serves an access as an array of the bytes `held` does. -/
structure Serves (m : Memory) (held : Nat → UInt8) (x : Access) : Prop where
  /-- An access is refused exactly if its range leaves the memory, and for that. -/
  refused_iff : ∀ f, (m.perform x).2 = .error f ↔ ∃ range ∈ x.range?,
    (range.1 < 0 ∨ m.size < range.1 + range.2) ∧ f = .outOfBounds range.1 range.2
  /-- What is refused changes nothing. -/
  unchanged : ∀ f, (m.perform x).2 = .error f → (m.perform x).1 = m
  /-- What is not refused is answered from the bytes. -/
  answers : (∀ f, (m.perform x).2 ≠ .error f) → (m.perform x).2 = .ok (x.answer held)
  /-- The bytes that an access writes are changed to these, and clearing zeroes all. No other byte
  changes. -/
  changes : ∀ a, (m.perform x).1.byteAt a =
    if x = .clear then 0 else (x.writes? m.size a).getD (m.byteAt a)
  keeps_size : (m.perform x).1.size = m.size

/-- An access is refused for its range, or answered. -/
theorem perform_cases (m : Memory) (x : Access) :
    (∃ range ∈ x.range?, ¬ m.InBounds range.1 range.2 ∧
      m.perform x = (m, .error (.outOfBounds range.1 range.2))) ∨
    (∀ range ∈ x.range?, m.InBounds range.1 range.2) ∧
      (m.perform x).2 = .ok (x.answer m.byteAt) := by
  cases h : x.range? with
  | none =>
    obtain rfl := range?_eq_none_iff.mp h
    exact .inr ⟨by simp, rfl⟩
  | some range =>
    have performed := perform_eq m x h
    by_cases inside : m.InBounds range.1 range.2
    · rw [if_pos inside] at performed
      exact .inr ⟨by simpa using inside, by rw [performed]⟩
    · rw [if_neg inside] at performed
      exact .inl ⟨range, rfl, inside, performed⟩

theorem serves (m : Memory) (x : Access) : m.Serves m.byteAt x := by
  have leaves_iff (range : Int × Nat) :
      range.1 < 0 ∨ m.size < range.1 + range.2 ↔ ¬ m.InBounds range.1 range.2 := by
    unfold InBounds
    omega
  constructor
  case changes => exact m.byteAt_perform x
  case keeps_size => exact m.size_perform x
  all_goals rcases m.perform_cases x with ⟨range, h, outside, refused⟩ | ⟨inside, served⟩
  case refused_iff.inl =>
    intro f
    rw [refused, Option.mem_def.mp h]
    simp [leaves_iff, outside, eq_comm]
  case refused_iff.inr =>
    intro f
    rw [served]
    simp only [leaves_iff, reduceCtorEq, false_iff]
    rintro ⟨range, h, outside, -⟩
    exact outside (inside range h)
  case unchanged.inl =>
    intro f _
    rw [refused]
  case unchanged.inr =>
    intro f failed
    rw [served] at failed
    exact absurd failed (by simp)
  case answers.inl =>
    intro allowed
    exact absurd (congrArg Prod.snd refused) (allowed _)
  case answers.inr => exact fun _ => served

/-- **A memory is a bounded array of bytes.** Behind any accesses, refused ones among them, a memory has
its size and holds at each address what was written there last since it was cleared last, or zero. The
next access is refused exactly if its range leaves the memory, and then changes nothing; otherwise it is
answered from these bytes, and changes those of its range that it writes, and no others. -/
theorem accesses_refine (size : Nat) (history : List Access) (x : Access) :
    ∃ fresh, ofSize? size = some fresh ∧
      let m := fresh.after history
      m.size = size ∧ (∀ a, m.byteAt a = lastWritten size history a) ∧
        m.Serves (lastWritten size history) x := by
  have created : ofSize? size = some (zeroed size) := by
    rw [ofSize?, if_neg (Int.not_lt.mpr (Int.natCast_nonneg size)), Int.toNat_natCast]
  have held : ((zeroed size).after history).byteAt = lastWritten size history :=
    funext (byteAt_after size history)
  refine ⟨zeroed size, created, by simp, byteAt_after size history, ?_⟩
  rw [← held]
  exact serves _ x

/-! ## Ranges of any length -/

/-- Reading a range is refused, or gives as many bytes as its length tells, none for a length below
zero, and each of them is the byte at its address. -/
def ReadsRange (m : Memory) (address length : Int) : Prop :=
  m.readBlock address length = .error (.outOfBounds address length) ∨
    ∃ bytes, m.readBlock address length = .ok bytes ∧ bytes.length = length.toNat ∧
      ∀ k, (h : k < bytes.length) → bytes[k] = m.byteAt (address + k).toNat

/-- A range whose end is below zero is read up to the byte that the end counts back to from the end of
the memory. -/
theorem slice_of_inBounds {length : Int} (h : m.InBounds address length) :
    m.slice address length =
      (List.range (if address + length < 0 then m.size + length else length).toNat).map
        fun k => m.byteAt (address.toNat + k) := by
  obtain ⟨low, high⟩ := h
  have cells : m.size = m.bytes.size := rfl
  apply List.ext_getElem
  · simp only [slice, Array.length_toList, Array.size_extract, List.length_map, List.length_range]
    split <;> omega
  · intro k hk hk'
    have inside : address.toNat + k < m.bytes.size := by
      simp only [slice, Array.length_toList, Array.size_extract] at hk
      omega
    simp [slice, byteAt, inside]

theorem readBlock_eq (m : Memory) (address length : Int) :
    m.readBlock address length =
      if m.InBounds address length then .ok (m.slice address length)
      else .error (.outOfBounds address length) :=
  m.guarded_eq address length _

/-- **When a range reads as it should.** A range is refused or read byte by byte, whatever its address
and length are, unless its length is below zero, its end is below zero and yet in the memory when it
counts back from the end of the memory: then bytes are read though the range has none. -/
theorem readsRange_iff (m : Memory) (address length : Int) :
    m.ReadsRange address length ↔
      ¬ (0 ≤ address ∧ address + length < 0 ∧ 0 < m.size + length) := by
  unfold ReadsRange
  rw [readBlock_eq]
  by_cases inside : m.InBounds address length
  · rw [if_pos inside, slice_of_inBounds inside]
    obtain ⟨low, high⟩ := inside
    simp only [reduceCtorEq, false_or, Except.ok.injEq, exists_eq_left', List.length_map,
      List.length_range, List.getElem_map, List.getElem_range]
    constructor
    · rintro ⟨count, -⟩ ⟨-, below, some_byte⟩
      rw [if_pos below] at count
      omega
    · intro reads
      refine ⟨by split <;> omega, ?_⟩
      intro k hk
      congr 1
      omega
  · rw [if_neg inside]
    unfold InBounds at inside
    refine ⟨fun _ => ?_, fun _ => .inl rfl⟩
    omega

/-- At the address 10, a length of -20 tells of no bytes. A memory of 64 bytes counts the end, which is
-10, back from its own end, and reads the 44 bytes up to there. -/
theorem not_readsRange_below_zero :
    ¬ ((zeroed 64).put 10 [0xAA, 0xBB, 0xCC, 0xDD]).ReadsRange 10 (-20) := by
  have inside : ((zeroed 64).put 10 [0xAA, 0xBB, 0xCC, 0xDD]).InBounds 10 (-20) := by decide
  have length := congrArg List.length (slice_of_inBounds inside)
  rw [ReadsRange, readBlock_eq, if_pos inside]
  rintro (refused | ⟨bytes, read, count, -⟩)
  · exact absurd refused (by simp)
  · have size : ((zeroed 64).put 10 [0xAA, 0xBB, 0xCC, 0xDD]).size = 64 := size_put (by decide)
    obtain rfl := Except.ok.inj read
    rw [length, size] at count
    exact absurd count (by simp)

end Chip8.Memory
