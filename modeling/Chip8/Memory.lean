import Chip8.Fault

/-!
# Memory

A bounded array of bytes. Every access names the number of bytes it covers, and an access whose
range leaves the memory is refused as a whole before anything changes. Words are stored high byte
first.
-/

namespace Chip8

/-- A memory of fixed size, addressed from zero. -/
structure Memory where
  bytes : Array UInt8
  deriving Repr, DecidableEq

namespace Memory

/-- A memory of zeros. -/
def zeroed (size : Nat) : Memory := ⟨Array.replicate size 0⟩

/-- A memory of zeros, if the size is one that a memory can have. -/
def ofSize? (size : Int) : Option Memory :=
  if size < 0 then none else some (zeroed size.toNat)

/-- The number of bytes. -/
def size (m : Memory) : Nat := m.bytes.size

/-- The range of `width` bytes from `address` lies in the memory. A width below zero asks only that
the end of the range is not above the memory. -/
def InBounds (m : Memory) (address width : Int) : Prop :=
  0 ≤ address ∧ address + width ≤ m.size

instance (m : Memory) (address width : Int) : Decidable (m.InBounds address width) :=
  inferInstanceAs (Decidable (_ ∧ _))

/-- The fault of an access to `width` bytes from `address`, if it is out of bounds. -/
def fault? (m : Memory) (address width : Int) : Option Fault :=
  if m.InBounds address width then none else some (.outOfBounds address width)

/-- Answers `value` if the access is in bounds, and refuses it otherwise. -/
def guarded {α : Type} (m : Memory) (address width : Int) (value : α) : Except Fault α :=
  match m.fault? address width with
  | none => .ok value
  | some f => .error f

/-- The byte at an address; zero outside the memory. -/
def byteAt (m : Memory) (address : Nat) : UInt8 := m.bytes.getD address 0

/-- The word of two bytes, high byte first. -/
def wordOf (high low : UInt8) : UInt16 := UInt16.ofNat (256 * high.toNat + low.toNat)

/-- The word at an address. -/
def wordAt (m : Memory) (address : Nat) : UInt16 :=
  wordOf (m.byteAt address) (m.byteAt (address + 1))

/-- The cells with those from `start` up to `stop` replaced by a block, which can be of any length. -/
def splice (cells : Array UInt8) (start stop : Nat) (block : List UInt8) : Array UInt8 :=
  (cells.toList.take start ++ block ++ cells.toList.drop (max start stop)).toArray

/-- The memory with a block of bytes in the place of as many cells from an address on. Where fewer
cells are left, the memory grows. -/
def put (m : Memory) (address : Int) (block : List UInt8) : Memory :=
  ⟨splice m.bytes address.toNat (address.toNat + block.length) block⟩

/-- The `length` bytes from an address on. If the end of the range lies below zero, it counts back
from the end of the memory. -/
def slice (m : Memory) (address length : Int) : List UInt8 :=
  let stop := address + length
  let last := if stop < 0 then stop + m.size else stop
  (m.bytes.extract address.toNat last.toNat).toList

/-- Reads one byte. -/
def readByte (m : Memory) (address : Int) : Except Fault UInt8 :=
  m.guarded address 1 (m.byteAt address.toNat)

/-- Reads a word of two bytes. -/
def readWord (m : Memory) (address : Int) : Except Fault UInt16 :=
  m.guarded address 2 (m.wordAt address.toNat)

/-- Reads the bytes of a range. -/
def readBlock (m : Memory) (address length : Int) : Except Fault (List UInt8) :=
  m.guarded address length (m.slice address length)

/-- Writes a block of bytes from an address on. -/
def writeBlock (m : Memory) (address : Int) (block : List UInt8) : Except Fault Memory :=
  m.guarded address block.length (m.put address block)

/-- Writes one byte, the value taken modulo 256. -/
def writeByte (m : Memory) (address value : Int) : Except Fault Memory :=
  m.guarded address 1 ⟨m.bytes.setIfInBounds address.toNat (UInt8.ofInt value)⟩

/-- Writes a word of two bytes, the value taken modulo 65536. -/
def writeWord (m : Memory) (address value : Int) : Except Fault Memory :=
  m.writeBlock address [UInt8.ofInt (value / 256), UInt8.ofInt value]

/-- Zeroes every byte and keeps the size. -/
def clear (m : Memory) : Memory := zeroed m.size

/-! ## What the operations keep and change -/

@[simp] theorem size_zeroed (n : Nat) : (zeroed n).size = n := by simp [zeroed, size]

@[simp] theorem size_clear (m : Memory) : m.clear.size = m.size := by simp [clear]

/-- The cells before the range, the block, and the cells behind the range. -/
theorem size_splice {cells : Array UInt8} {start stop : Nat} (block : List UInt8)
    (order : start ≤ stop) (inside : stop ≤ cells.size) :
    (splice cells start stop block).size = start + block.length + (cells.size - stop) := by
  simp [splice]
  omega

/-- A block in bounds takes the place of as many cells as it has bytes. -/
theorem size_put {m : Memory} {address : Int} {block : List UInt8}
    (inside : m.InBounds address block.length) : (m.put address block).size = m.size := by
  obtain ⟨low, high⟩ := inside
  unfold size at high ⊢
  rw [put, size_splice block (by omega) (by omega)]
  omega

/-- A cell of the range comes from the block, and any other cell is kept. -/
theorem getElem?_splice {cells : Array UInt8} {start : Nat} {block : List UInt8}
    (inside : start + block.length ≤ cells.size) (a : Nat) :
    (splice cells start (start + block.length) block)[a]? =
      if start ≤ a ∧ a < start + block.length then block[a - start]? else cells[a]? := by
  have before : (cells.toList.take start).length = start := by
    rw [List.length_take, Array.length_toList]
    omega
  rw [splice, Nat.max_eq_right (by omega), List.getElem?_toArray, List.append_assoc]
  by_cases below : a < start
  · rw [if_neg (by omega), List.getElem?_append_left (by omega), List.getElem?_take_of_lt below,
      Array.getElem?_toList]
  · rw [List.getElem?_append_right (by omega), before]
    by_cases within : a < start + block.length
    · rw [if_pos (by omega), List.getElem?_append_left (by omega)]
    · have offset : start + block.length + (a - start - block.length) = a := by omega
      rw [if_neg (by omega), List.getElem?_append_right (by omega), List.getElem?_drop, offset,
        Array.getElem?_toList]

@[simp] theorem put_nil (m : Memory) (address : Int) : m.put address [] = m := by
  simp [put, splice]

/-- A block in bounds is found where it was put, and all other bytes are kept. -/
theorem byteAt_put {m : Memory} {address : Int} {block : List UInt8}
    (inside : m.InBounds address block.length) (a : Nat) :
    (m.put address block).byteAt a =
      if address ≤ a then block[a - address.toNat]?.getD (m.byteAt a) else m.byteAt a := by
  obtain ⟨start, rfl⟩ := Int.eq_ofNat_of_zero_le inside.1
  have room : start + block.length ≤ m.bytes.size := by
    have high := inside.2
    unfold size at high
    omega
  simp only [put, Int.toNat_natCast, Int.ofNat_le, byteAt, Array.getD_eq_getD_getElem?,
    getElem?_splice room]
  by_cases within : start ≤ a ∧ a < start + block.length
  · have offset : a - start < block.length := by omega
    simp [within, offset]
  · by_cases behind : start ≤ a
    · rw [if_neg within, if_pos behind, List.getElem?_eq_none (by omega), Option.getD_none]
    · rw [if_neg within, if_neg behind]

/-- Memories of one size with the same bytes are the same. -/
theorem eq_of_byteAt {m m' : Memory} (size : m'.size = m.size)
    (same : ∀ a < m.size, m'.byteAt a = m.byteAt a) : m' = m := by
  obtain ⟨bytes⟩ := m
  obtain ⟨bytes'⟩ := m'
  refine congrArg Memory.mk (Array.ext size ?_)
  intro a ha' ha
  have byte := same a ha
  simpa [byteAt, Array.getD_eq_getD_getElem?, ha, ha'] using byte

theorem byteAt_of_size_le (m : Memory) {a : Nat} (ha : m.size ≤ a) : m.byteAt a = 0 := by
  rw [byteAt, Array.getD_eq_getD_getElem?, Array.getElem?_eq_none ha]
  rfl

theorem byteAt_zeroed (size a : Nat) : (zeroed size).byteAt a = 0 := by
  by_cases ha : a < size
  · simp [zeroed, byteAt, Array.getD_eq_getD_getElem?, ha]
  · exact byteAt_of_size_le _ (by rw [size_zeroed]; omega)

/-- A range in bounds holds the bytes at its addresses. -/
theorem slice_eq {m : Memory} {address length : Int} (low : 0 ≤ address) (nonneg : 0 ≤ length)
    (high : address + length ≤ m.size) :
    m.slice address length =
      (List.range length.toNat).map fun k => m.byteAt (address.toNat + k) := by
  unfold size at high
  have stop : ¬ address + length < 0 := by omega
  have bytes : m.slice address length =
      (m.bytes.extract address.toNat (address + length).toNat).toList := by
    rw [slice]
    simp only [if_neg stop]
  apply List.ext_getElem
  · rw [bytes]
    simp
    omega
  · intro k hk hk'
    have inside : address.toNat + k < m.bytes.size := by
      simp at hk'
      omega
    simp [bytes, byteAt, inside]

/-- An access is refused exactly if it is out of bounds. -/
theorem fault?_eq_none_iff {m : Memory} {address width : Int} :
    m.fault? address width = none ↔ m.InBounds address width := by
  unfold fault?
  split <;> simp_all

/-- A byte that is assigned is a block of one byte. -/
theorem writeByte_eq (m : Memory) (address value : Int) :
    m.writeByte address value = m.writeBlock address [UInt8.ofInt value] := by
  have length : (([UInt8.ofInt value].length : Nat) : Int) = 1 := rfl
  rw [writeByte, writeBlock, length, guarded, guarded]
  cases h : m.fault? address 1 with
  | some f => rfl
  | none =>
    obtain ⟨low, high⟩ := fault?_eq_none_iff.mp h
    have room : address.toNat + [UInt8.ofInt value].length ≤ m.bytes.size := by
      unfold size at high
      simp only [List.length_singleton]
      omega
    refine congrArg (fun bytes => Except.ok (Memory.mk bytes)) (Array.ext_getElem? ?_)
    intro a
    rw [getElem?_splice room, Array.getElem?_setIfInBounds, List.length_singleton]
    by_cases same : address.toNat = a
    · subst same
      simp only [List.length_singleton] at room
      simp [show address.toNat < m.bytes.size by omega]
    · rw [if_neg same, if_neg (by omega)]

end Memory
end Chip8
