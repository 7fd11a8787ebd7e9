/-!
# Registers

The sixteen general registers `V0` to `VF`, one byte each. Register numbers are taken modulo 16
and values modulo 256, so no access fails.
-/

namespace Chip8

/-- The register file. `VF` doubles as the flag register. -/
structure Registers where
  cells : Vector UInt8 16
  deriving Repr, DecidableEq

namespace Registers

/-- The number of the flag register. -/
def flag : Int := 0xF

/-- All registers zero. -/
def zero : Registers := ⟨Vector.replicate 16 0⟩

theorem slot_lt (r : Int) : (r % 16).toNat < 16 := by omega

/-- A register number reduced to one of the sixteen. -/
def slot (r : Int) : Fin 16 := ⟨(r % 16).toNat, slot_lt r⟩

/-- The value of a register. -/
def read (regs : Registers) (r : Int) : UInt8 := regs.cells[slot r]

/-- The value of a register as a number. -/
def value (regs : Registers) (r : Int) : Int := (regs.read r).toNat

/-- Replaces the byte of a register. -/
def put (regs : Registers) (r : Int) (b : UInt8) : Registers := ⟨regs.cells.set (slot r) b⟩

/-- Writes a value, taken modulo 256, to a register. -/
def write (regs : Registers) (r v : Int) : Registers := regs.put r (UInt8.ofInt v)

/-- Writes bytes to consecutive registers, from `r` on and cyclically. -/
def writeFrom (regs : Registers) (r : Int) : List UInt8 → Registers
  | [] => regs
  | b :: rest => writeFrom (regs.put r b) (r + 1) rest

/-- The bytes of the first `count` registers, cyclically beyond the last. -/
def take (regs : Registers) (count : Nat) : List UInt8 :=
  (List.range count).map fun (r : Nat) => regs.read r

/-- All values, `V0` first. -/
def toList (regs : Registers) : List UInt8 := regs.cells.toList

/-- The register written holds the new byte, and all others keep theirs. -/
theorem read_put (regs : Registers) (r s : Int) (b : UInt8) :
    (regs.put r b).read s = if slot r = slot s then b else regs.read s := by
  simp only [read, put, Fin.getElem_fin, Vector.getElem_set, Fin.ext_iff]

theorem value_write (regs : Registers) (r s v : Int) :
    (regs.write r v).value s = if slot r = slot s then v % 256 else regs.value s := by
  rw [value, write, read_put]
  split
  · simp [UInt8.ofInt]
    omega
  · rfl

/-- The number of a register is its own slot. -/
theorem slot_fin (r : Fin 16) : slot (r : Nat) = r := by
  apply Fin.ext
  unfold slot
  simp only
  omega

@[simp] theorem length_take (regs : Registers) (count : Nat) : (regs.take count).length = count := by
  simp [take]

/-- Registers of the same values are equal. -/
theorem eq_of_value {a b : Registers} (h : ∀ r : Fin 16, a.value r = b.value r) : a = b := by
  have cells : a.cells = b.cells := by
    apply Vector.ext
    intro k hk
    have number : slot (k : Nat) = ⟨k, hk⟩ := slot_fin ⟨k, hk⟩
    have bytes := h ⟨k, hk⟩
    simp only [value, read, number] at bytes
    exact UInt8.toNat_inj.mp (Int.ofNat_inj.mp bytes)
  cases a
  cases b
  exact congrArg _ cells

end Registers
end Chip8
