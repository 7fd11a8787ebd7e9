import Chip8.Proofs.Executions

/-!
# Laws of the register-register arithmetic

Result and flag of an operation `8xy0` to `8xyE` together satisfy a law about the operands as numbers,
which determines both of them (`Alu.lawful`, `Alu.Law.unique`). The operands are the values before the
instruction, whichever of the two registers is the flag register. The law is met by what the registers
hold afterwards, but for a flag that the result has replaced (`Machine.alu_laws`).
-/

-- powers are those of the number types themselves
attribute [local instance (high)] instPowNat

namespace Chip8

/-- A byte is computed bit by bit from two others. -/
def Bitwise (f : Bool → Bool → Bool) (a b result : UInt8) : Prop :=
  ∀ i, result.toNat.testBit i = f (a.toNat.testBit i) (b.toNat.testBit i)

theorem Bitwise.unique {f : Bool → Bool → Bool} {a b result result' : UInt8}
    (h : Bitwise f a b result) (h' : Bitwise f a b result') : result = result' := by
  apply UInt8.toNat_inj.mp
  apply Nat.eq_of_testBit_eq
  intro i
  rw [h i, h' i]

/-- A byte that is one or zero. -/
def IsFlag (flag : UInt8) : Prop := flag.toNat ≤ 1

namespace Alu

/-- The last digit of the words that encode an operation. -/
def digit : Alu → Nat
  | .copy => 0x0
  | .or => 0x1
  | .and => 0x2
  | .xor => 0x3
  | .add => 0x4
  | .sub => 0x5
  | .shiftRight => 0x6
  | .subFrom => 0x7
  | .shiftLeft => 0xE

/-- The word of an operation on two registers. -/
def word (op : Alu) (x y : Fin 16) : Nat := 0x8000 + 0x100 * x + 0x10 * y + op.digit

/-- What the result and the flag of an operation have to do with its operands `a` and `b`. The byte that
the flag register held before matters only where the operation leaves it. -/
def Law (d : Dialect) (a b before result flag : UInt8) : Alu → Prop
  | .copy => result = b ∧ flag = before
  | .or => Bitwise Bool.or a b result ∧ flag = if d.logicClearsFlag then 0 else before
  | .and => Bitwise Bool.and a b result ∧ flag = if d.logicClearsFlag then 0 else before
  | .xor => Bitwise Bool.xor a b result ∧ flag = if d.logicClearsFlag then 0 else before
  | .add => IsFlag flag ∧ 256 * flag.toNat + result.toNat = a.toNat + b.toNat
  | .sub => IsFlag flag ∧
      (result.toNat : Int) = a.toNat - b.toNat + 256 * (1 - (flag.toNat : Int))
  | .subFrom => IsFlag flag ∧
      (result.toNat : Int) = b.toNat - a.toNat + 256 * (1 - (flag.toNat : Int))
  | .shiftRight => IsFlag flag ∧
      2 * result.toNat + flag.toNat = (if d.shiftsVy then b else a).toNat
  | .shiftLeft => IsFlag flag ∧
      256 * flag.toNat + result.toNat = 2 * (if d.shiftsVy then b else a).toNat

/-- The byte in the flag register once the flag is written, if there is one. -/
def flagByte (before : UInt8) : Option Bool → UInt8
  | some flag => if flag then 1 else 0
  | none => before

theorem word_lt (op : Alu) (x y : Fin 16) : op.word x y < 65536 := by
  unfold word
  cases op <;> simp only [digit] <;> omega

theorem word_x (op : Alu) (x y : Fin 16) : op.word x y / 256 % 16 = x := by
  unfold word
  cases op <;> simp only [digit] <;> omega

theorem word_y (op : Alu) (x y : Fin 16) : op.word x y / 16 % 16 = y := by
  unfold word
  cases op <;> simp only [digit] <;> omega

theorem admits_word (op : Alu) (x y : Fin 16) :
    (Operation.alu op).encoding.admits (op.word x y) = true := by
  have split : op.word x y / 4096 = 0x8 ∧ op.word x y % 16 = op.digit := by
    unfold word
    cases op <;> simp only [digit] <;> omega
  cases op <;> exact (Encoding.admits_lastDigit (word_lt ..)).mpr split

/-! ## The laws hold -/

section

variable (a b before : UInt8)

theorem isFlag_flagByte (flag : Bool) : IsFlag (flagByte before (some flag)) := by
  cases flag <;> simp [IsFlag, flagByte]

theorem toNat_flagByte (p : Prop) [Decidable p] :
    (flagByte before (some (decide p))).toNat = if p then 1 else 0 := by
  by_cases h : p <;> simp [flagByte, h]

theorem toNat_flagByte_testBit (i : Nat) :
    (flagByte before (some (a.toNat.testBit i))).toNat = a.toNat / 2 ^ i % 2 := by
  rw [Nat.testBit_eq_decide_div_mod_eq, toNat_flagByte]
  split <;> omega

/-- The sum of two bytes is the byte that their addition leaves and a carry. -/
theorem carry_add :
    256 * (flagByte before (some (decide (255 < a.toNat + b.toNat)))).toNat + (a + b).toNat =
      a.toNat + b.toNat := by
  have ha := a.toNat_lt
  have hb := b.toNat_lt
  rw [toNat_flagByte, UInt8.toNat_add]
  split <;> omega

/-- The difference of two bytes is the byte that their subtraction leaves, less the 256 that are
borrowed if the flag is zero. -/
theorem borrow_sub :
    ((a - b).toNat : Int) = a.toNat - b.toNat +
      256 * (1 - ((flagByte before (some (decide (b ≤ a)))).toNat : Int)) := by
  have ha := a.toNat_lt
  have hb := b.toNat_lt
  rw [toNat_flagByte, UInt8.toNat_sub]
  simp only [UInt8.le_iff_toNat_le]
  split <;> omega

/-- A byte is twice its half and the bit that halving drops. -/
theorem halve :
    2 * (a >>> 1).toNat + (flagByte before (some (a.toNat.testBit 0))).toNat = a.toNat := by
  rw [toNat_flagByte_testBit, UInt8.toNat_shiftRight, Nat.shiftRight_eq_div_pow]
  show 2 * (a.toNat / 2 ^ 1) + a.toNat / 2 ^ 0 % 2 = a.toNat
  omega

/-- Twice a byte is the byte that doubling leaves and the bit that it drops. -/
theorem double :
    256 * (flagByte before (some (a.toNat.testBit 7))).toNat + (a <<< 1).toNat = 2 * a.toNat := by
  have ha := a.toNat_lt
  rw [toNat_flagByte_testBit, UInt8.toNat_shiftLeft, Nat.shiftLeft_eq]
  show 256 * (a.toNat / 2 ^ 7 % 2) + a.toNat * 2 ^ 1 % 2 ^ 8 = 2 * a.toNat
  omega

theorem bitwise_or : Bitwise Bool.or a b (a ||| b) := by
  intro i
  rw [UInt8.toNat_or, Nat.testBit_or]

theorem bitwise_and : Bitwise Bool.and a b (a &&& b) := by
  intro i
  rw [UInt8.toNat_and, Nat.testBit_and]

theorem bitwise_xor : Bitwise Bool.xor a b (a ^^^ b) := by
  intro i
  rw [UInt8.toNat_xor, Nat.testBit_xor]

theorem flagByte_logic (clears : Bool) :
    flagByte before (if clears then some false else none) = if clears then 0 else before := by
  cases clears <;> rfl

/-- The result and the flag of every operation satisfy its law. -/
theorem lawful (d : Dialect) (op : Alu) :
    op.Law d a b before (result d a b op) (flagByte before (flag d a b op)) := by
  cases op with
  | copy => exact ⟨rfl, rfl⟩
  | or => exact ⟨bitwise_or a b, flagByte_logic ..⟩
  | and => exact ⟨bitwise_and a b, flagByte_logic ..⟩
  | xor => exact ⟨bitwise_xor a b, flagByte_logic ..⟩
  | add => exact ⟨isFlag_flagByte .., carry_add ..⟩
  | sub => exact ⟨isFlag_flagByte .., borrow_sub ..⟩
  | subFrom => exact ⟨isFlag_flagByte .., borrow_sub ..⟩
  | shiftRight => exact ⟨isFlag_flagByte .., halve ..⟩
  | shiftLeft => exact ⟨isFlag_flagByte .., double ..⟩

end

/-! ## The laws determine result and flag -/

/-- No other result and no other flag satisfy the law of an operation. -/
theorem Law.unique {d : Dialect} {op : Alu} {a b before result flag result' flag' : UInt8}
    (h : op.Law d a b before result flag) (h' : op.Law d a b before result' flag') :
    result = result' ∧ flag = flag' := by
  have small := result.toNat_lt
  have small' := result'.toNat_lt
  cases op with
  | copy => exact ⟨h.1.trans h'.1.symm, h.2.trans h'.2.symm⟩
  | or | and | xor => exact ⟨h.1.unique h'.1, h.2.trans h'.2.symm⟩
  | add | sub | subFrom | shiftRight | shiftLeft =>
    obtain ⟨bit, sum⟩ := h
    obtain ⟨bit', sum'⟩ := h'
    unfold IsFlag at bit bit'
    refine ⟨UInt8.toNat_inj.mp ?_, UInt8.toNat_inj.mp ?_⟩ <;> omega

end Alu

namespace Registers

variable (regs : Registers) (r : Int)

theorem read_flagged (flag? : Option Bool) :
    (regs.flagged flag?).read r =
      if slot flag = slot r then Alu.flagByte (regs.read flag) flag? else regs.read r := by
  cases flag? with
  | none =>
    split
    · rename_i same
      exact congrArg (fun slot => regs.cells[slot]) same.symm
    · rfl
  | some set =>
    rw [flagged, write, read_put]
    cases set <;> rfl

theorem slot_flag : slot flag = 0xF := slot_fin 0xF

variable (d : Dialect) (op : Alu) (x y : Fin 16)

/-- The result is written last, so it stands in the flag register too if that is the target. -/
theorem read_arithmetic_target :
    (regs.arithmetic d op x.val y.val).read x.val =
      Alu.result d (regs.read x.val) (regs.read y.val) op := by
  rw [arithmetic, read_put, if_pos rfl]

theorem read_arithmetic_flag {x : Fin 16} (plain : x ≠ 0xF) :
    (regs.arithmetic d op x.val y.val).read flag =
      Alu.flagByte (regs.read flag) (Alu.flag d (regs.read x.val) (regs.read y.val) op) := by
  rw [arithmetic, read_put, read_flagged, slot_fin, slot_flag, if_neg plain, if_pos rfl]

theorem read_arithmetic_other {x r : Fin 16} (other : r ≠ x) (plain : r ≠ 0xF) :
    (regs.arithmetic d op x.val y.val).read r.val = regs.read r.val := by
  rw [arithmetic, read_put, read_flagged, slot_fin, slot_fin, slot_flag, if_neg (Ne.symm other),
    if_neg (Ne.symm plain)]

end Registers

namespace Machine

theorem executeWord_alu (m : Machine) (op : Alu) (x y : Fin 16) :
    m.executeWord (op.word x y : Nat) =
      ({ m with
          registers := m.registers.arithmetic m.dialect op x.val y.val
          tally := m.tally.record (.alu op)
          cycles := m.cycles + 1 }, none) := by
  rw [executeWord_of_admits (Alu.word_lt op x y) (Alu.admits_word op x y) rfl, Machine.execute,
    effect_eq]
  simp only [Instruction.ofWord, Alu.word_x, Alu.word_y]
  rfl

/-- **The laws of arithmetic.** On any machine, in any dialect and for any two registers, be they the
same or one of them the flag register, an operation `8xy0` to `8xyE` succeeds and writes no register but
`Vx` and the flag register. What these hold afterwards satisfies the law of the operation for the values
that `Vx` and `Vy` had before it. If `x` is the flag register, it holds the result, and the flag
is lost. -/
theorem alu_laws (m : Machine) (op : Alu) (x y : Fin 16) :
    let after := (m.executeWord (op.word x y : Nat)).1
    let law := fun result flag => op.Law m.dialect (m.registers.read x.val) (m.registers.read y.val)
      (m.registers.read Registers.flag) result flag
    (m.executeWord (op.word x y : Nat)).2 = none ∧
    after =
      { m with
        registers := after.registers
        tally := m.tally.record (.alu op)
        cycles := m.cycles + 1 } ∧
    (∀ r : Fin 16, r ≠ x → r ≠ 0xF → after.registers.read r.val = m.registers.read r.val) ∧
    (x ≠ 0xF → law (after.registers.read x.val) (after.registers.read Registers.flag)) ∧
    (x = 0xF → ∃ flag, law (after.registers.read Registers.flag) flag) := by
  intro after law
  have lawful := Alu.lawful (m.registers.read x.val) (m.registers.read y.val)
    (m.registers.read Registers.flag) m.dialect op
  have executed := m.executeWord_alu op x y
  have registers : after.registers = m.registers.arithmetic m.dialect op x.val y.val := by
    unfold after
    rw [executed]
  refine ⟨?_, ?_, ?_, ?_, ?_⟩
  · rw [executed]
  · unfold after
    rw [executed]
  · intro r other plain
    rw [registers]
    exact Registers.read_arithmetic_other _ _ _ _ other plain
  · intro plain
    rw [registers, Registers.read_arithmetic_target, Registers.read_arithmetic_flag _ _ _ _ plain]
    exact lawful
  · rintro rfl
    have target : after.registers.read Registers.flag =
        Alu.result m.dialect (m.registers.read Registers.flag) (m.registers.read y.val) op := by
      rw [registers]
      exact m.registers.read_arithmetic_target m.dialect op 0xF y
    rw [target]
    exact ⟨_, lawful⟩

end Machine
end Chip8
