import Chip8.Proofs.Clock

/-!
# What does not overflow

A part of a whole has a share of it (`Binary64.ratio_of_le`). A clock whose rates have a finite quotient
grants the steps of every frame (`FrameClock.Steady.grants`): its debt stays a fraction, and a fraction
added to a finite number does not overflow (`Binary64.add_fraction`).
-/

-- powers are those of `Nat` itself, whatever is imported, and a written exponent tells its type for that
attribute [local instance (high)] instPowNat

namespace Chip8

namespace Binary64

theorem roundUnits_le (num den : Nat) : roundUnits num den ≤ num / den + spacing (num / den) := by
  have near := roundHalfEven_le num (den * spacing (num / den))
  rw [← Nat.div_div_eq_div_mul] at near
  calc roundUnits num den
      ≤ (num / den / spacing (num / den) + 1) * spacing (num / den) := Nat.mul_le_mul_right _ near
    _ = num / den / spacing (num / den) * spacing (num / den) + spacing (num / den) :=
        Nat.succ_mul _ _
    _ ≤ num / den + spacing (num / den) :=
        Nat.add_le_add_right (Nat.div_mul_le_self _ _) _

/-- Less than half the distance to the next number is rounded away. -/
theorem roundUnits_add_small {units part : Nat} (h : Representable units)
    (small : 2 * part < spacing units) : roundUnits (units + part) 1 = units := by
  have same : (units + part).log2 = units.log2 := by
    by_cases zero : units = 0
    · have none_left : part = 0 := by
        rw [zero, spacing, Nat.log2_zero, Nat.zero_sub, Nat.pow_zero] at small
        omega
      rw [none_left, Nat.add_zero]
    · -- the next power of two is a multiple of the spacing, too
      have grid : spacing units ∣ 2 ^ (units.log2 + 1) := Nat.pow_dvd_pow 2 (by omega)
      have room : spacing units ≤ 2 ^ (units.log2 + 1) - units :=
        Nat.le_of_dvd (Nat.sub_pos_of_lt Nat.lt_log2_self) (Nat.dvd_sub grid h)
      have low := Nat.log2_self_le zero
      have high := Nat.lt_log2_self (n := units)
      rw [Nat.log2_eq_iff (by omega)]
      omega
  have quotient : (units + part) / spacing units = units / spacing units := by
    obtain ⟨count, parts⟩ := h
    generalize spacing units = step at parts small
    rw [parts, Nat.mul_add_div (by omega), Nat.div_eq_of_lt (by omega), Nat.add_zero,
      Nat.mul_div_cancel_left _ (by omega)]
  have rest : (units + part) % spacing units = part := by
    rw [Nat.add_mod, Nat.mod_eq_zero_of_dvd h, Nat.zero_add, Nat.mod_mod,
      Nat.mod_eq_of_lt (by omega)]
  have rounded : roundHalfEven (units + part) (spacing units) = units / spacing units := by
    unfold roundHalfEven
    simp only [quotient, rest]
    exact if_pos small
  unfold roundUnits
  simp only [Nat.div_one, Nat.one_mul, same]
  show roundHalfEven (units + part) (spacing units) * spacing units = units
  rw [rounded]
  exact Nat.div_mul_cancel h

theorem double_two_pow_le {a b : Nat} (h : a < b) : 2 * 2 ^ a ≤ 2 ^ b := by
  rw [← Nat.pow_succ']
  exact Nat.pow_le_pow_right (by decide) h

/-- What is small on the grid below a power of two does not carry a number over that power. -/
theorem roundUnits_add_lt_two_pow {units part e : Nat} (h : Representable units) (he : 53 ≤ e)
    (bound : units < 2 ^ e) (small : 2 * part < 2 ^ (e - 53)) :
    roundUnits (units + part) 1 < 2 ^ e := by
  obtain ⟨k, rfl⟩ : ∃ k, e = k + 1 := ⟨e - 1, by omega⟩
  have double : 2 ^ (k + 1) = 2 * 2 ^ k := Nat.pow_succ'
  have coarse : 2 * 2 ^ (k + 1 - 53) ≤ 2 ^ k := double_two_pow_le (by omega)
  rcases Nat.lt_or_ge units (2 ^ k) with low | high
  · have bits : (units + part).log2 ≤ k := by
      by_cases zero : units + part = 0
      · rw [zero, Nat.log2_zero]
        exact Nat.zero_le k
      · exact Nat.le_of_lt_succ ((Nat.log2_lt zero).mpr (by omega))
    have step : spacing (units + part) ≤ 2 ^ (k + 1 - 53) :=
      Nat.pow_le_pow_right (by decide) (by omega)
    have rounded := roundUnits_le (units + part) 1
    rw [Nat.div_one] at rounded
    omega
  · have positive := Nat.two_pow_pos k
    have bits : units.log2 = k := (Nat.log2_eq_iff (by omega)).mpr ⟨high, bound⟩
    have step : spacing units = 2 ^ (k + 1 - 53) := by
      rw [spacing, bits, Nat.add_sub_add_right]
    rw [roundUnits_add_small h (step ▸ small)]
    exact bound

/-- A fraction added to a finite number does not make it overflow. -/
theorem roundUnits_add_fraction {units part : Nat} (h : Representable units)
    (bound : units < unitsLimit) (fraction : part < unitsPerOne) :
    roundUnits (units + part) 1 < unitsLimit := by
  have small : 2 * part < 2 ^ (2098 - 53 : Nat) := by
    have tiny : 2 * unitsPerOne ≤ 2 ^ (2098 - 53 : Nat) := by
      have gap := @double_two_pow_le 1074 (2098 - 53) (by decide)
      rw [unitsPerOne]
      exact gap
    omega
  have carried := @roundUnits_add_lt_two_pow units part 2098 h (by decide)
  rw [unitsLimit] at bound ⊢
  exact carried bound small

/-- The sum of a fraction and a finite number is finite. -/
theorem add_fraction {part units : Nat} (fraction : part < unitsPerOne) (h : Representable units)
    (bound : units < unitsLimit) :
    ∃ sum, add (.finite false part) (.finite false units) = .finite false sum := by
  have total : signedUnits (.finite false part) + signedUnits (.finite false units) =
      (units + part : Nat) := by
    simp only [signedUnits, Bool.false_eq_true, if_false]
    omega
  have nonneg : decide (((units + part : Nat) : Int) < 0) = false := by
    rw [decide_eq_false_iff_not]
    omega
  rw [add]
  simp only [total, nonneg, Int.natAbs_natCast]
  split
  · exact ⟨0, rfl⟩
  · unfold ofUnits
    simp only
    rw [if_pos (roundUnits_add_fraction h bound fraction)]
    exact ⟨_, rfl⟩

theorem spacing_le (units : Nat) : spacing units ≤ units + 1 := by
  by_cases zero : units = 0
  · subst zero
    decide
  · calc spacing units
        ≤ 2 ^ units.log2 := Nat.pow_le_pow_right (by decide) (Nat.sub_le _ _)
      _ ≤ units := Nat.log2_self_le zero
      _ ≤ units + 1 := Nat.le_succ units

/-- A part of a whole has a share of it. -/
theorem ratio_of_le {a b : Int} (ha : 0 ≤ a) (hab : a ≤ b) (hb : 0 < b) :
    ∃ x, ratio a b = .ok x := by
  have share : a.natAbs * unitsPerOne / b.natAbs ≤ unitsPerOne := by
    apply Nat.div_le_of_le_mul
    exact Nat.mul_le_mul_right _ (by omega)
  have rounded := roundUnits_le (a.natAbs * unitsPerOne) b.natAbs
  have step := spacing_le (a.natAbs * unitsPerOne / b.natAbs)
  have room : 4 * unitsPerOne ≤ unitsLimit := by
    have gap := @double_two_pow_le 1075 2098 (by decide)
    have half := @double_two_pow_le 1074 1075 (by decide)
    rw [← unitsLimit] at gap
    rw [← unitsPerOne] at half
    omega
  have one := unitsPerOne_pos
  have finite : roundUnits (a.natAbs * unitsPerOne) b.natAbs < unitsLimit := by omega
  rw [ratio_eq ha (Int.le_of_lt hb)]
  unfold ofUnits
  simp only
  rw [if_pos finite]
  exact ⟨_, rfl⟩

end Binary64

namespace FrameClock

/-- The clock after `n` frames of one timer period each. -/
def framed {α : Type} [Duration α] (c : FrameClock α) : Nat → FrameClock α
  | 0 => c
  | n + 1 => (framed c n).frame.1

/-- The rates have a finite quotient, and the processor is owed a fraction of a step. -/
structure Steady (c : FrameClock Binary64) : Prop where
  cpuRate_nonneg : 0 ≤ c.cpuRate
  timerRate_nonneg : 0 ≤ c.timerRate
  quotient : ∃ grant, Binary64.ratio c.cpuRate c.timerRate = .ok grant
  fraction : ∃ part < Binary64.unitsPerOne, c.cpuDebt = .finite false part

variable {c : FrameClock Binary64}

theorem Steady.frame (h : c.Steady) :
    (∃ steps : Nat, c.frame.2 = .ok (steps, 1)) ∧ c.frame.1.Steady := by
  obtain ⟨grant, finite⟩ := h.quotient
  obtain ⟨part, fraction, debt⟩ := h.fraction
  have quotient := finite
  rw [Binary64.ratio_eq h.cpuRate_nonneg h.timerRate_nonneg] at finite
  obtain ⟨units, rfl, -, representable, bound⟩ := Binary64.checked_ofUnits finite
  obtain ⟨sum, added⟩ := Binary64.add_fraction fraction representable bound
  obtain ⟨representable, bound⟩ := Binary64.inFormat_add _ _ _ _ added
  have due : Duration.add c.cpuDebt (Binary64.finite false units) = .finite false sum := by
    rw [debt]
    exact added
  have whole : Duration.whole (Duration.add c.cpuDebt (Binary64.finite false units)) =
      .ok ((sum / Binary64.unitsPerOne : Nat) : Int) := by
    rw [due]
    rfl
  have rest : Duration.subInt (Binary64.finite false sum) (sum / Binary64.unitsPerOne : Nat) =
    .finite false (sum % Binary64.unitsPerOne) := Binary64.subInt_whole representable bound
  have ratio : Duration.ratio c.cpuRate c.timerRate = .ok (Binary64.finite false units) := quotient
  have granted := frame_eq ratio whole
  rw [due, rest] at granted
  rw [granted]
  exact ⟨⟨_, rfl⟩, { h with fraction := ⟨_, Nat.mod_lt _ Binary64.unitsPerOne_pos, rfl⟩ }⟩

theorem Steady.framed (h : c.Steady) (n : Nat) : (c.framed n).Steady := by
  induction n with
  | zero => exact h
  | succ n ih =>
    rw [FrameClock.framed]
    exact ih.frame.2

/-- A clock that is steady grants the steps of every frame. -/
theorem Steady.grants (h : c.Steady) :
    ∃ steps : Nat → Nat, ∀ n, (c.framed n).frame.2 = .ok ((steps n : Int), 1) :=
  Classical.skolem.mp fun n => (h.framed n).frame.1

end FrameClock
end Chip8
