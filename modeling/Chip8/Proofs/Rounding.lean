import Chip8.Proofs.Binary64
import Mathlib.Algebra.Order.Field.Basic
import Mathlib.Algebra.Order.Field.Rat
import Mathlib.Tactic.FieldSimp
import Mathlib.Tactic.Linarith
import Mathlib.Tactic.Ring

/-!
# Correct rounding

A finite number denotes a rational (`Binary64.value`). The operations that a clock needs are correctly
rounded as long as their result is finite: it is a number of the format nearest to the exact result, and
of two that are as near the even one (`Binary64.Rounds`).
-/

-- powers are those of `Nat` itself, whatever is imported, and a written exponent tells its type for that
attribute [local instance (high)] instPowNat

namespace Chip8

/-! ## Quotients -/

/-- The nearest integer is at most half a unit away, and if it is half a unit away it is even. -/
theorem roundHalfEven_half {num den : Nat} (hd : 0 < den) :
    2 * num ≤ 2 * (roundHalfEven num den * den) + den ∧
      2 * (roundHalfEven num den * den) ≤ 2 * num + den ∧
      (2 * num = 2 * (roundHalfEven num den * den) + den ∨
        2 * (roundHalfEven num den * den) = 2 * num + den → 2 ∣ roundHalfEven num den) := by
  have parts := Nat.div_add_mod' num den
  have rest := Nat.mod_lt num hd
  unfold roundHalfEven
  simp only
  have next : (num / den + 1) * den = num / den * den + den := Nat.succ_mul _ _
  split
  · omega
  · split
    · omega
    · split <;> omega

/-- How far two counts are apart. -/
def apart (a b : Nat) : Nat := ((a : Int) - b).natAbs

/-- No other multiple of the denominator is nearer, and if one is as near, the nearest one is even. -/
theorem roundHalfEven_nearest {num den : Nat} (hd : 0 < den) (k : Nat) :
    apart (roundHalfEven num den * den) num ≤ apart (k * den) num ∧
      (apart (k * den) num = apart (roundHalfEven num den * den) num → k ≠ roundHalfEven num den →
        2 ∣ roundHalfEven num den) := by
  obtain ⟨below, above, even⟩ := @roundHalfEven_half num den hd
  generalize roundHalfEven num den = r at *
  unfold apart
  rcases Nat.lt_trichotomy k r with less | rfl | more
  · have gap : k * den + den ≤ r * den := by
      rw [← Nat.succ_mul]
      exact Nat.mul_le_mul_right _ less
    omega
  · exact ⟨Nat.le_refl _, fun _ other => absurd rfl other⟩
  · have gap : r * den + den ≤ k * den := by
      rw [← Nat.succ_mul]
      exact Nat.mul_le_mul_right _ more
    omega

namespace Binary64

/-! ## Counts of units -/

/-- From the leading bit of a count on, its grid has all that is representable. -/
theorem Representable.spacing_dvd_of_le {n units : Nat} (h : Representable units)
    (low : 2 ^ n.log2 ≤ units) : spacing n ∣ units := by
  have positive := Nat.two_pow_pos n.log2
  have bits : n.log2 ≤ units.log2 := (Nat.le_log2 (by omega)).mpr low
  exact Nat.dvd_trans (Nat.pow_dvd_pow 2 (by omega)) h

theorem even_shifted {q : Nat} (h : q ≤ 2 ^ (52 : Nat)) (e : Nat) :
    2 * spacing (q * 2 ^ (e + 1)) ∣ q * 2 ^ (e + 1) := by
  unfold spacing
  rw [← Nat.pow_succ']
  rcases Nat.lt_or_eq_of_le h with small | rfl
  · by_cases zero : q * 2 ^ (e + 1) = 0
    · rw [zero]
      exact Nat.dvd_zero _
    · have bound : q * 2 ^ (e + 1) < 2 ^ (52 + (e + 1)) := by
        rw [Nat.pow_add 2 52]
        exact Nat.mul_lt_mul_of_pos_right small (Nat.two_pow_pos _)
      have bits := (Nat.log2_lt zero).mpr bound
      exact Nat.dvd_trans (Nat.pow_dvd_pow 2 (by omega)) (Nat.dvd_mul_left _ _)
  · rw [← Nat.pow_add, Nat.log2_two_pow]
    exact Nat.pow_dvd_pow 2 (by omega)

/-- A rounded count is even if its multiple of the spacing is. -/
theorem even_roundUnits {num den : Nat}
    (h : 2 ∣ roundHalfEven num (den * spacing (num / den))) :
    2 * spacing (roundUnits num den) ∣ roundUnits num den := by
  obtain ⟨half, twice⟩ := h
  have near := roundHalfEven_le num (den * spacing (num / den))
  have below := div_spacing_lt (num / den)
  rw [← Nat.div_div_eq_div_mul] at near
  have rounded : roundUnits num den = half * 2 ^ ((num / den).log2 - 52 + 1) := by
    have steps : roundUnits num den =
      roundHalfEven num (den * spacing (num / den)) * spacing (num / den) := rfl
    rw [steps, twice, spacing, Nat.pow_succ', Nat.mul_comm 2 half, Nat.mul_assoc]
  rw [rounded]
  exact even_shifted (by omega) _

/-- What is representable off the grid of a quotient lies below its leading bit. -/
theorem Representable.apart_lt {num den units : Nat} (h : Representable units) (hd : 0 < den)
    (off_grid : ¬ spacing (num / den) ∣ units) :
    apart (2 ^ (num / den).log2 * den) num < apart (units * den) num := by
  have low : units < 2 ^ (num / den).log2 :=
    Nat.lt_of_not_le fun high => off_grid (h.spacing_dvd_of_le high)
  have leading : 2 ^ (num / den).log2 ≤ num / den := by
    by_cases zero : num / den = 0
    · -- the grid of zero is that of all counts
      rw [zero] at off_grid
      exact absurd (Nat.one_dvd units) off_grid
    · exact Nat.log2_self_le zero
  have reached : 2 ^ (num / den).log2 * den ≤ num :=
    Nat.le_trans (Nat.mul_le_mul_right _ leading) (Nat.div_mul_le_self num den)
  have below : units * den < 2 ^ (num / den).log2 * den := Nat.mul_lt_mul_of_pos_right low hd
  unfold apart
  omega

/-- Rounding gives a count that is nearest to a quotient among all that are representable, and of two that
are as near the even one. -/
theorem roundUnits_nearest {num den units : Nat} (hd : 0 < den) (h : Representable units) :
    apart (roundUnits num den * den) num ≤ apart (units * den) num ∧
      (apart (units * den) num = apart (roundUnits num den * den) num → units ≠ roundUnits num den →
        2 * spacing (roundUnits num den) ∣ roundUnits num den) := by
  have positive : 0 < den * spacing (num / den) := Nat.mul_pos hd (Nat.two_pow_pos _)
  have steps : roundUnits num den =
    roundHalfEven num (den * spacing (num / den)) * spacing (num / den) := rfl
  have scaled : ∀ k, k * (den * spacing (num / den)) = k * spacing (num / den) * den := by
    intro k
    rw [Nat.mul_comm den, Nat.mul_assoc]
  have grid : ∀ k, _ := fun k => @roundHalfEven_nearest num _ positive k
  simp only [scaled, ← steps] at grid
  by_cases on_grid : spacing (num / den) ∣ units
  · obtain ⟨k, rfl⟩ := on_grid
    rw [Nat.mul_comm (spacing (num / den)) k]
    obtain ⟨nearest, even⟩ := grid k
    refine ⟨nearest, fun tie other => even_roundUnits (even tie ?_)⟩
    rintro rfl
    exact other rfl
  · obtain ⟨k, leading⟩ : spacing (num / den) ∣ 2 ^ (num / den).log2 :=
      Nat.pow_dvd_pow 2 (Nat.sub_le _ _)
    have farther := h.apart_lt hd on_grid
    rw [leading, Nat.mul_comm (spacing (num / den)) k] at farther
    have nearer := Nat.lt_of_le_of_lt (grid k).1 farther
    exact ⟨Nat.le_of_lt nearer, fun tie => absurd tie.symm (Nat.ne_of_lt nearer)⟩

/-! ## Numbers as rationals -/

/-- A finite number of the format. -/
def IsNumber (x : Binary64) : Prop :=
  ∃ negative units, x = .finite negative units ∧ Representable units ∧ units < unitsLimit

/-- The last of the significant bits is zero. -/
def IsEven (x : Binary64) : Prop :=
  ∀ negative units, x = .finite negative units → 2 * spacing units ∣ units

/-- Neither infinite nor a NaN. -/
def IsFinite (x : Binary64) : Prop := ∃ negative units, x = .finite negative units

instance (x : Binary64) : Decidable x.IsFinite :=
  match x with
  | .finite negative units => .isTrue ⟨negative, units, rfl⟩
  | .infinite _ | .nan => .isFalse (by simp [IsFinite])

/-- The rational that a finite number denotes. -/
def value (x : Binary64) : Rat := (signedUnits x : Rat) / unitsPerOne

/-- A number of the format is nearest to a rational, and of two that are as near it is the even one. -/
structure Rounds (q : Rat) (x : Binary64) : Prop where
  number : x.IsNumber
  nearest : ∀ y : Binary64, y.IsNumber → |x.value - q| ≤ |y.value - q|
  even : ∀ y : Binary64, y.IsNumber → |y.value - q| = |x.value - q| → y.value ≠ x.value → x.IsEven

theorem unitsPerOne_cast_pos : (0 : Rat) < unitsPerOne := Nat.cast_pos.mpr unitsPerOne_pos

theorem value_finite (units : Nat) :
    value (.finite false units) = (units : Rat) / unitsPerOne := by
  have count : signedUnits (.finite false units) = units := rfl
  rw [value, count, Int.cast_natCast]

theorem value_negative (units : Nat) : value (.finite true units) = -((units : Rat) / unitsPerOne) := by
  have count : signedUnits (.finite true units) = -(units : Int) := rfl
  rw [value, count, Int.cast_neg, Int.cast_natCast, neg_div]

/-- The distance from a quotient of units, as a fraction. -/
theorem abs_sub_quotient {den : Nat} (hd : 0 < den) (units num : Nat) :
    |(units : Rat) / unitsPerOne - (num : Rat) / den / unitsPerOne| =
      (apart (units * den) num : Rat) / (den * unitsPerOne) := by
  have one := unitsPerOne_cast_pos
  have positive : (0 : Rat) < den := Nat.cast_pos.mpr hd
  have common : (units : Rat) / unitsPerOne - (num : Rat) / den / unitsPerOne =
      ((((units * den : Nat) : Int) - num : Int) : Rat) / (den * unitsPerOne) := by
    push_cast
    field_simp
  rw [common, abs_div, abs_of_pos (mul_pos positive one), apart, Nat.cast_natAbs, Int.cast_abs]

/-- Among the numbers that are not below zero, one is as near to such a rational as any number is. -/
theorem IsNumber.exists_count {y : Binary64} (h : y.IsNumber) {q : Rat} (hq : 0 ≤ q) :
    ∃ units, Representable units ∧ |(units : Rat) / unitsPerOne - q| ≤ |y.value - q| ∧
      (|y.value - q| = |(units : Rat) / unitsPerOne - q| → y.value = (units : Rat) / unitsPerOne) := by
  obtain ⟨negative, units, rfl, representable, -⟩ := h
  cases negative with
  | false => exact ⟨units, representable, by rw [value_finite], fun _ => value_finite units⟩
  | true =>
    have size : (0 : Rat) ≤ (units : Rat) / unitsPerOne :=
      div_nonneg (Nat.cast_nonneg _) unitsPerOne_cast_pos.le
    have origin : |((0 : Nat) : Rat) / unitsPerOne - q| = q := by
      rw [Nat.cast_zero, zero_div, zero_sub, abs_neg, abs_of_nonneg hq]
    have beyond : |value (.finite true units) - q| = (units : Rat) / unitsPerOne + q := by
      rw [value_negative, abs_of_nonpos (by linarith)]
      ring
    refine ⟨0, Nat.dvd_zero _, ?_, ?_⟩ <;> rw [origin, beyond]
    · linarith
    · intro tie
      rw [value_negative, Nat.cast_zero, zero_div]
      linarith

theorem ofUnits_of_finite {negative : Bool} {num den : Nat} (h : (ofUnits negative num den).IsFinite) :
    ofUnits negative num den = .finite negative (roundUnits num den) ∧
      roundUnits num den < unitsLimit := by
  obtain ⟨sign, units, finite⟩ := h
  unfold ofUnits at finite ⊢
  simp only at finite ⊢
  split at finite
  · rename_i bound
    rw [if_pos bound]
    exact ⟨rfl, bound⟩
  · exact absurd finite (by simp)

/-- A quotient of units is rounded correctly, if the result is finite. -/
theorem rounds_ofUnits {num den : Nat} (hd : 0 < den) (finite : (ofUnits false num den).IsFinite) :
    Rounds ((num : Rat) / den / unitsPerOne) (ofUnits false num den) := by
  obtain ⟨rounded, bound⟩ := ofUnits_of_finite finite
  have positive : (0 : Rat) < den * unitsPerOne :=
    mul_pos (Nat.cast_pos.mpr hd) unitsPerOne_cast_pos
  have nonneg : (0 : Rat) ≤ (num : Rat) / den / unitsPerOne :=
    div_nonneg (div_nonneg (Nat.cast_nonneg _) (Nat.cast_nonneg _)) unitsPerOne_cast_pos.le
  rw [rounded]
  -- the distances are those of counts, over one denominator
  have counts : ∀ units, Representable units → _ := fun units h => @roundUnits_nearest num den units hd h
  have number : IsNumber (.finite false (roundUnits num den)) :=
    ⟨false, roundUnits num den, rfl, representable_roundUnits num den, bound⟩
  have nearest : ∀ units, Representable units →
      |value (.finite false (roundUnits num den)) - (num : Rat) / den / unitsPerOne| ≤
        |(units : Rat) / unitsPerOne - (num : Rat) / den / unitsPerOne| := by
    intro units h
    rw [value_finite, abs_sub_quotient hd, abs_sub_quotient hd]
    exact div_le_div_of_nonneg_right (Nat.cast_le.mpr (counts units h).1) positive.le
  refine ⟨number, ?_, ?_⟩
  · intro y number
    obtain ⟨units, representable, near, -⟩ := number.exists_count nonneg
    exact le_trans (nearest units representable) near
  · intro y number tie other sign units same
    obtain ⟨-, rfl⟩ := Binary64.finite.inj same
    obtain ⟨units, representable, near, equal⟩ := number.exists_count nonneg
    have near' := nearest units representable
    have squeezed := le_antisymm (tie ▸ near) near'
    have y_eq := equal (tie.trans squeezed.symm)
    refine (counts units representable).2 ?_ ?_
    · rw [value_finite, abs_sub_quotient hd, abs_sub_quotient hd,
        div_left_inj' positive.ne', Nat.cast_inj] at squeezed
      exact squeezed
    · rintro rfl
      exact other (y_eq.trans (value_finite _).symm)

/-! ## The operations -/

theorem value_zero (negative : Bool) : value (.finite negative 0) = 0 := by
  cases negative with
  | false => rw [value_finite, Nat.cast_zero, zero_div]
  | true => rw [value_negative, Nat.cast_zero, zero_div, neg_zero]

theorem rounds_zero (negative : Bool) : Rounds 0 (.finite negative 0) := by
  refine ⟨⟨negative, 0, rfl, Nat.dvd_zero _, unitsLimit_pos⟩, ?_, ?_⟩
  · intro y _
    rw [value_zero, sub_zero, abs_zero]
    exact abs_nonneg _
  · intro y _ _ _ sign units same
    obtain ⟨-, rfl⟩ := Binary64.finite.inj same
    exact Nat.dvd_zero _

/-- A zero of negative sign denotes what the other one does. -/
theorem value_of_nonneg {negative : Bool} {units : Nat} (h : Nonneg (.finite negative units)) :
    value (.finite negative units) = (units : Rat) / unitsPerOne := by
  cases negative with
  | false => exact value_finite units
  | true =>
    obtain rfl := nonneg_finite_iff.mp h rfl
    rw [value_zero, Nat.cast_zero, zero_div]

theorem signedUnits_of_nonneg {negative : Bool} {units : Nat} (h : Nonneg (.finite negative units)) :
    signedUnits (.finite negative units) = units := by
  cases negative with
  | false => rfl
  | true =>
    obtain rfl := nonneg_finite_iff.mp h rfl
    rfl

/-- The sum of a number without a sign and one that is not below zero, if it is finite, has no sign and is
correctly rounded. -/
theorem rounds_add {m n : Nat} {negative : Bool} (hy : Nonneg (.finite negative n))
    (finite : (add (.finite false m) (.finite negative n)).IsFinite) :
    (∃ units, add (.finite false m) (.finite negative n) = .finite false units) ∧
      Rounds (value (.finite false m) + value (.finite negative n))
        (add (.finite false m) (.finite negative n)) := by
  have total : signedUnits (.finite false m) + signedUnits (.finite negative n) = (m + n : Nat) := by
    rw [signedUnits_of_nonneg hy]
    rfl
  have exact_sum : value (.finite false m) + value (.finite negative n) =
      ((m + n : Nat) : Rat) / (1 : Nat) / unitsPerOne := by
    rw [value_finite, value_of_nonneg hy, Nat.cast_add, Nat.cast_one, div_one, add_div]
  have nonneg : decide (((m + n : Nat) : Int) < 0) = false := by
    rw [decide_eq_false_iff_not]
    omega
  rw [add] at finite ⊢
  simp only [total, nonneg, Int.natAbs_natCast] at finite ⊢
  split at finite
  · rename_i zero
    have none_left : m + n = 0 := by omega
    rw [if_pos zero, exact_sum, none_left, Nat.cast_zero, zero_div, zero_div]
    exact ⟨⟨0, rfl⟩, rounds_zero _⟩
  · rename_i other
    rw [if_neg other, exact_sum]
    exact ⟨⟨_, (ofUnits_of_finite finite).1⟩, rounds_ofUnits Nat.one_pos finite⟩

/-- The product of a number that is not below zero and one without a sign. -/
theorem rounds_mul {m n : Nat} {negative : Bool} (hx : Nonneg (.finite negative m))
    (finite : (mul (.finite negative m) (.finite false n)).IsFinite) :
    Rounds (value (.finite negative m) * value (.finite false n))
      (mul (.finite negative m) (.finite false n)) := by
  have exact_product : value (.finite negative m) * value (.finite false n) =
      ((m * n : Nat) : Rat) / unitsPerOne / unitsPerOne := by
    rw [value_of_nonneg hx, value_finite, Nat.cast_mul, div_mul_div_comm, div_div]
  rw [exact_product]
  rw [mul] at finite ⊢
  cases negative with
  | false => exact rounds_ofUnits unitsPerOne_pos finite
  | true =>
    obtain rfl := nonneg_finite_iff.mp hx rfl
    rw [Nat.zero_mul, ofUnits_zero, Nat.cast_zero, zero_div, zero_div]
    exact rounds_zero _

theorem rounds_checked {num den : Nat} (hd : 0 < den) {x : Binary64}
    (h : checked (ofUnits false num den) = .ok x) : Rounds ((num : Rat) / den / unitsPerOne) x := by
  obtain ⟨units, rfl, rfl, -, bound⟩ := checked_ofUnits h
  have same : ofUnits false num den = .finite false (roundUnits num den) := by
    unfold ofUnits
    simp only
    rw [if_pos bound]
  rw [← same]
  exact rounds_ofUnits hd ⟨_, _, same⟩

/-- The quotient of two integers. -/
theorem rounds_ratio {a b : Int} (ha : 0 ≤ a) (hb : 0 < b) {x : Binary64} (h : ratio a b = .ok x) :
    Rounds ((a : Rat) / b) x := by
  rw [ratio_eq ha (Int.le_of_lt hb)] at h
  obtain ⟨a, rfl⟩ := Int.eq_ofNat_of_zero_le ha
  obtain ⟨b, rfl⟩ := Int.eq_ofNat_of_zero_le (Int.le_of_lt hb)
  have quotient : ((a * unitsPerOne : Nat) : Rat) / b / unitsPerOne =
      ((a : Int) : Rat) / ((b : Int) : Rat) := by
    rw [Nat.cast_mul, div_right_comm, mul_div_cancel_right₀ _ unitsPerOne_cast_pos.ne', Int.cast_natCast,
      Int.cast_natCast]
  rw [← quotient]
  exact rounds_checked (Int.ofNat_lt.mp hb) h

/-- An integer as a number. -/
theorem rounds_ofInt {v : Int} (hv : 0 ≤ v) {x : Binary64} (h : ofInt v = .ok x) :
    Rounds (v : Rat) x := by
  rw [ofInt, decide_eq_false (Int.not_lt.mpr hv)] at h
  obtain ⟨v, rfl⟩ := Int.eq_ofNat_of_zero_le hv
  have integer : ((v * unitsPerOne : Nat) : Rat) / (1 : Nat) / unitsPerOne = ((v : Int) : Rat) := by
    rw [Nat.cast_mul, Nat.cast_one, div_one, mul_div_cancel_right₀ _ unitsPerOne_cast_pos.ne',
      Int.cast_natCast]
  rw [← integer]
  exact rounds_checked Nat.one_pos h

/-- An integer of at most 53 bits is a number. -/
theorem Rounds.eq_of_le {v : Int} (hv : 0 ≤ v) (small : v ≤ 2 ^ (53 : Nat)) {x : Binary64}
    (h : Rounds (v : Rat) x) : x.value = v := by
  obtain ⟨v, rfl⟩ := Int.eq_ofNat_of_zero_le hv
  have small : v ≤ 2 ^ (53 : Nat) := by omega
  have representable : Representable (v * unitsPerOne) := by
    have shifted := representable_shifted small 1074
    rw [← unitsPerOne] at shifted
    exact shifted
  have bound : v * unitsPerOne < unitsLimit := by
    have room := @Nat.pow_lt_pow_right 2 (53 + 1074) 2098 (by decide) (by decide)
    have scaled := Nat.pow_add 2 53 1074
    rw [← unitsPerOne] at scaled
    rw [scaled, ← unitsLimit] at room
    have below : v * unitsPerOne ≤ 2 ^ (53 : Nat) * unitsPerOne := Nat.mul_le_mul_right _ small
    exact Nat.lt_of_le_of_lt below room
  have itself : value (.finite false (v * unitsPerOne)) = ((v : Int) : Rat) := by
    rw [value_finite, Nat.cast_mul, mul_div_cancel_right₀ _ unitsPerOne_cast_pos.ne', Int.cast_natCast]
  have nearest := h.nearest _ ⟨false, _, rfl, representable, bound⟩
  rw [itself, sub_self, abs_zero] at nearest
  exact sub_eq_zero.mp (abs_nonpos_iff.mp nearest)

/-! ## Comparisons -/

theorem less_finite {a b : Bool} {m n : Nat} :
    less (.finite a m) (.finite b n) = decide (value (.finite a m) < value (.finite b n)) := by
  have scaled : value (.finite a m) < value (.finite b n) ↔
      signedUnits (.finite a m) < signedUnits (.finite b n) := by
    rw [value, value, div_lt_div_iff_of_pos_right unitsPerOne_cast_pos, Int.cast_lt]
  rw [less, decide_eq_decide]
  exact scaled.symm

theorem less_iff {x y : Binary64} (hx : x.IsFinite) (hy : y.IsFinite) :
    less x y = true ↔ x.value < y.value := by
  obtain ⟨a, m, rfl⟩ := hx
  obtain ⟨b, n, rfl⟩ := hy
  rw [less_finite, decide_eq_true_eq]

end Binary64
end Chip8
