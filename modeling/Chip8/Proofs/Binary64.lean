import Chip8.Number.Binary64

/-!
# Representable numbers

A count of units has a number of its own if its significant bits fit. Rounding gives such a count and
leaves it as it is, so taking the integer part out of a number is exact
(`Binary64.subInt_whole`).
-/

-- powers are those of `Nat` itself, whatever is imported, and a written exponent tells its type for that
attribute [local instance (high)] instPowNat

namespace Chip8

theorem roundHalfEven_of_dvd {num den : Nat} (h : den ∣ num) : roundHalfEven num den = num / den := by
  have rest : num % den = 0 := Nat.mod_eq_zero_of_dvd h
  unfold roundHalfEven
  simp only [rest, Nat.mul_zero]
  by_cases hd : 0 < den
  · rw [if_pos hd]
  · have zero : den = 0 := by omega
    subst zero
    simp

theorem roundHalfEven_le (num den : Nat) : roundHalfEven num den ≤ num / den + 1 := by
  unfold roundHalfEven
  simp only
  split
  · omega
  · split
    · omega
    · split <;> omega

namespace Binary64

/-- The distance of neighbouring numbers at a count of units. -/
def spacing (units : Nat) : Nat := 2 ^ (units.log2 - 52)

/-- A number has this count of units. -/
def Representable (units : Nat) : Prop := spacing units ∣ units

theorem log2_mono {a b : Nat} (h : a ≤ b) : a.log2 ≤ b.log2 := by
  by_cases ha : a = 0
  · subst ha
    simp
  · have hb : b ≠ 0 := by omega
    rw [Nat.le_log2 hb]
    exact Nat.le_trans (Nat.log2_self_le ha) h

theorem spacing_dvd {a b : Nat} (h : a ≤ b) : spacing a ∣ spacing b := by
  have bits := log2_mono h
  exact Nat.pow_dvd_pow 2 (by omega)

/-- On the grid of a larger number everything is representable. -/
theorem representable_of_le {a b : Nat} (h : a ≤ b) (on_grid : spacing b ∣ a) : Representable a :=
  Nat.dvd_trans (spacing_dvd h) on_grid

theorem representable_shifted {q : Nat} (h : q ≤ 2 ^ (53 : Nat)) (e : Nat) :
    Representable (q * 2 ^ e) := by
  unfold Representable spacing
  rcases Nat.lt_or_eq_of_le h with small | rfl
  · by_cases zero : q * 2 ^ e = 0
    · rw [zero]
      exact Nat.dvd_zero _
    · have bound : q * 2 ^ e < 2 ^ (53 + e) := by
        rw [Nat.pow_add]
        exact Nat.mul_lt_mul_of_pos_right small (Nat.two_pow_pos e)
      have bits := (Nat.log2_lt zero).mpr bound
      exact Nat.dvd_trans (Nat.pow_dvd_pow 2 (by omega)) (Nat.dvd_mul_left _ _)
  · -- one bit more than fits, but the last one is zero
    rw [← Nat.pow_add, Nat.log2_two_pow]
    exact Nat.pow_dvd_pow 2 (by omega)

theorem div_spacing_lt (n : Nat) : n / spacing n < 2 ^ (53 : Nat) := by
  unfold spacing
  rw [Nat.div_lt_iff_lt_mul (Nat.two_pow_pos _), ← Nat.pow_add]
  have bits := Nat.lt_log2_self (n := n)
  exact Nat.lt_of_lt_of_le bits (Nat.pow_le_pow_right (by decide) (by omega))

theorem representable_roundUnits (num den : Nat) : Representable (roundUnits num den) := by
  refine representable_shifted ?_ _
  have near := roundHalfEven_le num (den * 2 ^ ((num / den).log2 - 52))
  have below := div_spacing_lt (num / den)
  rw [← Nat.div_div_eq_div_mul] at near
  unfold spacing at below
  omega

theorem roundUnits_of_representable {units : Nat} (h : Representable units) :
    roundUnits units 1 = units := by
  have rounded := roundHalfEven_of_dvd h
  unfold spacing at rounded
  unfold roundUnits
  simp only [Nat.div_one, Nat.one_mul, rounded]
  exact Nat.div_mul_cancel h

theorem ofUnits_of_representable {units : Nat} (h : Representable units) (bound : units < unitsLimit)
    (negative : Bool) : ofUnits negative units 1 = .finite negative units := by
  unfold ofUnits
  simp only [roundUnits_of_representable h]
  exact if_pos bound

theorem unitsPerOne_pos : 0 < unitsPerOne := by
  have positive := Nat.two_pow_pos 1074
  rw [unitsPerOne]
  exact positive

theorem unitsLimit_pos : 0 < unitsLimit := by
  have positive := Nat.two_pow_pos 2098
  rw [unitsLimit]
  exact positive

/-- A finite number has a count of units that the format has. -/
def InFormat (x : Binary64) : Prop :=
  ∀ sign units, x = .finite sign units → Representable units ∧ units < unitsLimit

theorem inFormat_ofUnits (negative : Bool) (num den : Nat) : InFormat (ofUnits negative num den) := by
  intro sign units h
  unfold ofUnits at h
  simp only at h
  split at h
  · obtain ⟨-, rfl⟩ := Binary64.finite.inj h
    exact ⟨representable_roundUnits num den, ‹_›⟩
  · exact absurd h (by simp)

/-- A rounded number that did not overflow. -/
theorem checked_ofUnits {num den : Nat} {x : Binary64} (h : checked (ofUnits false num den) = .ok x) :
    ∃ units, x = .finite false units ∧ units = roundUnits num den ∧ Representable units ∧
      units < unitsLimit := by
  unfold ofUnits at h
  simp only at h
  split at h
  · rename_i bound
    exact ⟨_, (Except.ok.inj h).symm, rfl, representable_roundUnits num den, bound⟩
  · exact absurd h (by simp [checked])

theorem ratio_eq {a b : Int} (ha : 0 ≤ a) (hb : 0 ≤ b) :
    ratio a b = checked (ofUnits false (a.natAbs * unitsPerOne) b.natAbs) := by
  rw [ratio, decide_eq_false (Int.not_lt.mpr ha), decide_eq_false (Int.not_lt.mpr hb),
    bne_self_eq_false]

theorem inFormat_add (x y : Binary64) : InFormat (add x y) := by
  intro sign units h
  cases x <;> cases y <;> simp only [add] at h
  case infinite.infinite a b => split at h <;> exact absurd h (by simp)
  case finite.finite a m b n =>
    split at h
    · obtain ⟨-, rfl⟩ := Binary64.finite.inj h
      exact ⟨Nat.dvd_zero _, unitsLimit_pos⟩
    · exact inFormat_ofUnits _ _ _ sign units h
  all_goals exact absurd h (by simp)

/-- The integer part and the fraction of a number are numbers too. -/
theorem representable_parts {units : Nat} (h : Representable units) :
    Representable (units / unitsPerOne * unitsPerOne) ∧ Representable (units % unitsPerOne) := by
  by_cases fine : units.log2 - 52 ≤ 1074
  · have grid : spacing units ∣ unitsPerOne := by
      have powers := Nat.pow_dvd_pow 2 fine
      rw [spacing, unitsPerOne]
      exact powers
    have rest : spacing units ∣ units % unitsPerOne := (Nat.dvd_mod_iff grid).mpr h
    exact ⟨representable_of_le (Nat.div_mul_le_self _ _) (Nat.dvd_trans grid (Nat.dvd_mul_left _ _)),
      representable_of_le (Nat.mod_le _ _) rest⟩
  · -- a number so large has no fraction
    have grid : unitsPerOne ∣ spacing units := by
      have coarse : 1074 ≤ units.log2 - 52 := by omega
      have powers := Nat.pow_dvd_pow 2 coarse
      rw [spacing, unitsPerOne]
      exact powers
    have integral : unitsPerOne ∣ units := Nat.dvd_trans grid h
    rw [Nat.div_mul_cancel integral, Nat.mod_eq_zero_of_dvd integral]
    exact ⟨h, Nat.dvd_zero _⟩

/-- The integer part is taken out of a number without an error. -/
theorem subInt_whole {units : Nat} (h : Representable units) (bound : units < unitsLimit) :
    subInt (.finite false units) (units / unitsPerOne : Nat) =
      .finite false (units % unitsPerOne) := by
  obtain ⟨integer, fraction⟩ := representable_parts h
  have below := Nat.div_mul_le_self units unitsPerOne
  have rest := Nat.mod_le units unitsPerOne
  have parts := Nat.div_add_mod' units unitsPerOne
  generalize units / unitsPerOne = whole, units % unitsPerOne = part at *
  have difference : signedUnits (.finite false units) +
      signedUnits (.finite (!false) (whole * unitsPerOne)) = part := by
    simp only [signedUnits, Bool.not_false, if_true, Bool.false_eq_true, if_false]
    omega
  have nonneg : ∀ n : Nat, decide ((n : Int) < 0) = false := by
    intro n
    rw [decide_eq_false_iff_not]
    omega
  rw [subInt, nonneg, Int.natAbs_natCast,
    ofUnits_of_representable integer (Nat.lt_of_le_of_lt below bound), sub, neg, add]
  simp only [difference, nonneg, Int.natAbs_natCast,
    ofUnits_of_representable fraction (Nat.lt_of_le_of_lt rest bound)]
  split
  · rename_i zero
    rw [Int.natCast_eq_zero.mp zero]
    rfl
  · rfl

/-! ## Numbers that are not below zero -/

/-- The number does not compare as less than zero. -/
def Nonneg (x : Binary64) : Prop := less x zero = false

theorem nonneg_finite_iff {sign : Bool} {units : Nat} :
    Nonneg (.finite sign units) ↔ (sign = true → units = 0) := by
  unfold Nonneg less zero signedUnits
  cases sign <;> simp

theorem nonneg_ofUnits (num den : Nat) : Nonneg (ofUnits false num den) := by
  unfold ofUnits
  simp only
  split
  · exact nonneg_finite_iff.mpr (fun negative => absurd negative (by simp))
  · rfl

theorem nonneg_add {x y : Binary64} (hx : Nonneg x) (hy : Nonneg y) : Nonneg (add x y) := by
  cases x <;> cases y <;> simp only [add]
  case finite.finite a m b n =>
    have ha := nonneg_finite_iff.mp hx
    have hb := nonneg_finite_iff.mp hy
    have low : 0 ≤ signedUnits (.finite a m) + signedUnits (.finite b n) := by
      cases a <;> cases b <;> simp_all [signedUnits]
      omega
    split
    · exact nonneg_finite_iff.mpr fun _ => rfl
    · rw [decide_eq_false (Int.not_lt.mpr low)]
      exact nonneg_ofUnits _ _
  case infinite.infinite a b => split <;> simp_all [Nonneg, less, zero]
  all_goals simp_all [Nonneg, less, zero]

theorem ofUnits_zero (negative : Bool) (den : Nat) :
    ofUnits negative 0 den = .finite negative 0 := by
  have rounded : roundUnits 0 den = 0 := by
    unfold roundUnits
    simp only [roundHalfEven_of_dvd (Nat.dvd_zero _), Nat.zero_div, Nat.zero_mul]
  unfold ofUnits
  simp only [rounded]
  exact if_pos unitsLimit_pos

/-- A product with a positive factor keeps the sign, that of a zero included. -/
theorem nonneg_mul {x : Binary64} (hx : Nonneg x) (n : Nat) : Nonneg (mul x (.finite false n)) := by
  cases x with
  | nan => rfl
  | infinite a =>
    cases a with
    | false =>
      simp only [mul]
      split <;> rfl
    | true => exact absurd hx (by simp [Nonneg, less, zero])
  | finite a m =>
    have ha := nonneg_finite_iff.mp hx
    cases a with
    | false =>
      rw [mul, bne_self_eq_false]
      exact nonneg_ofUnits _ _
    | true =>
      rw [mul, ha rfl, Nat.zero_mul, ofUnits_zero]
      exact nonneg_finite_iff.mpr fun _ => rfl

/-- An integer that is not below zero becomes a finite number without a sign. -/
theorem ofInt_eq_ok {v : Int} (hv : 0 ≤ v) {x : Binary64} (h : ofInt v = .ok x) :
    ∃ n, x = .finite false n := by
  rw [ofInt, decide_eq_false (Int.not_lt.mpr hv)] at h
  obtain ⟨n, finite, -⟩ := checked_ofUnits h
  exact ⟨n, finite⟩

theorem nonneg_ratio {a b : Int} (ha : 0 ≤ a) (hb : 0 ≤ b) {x : Binary64} (h : ratio a b = .ok x) :
    Nonneg x := by
  rw [ratio_eq ha hb] at h
  obtain ⟨n, rfl, -⟩ := checked_ofUnits h
  exact nonneg_finite_iff.mpr fun negative => absurd negative (by simp)

/-- The integer part of a number that is not below zero is not either, and nor is what remains. -/
theorem whole_of_nonneg {x : Binary64} (format : InFormat x) (hx : Nonneg x) {v : Int}
    (h : whole x = .ok v) : 0 ≤ v ∧ Nonneg (subInt x v) := by
  cases x with
  | nan | infinite _ => exact absurd h (by simp [whole])
  | finite sign units =>
    cases sign with
    | false =>
      obtain rfl : ((units / unitsPerOne : Nat) : Int) = v := Except.ok.inj h
      obtain ⟨representable, bound⟩ := format false units rfl
      rw [subInt_whole representable bound]
      exact ⟨Int.natCast_nonneg _, nonneg_finite_iff.mpr fun negative => absurd negative (by simp)⟩
    | true =>
      -- this is the other zero, and remains itself
      obtain rfl := nonneg_finite_iff.mp hx rfl
      simp only [whole, Nat.zero_div] at h
      obtain rfl : 0 = v := by simpa using h
      refine ⟨Int.le_refl 0, ?_⟩
      rw [subInt, Int.natAbs_zero, Nat.zero_mul, ofUnits_zero]
      exact nonneg_add hx (nonneg_finite_iff.mpr fun _ => rfl)

end Binary64
end Chip8
