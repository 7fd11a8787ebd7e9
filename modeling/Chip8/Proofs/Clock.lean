import Chip8.Clock
import Chip8.Proofs.Binary64

/-!
# Clocks that run forward

A clock with positive rates, and with a limit and debts that are not below zero, stays so and grants
counts that are not below zero, whatever time elapses (`FrameClock.Forward.advance`,
`FrameClock.Forward.frame`). The arithmetic may round, as long as it keeps to the signs
(`LawfulDuration`).
-/

namespace Chip8

/-- An amount that is not below zero. -/
def Duration.Nonneg {α : Type} [Duration α] (x : α) : Prop := less x zero = false

/-- Arithmetic that keeps to the signs. -/
class LawfulDuration (α : Type) [Duration α] : Prop where
  nonneg_zero : Duration.Nonneg (Duration.zero : α)
  nonneg_add {x y : α} : Duration.Nonneg x → Duration.Nonneg y → Duration.Nonneg (Duration.add x y)
  nonneg_scale {x y : α} {rate : Int} :
    Duration.Nonneg x → 0 ≤ rate → Duration.scale x rate = .ok y → Duration.Nonneg y
  nonneg_ratio {a b : Int} {x : α} :
    0 ≤ a → 0 ≤ b → Duration.ratio a b = .ok x → Duration.Nonneg x
  /-- A sum has an integer part that is not below zero, and leaves what is not. -/
  whole_add {x y : α} {v : Int} :
    Duration.Nonneg x → Duration.Nonneg y → Duration.whole (Duration.add x y) = .ok v →
      0 ≤ v ∧ Duration.Nonneg (Duration.subInt (Duration.add x y) v)

namespace Binary64

theorem nonneg_scale {x y : Binary64} {rate : Int} (hx : Nonneg x) (hr : 0 ≤ rate)
    (h : Duration.scale x rate = .ok y) : Nonneg y := by
  have scaled : (ofInt rate).map x.mul = .ok y := h
  cases hf : ofInt rate with
  | error e =>
    rw [hf] at scaled
    exact absurd scaled (by simp [Except.map])
  | ok r =>
    rw [hf] at scaled
    obtain ⟨n, rfl⟩ := ofInt_eq_ok hr hf
    rw [← Except.ok.inj scaled]
    exact nonneg_mul hx n

instance : LawfulDuration Binary64 where
  nonneg_zero := nonneg_finite_iff.mpr fun _ => rfl
  nonneg_add := nonneg_add
  nonneg_scale := nonneg_scale
  nonneg_ratio ha hb h := nonneg_ratio ha hb h
  whole_add {x y _} hx hy := whole_of_nonneg (inFormat_add x y) (nonneg_add hx hy)

end Binary64

namespace FrameClock

open Duration (Nonneg)

variable {α : Type} [Duration α]

/-- The rates are positive, and the limit and the debts are not below zero. -/
structure Forward (c : FrameClock α) : Prop where
  cpuRate_pos : 0 < c.cpuRate
  timerRate_pos : 0 < c.timerRate
  maxElapsed_nonneg : Nonneg c.maxElapsed
  cpuDebt_nonneg : Nonneg c.cpuDebt
  timerDebt_nonneg : Nonneg c.timerDebt

/-- An answer leaves the clock running forward, and grants no count below zero. -/
def GrantsForward (answer : FrameClock α × Except NumberError (Int × Int)) : Prop :=
  answer.1.Forward ∧ ∀ counts, answer.2 = .ok counts → 0 ≤ counts.1 ∧ 0 ≤ counts.2

theorem Forward.grants_error {c : FrameClock α} (h : c.Forward) (e : NumberError) :
    GrantsForward (c, .error e) := ⟨h, fun _ granted => absurd granted (by simp)⟩

theorem Forward.grants_ok {c : FrameClock α} (h : c.Forward) {steps ticks : Int}
    (hs : 0 ≤ steps) (ht : 0 ≤ ticks) : GrantsForward (c, .ok (steps, ticks)) := by
  refine ⟨h, ?_⟩
  intro counts granted
  obtain rfl := Except.ok.inj granted
  exact ⟨hs, ht⟩

variable [LawfulDuration α] {c : FrameClock α}

/-- A clock runs forward from its creation on. -/
theorem Forward.of_create {cpuRate timerRate : Int} {maxElapsed : α} (limit : Nonneg maxElapsed)
    (h : create cpuRate timerRate maxElapsed = .ok c) : c.Forward := by
  obtain ⟨cpu, timer, rfl⟩ := eq_of_create h
  exact ⟨cpu, timer, limit, LawfulDuration.nonneg_zero, LawfulDuration.nonneg_zero⟩

theorem nonneg_clamp {limit : α} (h : Nonneg limit) (elapsed : α) : Nonneg (clamp limit elapsed) := by
  have forward : Nonneg (if Duration.less elapsed Duration.zero then Duration.zero else elapsed) := by
    split
    · exact LawfulDuration.nonneg_zero
    · rename_i above
      rwa [Bool.not_eq_true] at above
  have cut : ∀ x : α, Nonneg x → Nonneg (if Duration.less limit x then limit else x) := by
    intro x hx
    split
    · exact h
    · exact hx
  exact cut _ forward

/-- A grant for the processor that is not below zero is added to its debt. -/
theorem Forward.owing (h : c.Forward) {cpu : α} (hc : Nonneg cpu) :
    { c with cpuDebt := Duration.add c.cpuDebt cpu }.Forward :=
  { h with cpuDebt_nonneg := LawfulDuration.nonneg_add h.cpuDebt_nonneg hc }

/-- Debts that grants were added to are paid out. -/
theorem Forward.payOut (h : c.Forward) {cpu timer : α} (hc : Nonneg cpu) (ht : Nonneg timer) :
    GrantsForward
      { c with
        cpuDebt := Duration.add c.cpuDebt cpu
        timerDebt := Duration.add c.timerDebt timer }.payOut := by
  have due : Forward
      { c with
        cpuDebt := Duration.add c.cpuDebt cpu
        timerDebt := Duration.add c.timerDebt timer } :=
    { h.owing hc with timerDebt_nonneg := LawfulDuration.nonneg_add h.timerDebt_nonneg ht }
  simp only [FrameClock.payOut]
  cases hv : Duration.whole (Duration.add c.cpuDebt cpu) with
  | error e => exact due.grants_error e
  | ok steps =>
    cases hw : Duration.whole (Duration.add c.timerDebt timer) with
    | error e => exact due.grants_error e
    | ok ticks =>
      obtain ⟨steps_nonneg, cpuRest⟩ := LawfulDuration.whole_add h.cpuDebt_nonneg hc hv
      obtain ⟨ticks_nonneg, timerRest⟩ := LawfulDuration.whole_add h.timerDebt_nonneg ht hw
      have paid : Forward
          { c with
            cpuDebt := Duration.subInt (Duration.add c.cpuDebt cpu) steps
            timerDebt := Duration.subInt (Duration.add c.timerDebt timer) ticks } :=
        { h with cpuDebt_nonneg := cpuRest, timerDebt_nonneg := timerRest }
      exact paid.grants_ok steps_nonneg ticks_nonneg

theorem Forward.advance (h : c.Forward) (elapsed : α) : GrantsForward (c.advance elapsed) := by
  have span := nonneg_clamp h.maxElapsed_nonneg elapsed
  simp only [FrameClock.advance]
  cases hs : Duration.scale (clamp c.maxElapsed elapsed) c.cpuRate with
  | error e => exact h.grants_error e
  | ok cpu =>
    have hc := LawfulDuration.nonneg_scale span (Int.le_of_lt h.cpuRate_pos) hs
    cases ht : Duration.scale (clamp c.maxElapsed elapsed) c.timerRate with
    | error e => exact (h.owing hc).grants_error e
    | ok timer =>
      exact h.payOut hc (LawfulDuration.nonneg_scale span (Int.le_of_lt h.timerRate_pos) ht)

theorem Forward.frame (h : c.Forward) : GrantsForward c.frame := by
  unfold FrameClock.frame
  cases hr : Duration.ratio (α := α) c.cpuRate c.timerRate with
  | error e => exact h.grants_error e
  | ok cpu =>
    have hc := LawfulDuration.nonneg_ratio (Int.le_of_lt h.cpuRate_pos)
      (Int.le_of_lt h.timerRate_pos) hr
    simp only
    cases hv : Duration.whole (Duration.add c.cpuDebt cpu) with
    | error e => exact (h.owing hc).grants_error e
    | ok steps =>
      obtain ⟨steps_nonneg, cpuRest⟩ := LawfulDuration.whole_add h.cpuDebt_nonneg hc hv
      have paid : { c with cpuDebt := Duration.subInt (Duration.add c.cpuDebt cpu) steps }.Forward :=
        { h with cpuDebt_nonneg := cpuRest }
      exact paid.grants_ok steps_nonneg (by decide)

end FrameClock
end Chip8
