import Chip8.Clock.Calls
import Mathlib.Data.Rat.Floor
import Mathlib.Algebra.BigOperators.Group.List.Basic
import Mathlib.Tactic.FieldSimp
import Mathlib.Tactic.Linarith
import Mathlib.Tactic.Ring

/-!
# A clock without rounding

In rational numbers a call accounts for a span of time, a timer period or the time that elapsed, and leaves
of each debt what the whole steps and ticks in it leave (`FrameClock.Carrying.call_eq`). So nothing is lost
between two calls: many calls grant what one span does that is as long as all of theirs together
(`FrameClock.rates_kept`).
-/

namespace Chip8.FrameClock

variable {c : FrameClock Rat}

/-- Elapsed time cut to the range from zero to a limit. -/
def cut (limit elapsed : Rat) : Rat := min (max elapsed 0) limit

/-- How often a call is for one timer period. -/
def periods (calls : List (Option Rat)) : Nat := calls.count none

/-- The elapsed time that some calls account for. -/
def timeIn (limit : Rat) (calls : List (Option Rat)) : Rat :=
  (calls.filterMap (Option.map (cut limit))).sum

/-- The span that a call accounts for. -/
def span (c : FrameClock Rat) : Option Rat → Rat
  | none => 1 / c.timerRate
  | some elapsed => cut c.maxElapsed elapsed

/-- The clock with a span of time accounted for. -/
def accounted (c : FrameClock Rat) (span : Rat) : FrameClock Rat :=
  { c with
    cpuDebt := Int.fract (c.cpuDebt + c.cpuRate * span)
    timerDebt := Int.fract (c.timerDebt + c.timerRate * span) }

/-- The rates are positive, the limit is not below zero, and the debts are parts of a step and of a
tick. -/
structure Carrying (c : FrameClock Rat) : Prop where
  cpuRate_pos : (0 : Rat) < c.cpuRate
  timerRate_pos : (0 : Rat) < c.timerRate
  maxElapsed_nonneg : 0 ≤ c.maxElapsed
  cpuDebt_part : 0 ≤ c.cpuDebt ∧ c.cpuDebt < 1
  timerDebt_part : 0 ≤ c.timerDebt ∧ c.timerDebt < 1

/-- Accounting for time leaves the spans of further calls as they are. -/
theorem span_accounted (c : FrameClock Rat) (time : Rat) : (c.accounted time).span = c.span := by
  funext x
  cases x <;> rfl

/-! ## One call -/

theorem cut_of_fits {limit elapsed : Rat} (low : 0 ≤ elapsed) (high : elapsed ≤ limit) :
    cut limit elapsed = elapsed := by
  rw [cut, max_eq_left low, min_eq_left high]

theorem clamp_eq_cut (limit elapsed : Rat) : clamp limit elapsed = cut limit elapsed := by
  have forward : (if Duration.less elapsed Duration.zero then Duration.zero else elapsed) =
      max elapsed 0 := by
    simp only [Duration.less, Duration.zero, decide_eq_true_eq]
    split
    · rw [max_eq_right (by linarith)]
    · rw [max_eq_left (by linarith)]
  unfold clamp cut
  simp only [forward]
  simp only [Duration.less, decide_eq_true_eq]
  split
  · rw [min_eq_right (by linarith)]
  · rw [min_eq_left (by linarith)]

theorem whole_eq_floor {x : Rat} (h : 0 ≤ x) : Duration.whole x = .ok ⌊x⌋ := by
  simp only [Duration.whole]
  rw [Rat.floor_def', Int.tdiv_eq_ediv_of_nonneg (Rat.num_nonneg.mpr h)]

theorem Carrying.span_nonneg (h : c.Carrying) (x : Option Rat) : 0 ≤ c.span x := by
  cases x with
  | none => exact (one_div_pos.mpr h.timerRate_pos).le
  | some elapsed => exact le_min (le_max_right _ _) h.maxElapsed_nonneg

theorem Carrying.accounted (h : c.Carrying) (span : Rat) : (c.accounted span).Carrying :=
  { h with
    cpuDebt_part := ⟨Int.fract_nonneg _, Int.fract_lt_one _⟩
    timerDebt_part := ⟨Int.fract_nonneg _, Int.fract_lt_one _⟩ }

/-- A call accounts for its span. -/
theorem Carrying.call_eq (h : c.Carrying) (x : Option Rat) :
    c.call x = (c.accounted (c.span x),
      .ok (⌊c.cpuDebt + c.cpuRate * c.span x⌋, ⌊c.timerDebt + c.timerRate * c.span x⌋)) := by
  have steps := whole_eq_floor (add_nonneg h.cpuDebt_part.1
    (mul_nonneg h.cpuRate_pos.le (h.span_nonneg x)))
  have ticks := whole_eq_floor (add_nonneg h.timerDebt_part.1
    (mul_nonneg h.timerRate_pos.le (h.span_nonneg x)))
  have cpuRest : Duration.subInt (c.cpuDebt + c.cpuRate * c.span x)
      ⌊c.cpuDebt + c.cpuRate * c.span x⌋ = Int.fract (c.cpuDebt + c.cpuRate * c.span x) :=
    Int.self_sub_floor _
  have timerRest : Duration.subInt (c.timerDebt + c.timerRate * c.span x)
      ⌊c.timerDebt + c.timerRate * c.span x⌋ = Int.fract (c.timerDebt + c.timerRate * c.span x) :=
    Int.self_sub_floor _
  cases x with
  | none =>
    -- a period is one tick, whatever the debt of ticks is
    have tick : (c.timerRate : Rat) * c.span none = 1 := mul_one_div_cancel h.timerRate_pos.ne'
    have kept : Int.fract c.timerDebt = c.timerDebt := Int.fract_eq_self.mpr h.timerDebt_part
    have grant : Duration.ratio c.cpuRate c.timerRate = .ok ((c.cpuRate : Rat) * c.span none) :=
      congrArg Except.ok (mul_one_div _ _).symm
    have answer := frame_eq grant steps
    rw [call, answer, FrameClock.accounted, tick, Int.fract_add_one, kept, Int.floor_add_one,
      Int.floor_eq_zero_iff.mpr h.timerDebt_part, Int.zero_add, ← cpuRest]
    rfl
  | some elapsed =>
    have cpuGrant : Duration.scale (clamp c.maxElapsed elapsed) c.cpuRate =
        .ok ((c.cpuRate : Rat) * c.span (some elapsed)) := by
      rw [clamp_eq_cut]
      exact congrArg Except.ok (mul_comm _ _)
    have timerGrant : Duration.scale (clamp c.maxElapsed elapsed) c.timerRate =
        .ok ((c.timerRate : Rat) * c.span (some elapsed)) := by
      rw [clamp_eq_cut]
      exact congrArg Except.ok (mul_comm _ _)
    have answer := advance_eq cpuGrant timerGrant steps ticks
    rw [call, answer, FrameClock.accounted, ← cpuRest, ← timerRest]
    rfl

/-- Calls of one span are the same. -/
theorem Carrying.call_congr (h : c.Carrying) {x y : Option Rat} (same : c.span x = c.span y) :
    c.call x = c.call y := by
  rw [h.call_eq x, h.call_eq y, same]

/-! ## Many calls -/

/-- Whole numbers that are paid out in two parts are those of the whole. -/
theorem floor_add_floor_fract (x y : Rat) : ⌊x⌋ + ⌊Int.fract x + y⌋ = ⌊x + y⌋ := by
  rw [← Int.floor_intCast_add, ← add_assoc, Int.floor_add_fract]

/-- Many calls account for their spans together. -/
theorem Carrying.totals_eq (h : c.Carrying) (calls : List (Option Rat)) :
    c.totals calls = .ok
      (⌊c.cpuDebt + c.cpuRate * (calls.map c.span).sum⌋,
        ⌊c.timerDebt + c.timerRate * (calls.map c.span).sum⌋) := by
  induction calls generalizing c with
  | nil =>
    rw [List.map_nil, List.sum_nil, mul_zero, mul_zero, add_zero, add_zero,
      Int.floor_eq_zero_iff.mpr h.cpuDebt_part, Int.floor_eq_zero_iff.mpr h.timerDebt_part]
    rfl
  | cons x rest ih =>
    rw [totals, h.call_eq x]
    simp only [ih (h.accounted (c.span x)), span_accounted, List.map_cons, List.sum_cons, mul_add,
      ← add_assoc]
    rw [FrameClock.accounted]
    simp only [floor_add_floor_fract]

@[simp] theorem periods_none (rest : List (Option Rat)) : periods (none :: rest) = periods rest + 1 :=
  List.count_cons_self

@[simp] theorem periods_some (elapsed : Rat) (rest : List (Option Rat)) :
    periods (some elapsed :: rest) = periods rest :=
  List.count_cons_of_ne (by simp)

@[simp] theorem timeIn_none (limit : Rat) (rest : List (Option Rat)) :
    timeIn limit (none :: rest) = timeIn limit rest := rfl

@[simp] theorem timeIn_some (limit elapsed : Rat) (rest : List (Option Rat)) :
    timeIn limit (some elapsed :: rest) = cut limit elapsed + timeIn limit rest :=
  List.sum_cons

/-- The spans of the calls are the times that elapsed and the periods. -/
theorem sum_span (c : FrameClock Rat) (calls : List (Option Rat)) :
    (calls.map c.span).sum = timeIn c.maxElapsed calls + periods calls * (1 / c.timerRate) := by
  induction calls with
  | nil => simp [timeIn, periods]
  | cons x rest ih =>
    rw [List.map_cons, List.sum_cons, ih]
    cases x with
    | none =>
      rw [periods_none, timeIn_none, span, Nat.cast_succ]
      ring
    | some elapsed =>
      rw [periods_some, timeIn_some, span]
      ring

/-- Elapsed times within the limit are accounted for as they are. -/
theorem sum_span_of_fits (c : FrameClock Rat) {times : List Rat}
    (fits : ∀ e ∈ times, 0 ≤ e ∧ e ≤ c.maxElapsed) : ((times.map some).map c.span).sum = times.sum := by
  rw [List.map_map, List.map_congr_left (g := id), List.map_id]
  intro e mem
  obtain ⟨low, high⟩ := fits e mem
  exact cut_of_fits low high

theorem Carrying.of_create {cpuRate timerRate : Int} {maxElapsed : Rat} (limit : 0 ≤ maxElapsed)
    (h : create cpuRate timerRate maxElapsed = .ok c) :
    c.Carrying ∧ c = ⟨cpuRate, timerRate, maxElapsed, 0, 0⟩ := by
  obtain ⟨cpu, timer, rfl⟩ := eq_of_create h
  have fresh : (0 : Rat) ≤ 0 ∧ (0 : Rat) < 1 := by norm_num
  exact ⟨⟨Int.cast_pos.mpr cpu, Int.cast_pos.mpr timer, limit, fresh, fresh⟩, rfl⟩

theorem Carrying.after (h : c.Carrying) (calls : List (Option Rat)) :
    (c.after calls).Carrying ∧ (c.after calls).span = c.span := by
  induction calls generalizing c with
  | nil => exact ⟨h, rfl⟩
  | cons x rest ih =>
    rw [after_cons, h.call_eq x, ← span_accounted c (c.span x)]
    exact ih (h.accounted _)

/-- **The rates are kept exactly.** A clock without rounding has granted, after any calls, the whole steps
and the whole ticks of all the time that they account for: the elapsed times, each cut to the range from
zero to the limit, and the timer periods. So it does not matter in which order the calls are made, nor how
time is divided into calls, if none of them exceeds the limit; and if a timer period does not, a call for
it is a call for that much elapsed time. -/
theorem rates_kept {cpuRate timerRate : Int} {maxElapsed : Rat} (limit : 0 ≤ maxElapsed)
    (created : create cpuRate timerRate maxElapsed = .ok c) :
    (∀ calls, c.totals calls = .ok
      (⌊cpuRate * timeIn maxElapsed calls + periods calls * ((cpuRate : Rat) / timerRate)⌋,
        periods calls + ⌊timerRate * timeIn maxElapsed calls⌋)) ∧
    (∀ calls calls', calls.Perm calls' → c.totals calls = c.totals calls') ∧
    (∀ before later, ∀ spans spans' : List Rat, (∀ e ∈ spans ++ spans', 0 ≤ e ∧ e ≤ maxElapsed) →
      spans.sum = spans'.sum →
      c.totals (before ++ spans.map some ++ later) = c.totals (before ++ spans'.map some ++ later)) ∧
    ((1 : Rat) / timerRate ≤ maxElapsed →
      ∀ calls, (c.after calls).frame = (c.after calls).advance (1 / timerRate)) := by
  obtain ⟨carrying, rfl⟩ := Carrying.of_create limit created
  have totals : ∀ calls, _ := carrying.totals_eq
  refine ⟨?_, ?_, ?_, ?_⟩
  · intro calls
    have timer : (timerRate : Rat) ≠ 0 := carrying.timerRate_pos.ne'
    rw [totals calls, sum_span]
    simp only [zero_add]
    have steps : (cpuRate : Rat) * (timeIn maxElapsed calls + periods calls * (1 / timerRate)) =
        cpuRate * timeIn maxElapsed calls + periods calls * ((cpuRate : Rat) / timerRate) := by
      ring
    have ticks : (timerRate : Rat) * (timeIn maxElapsed calls + periods calls * (1 / timerRate)) =
        (periods calls : Nat) + timerRate * timeIn maxElapsed calls := by
      field_simp
      ring
    rw [steps, ticks, Int.floor_natCast_add]
  · intro calls calls' same
    rw [totals calls, totals calls', (same.map _).sum_eq]
  · intro before later spans spans' within sums
    have first := sum_span_of_fits ⟨cpuRate, timerRate, maxElapsed, 0, 0⟩
      fun e mem => within e (List.mem_append_left spans' mem)
    have second := sum_span_of_fits ⟨cpuRate, timerRate, maxElapsed, 0, 0⟩
      fun e mem => within e (List.mem_append_right spans mem)
    simp only [totals, List.map_append, List.sum_append, first, second, sums]
  · intro period calls
    obtain ⟨carries, spans⟩ := carrying.after calls
    have forward : (0 : Rat) ≤ 1 / timerRate := (one_div_pos.mpr carrying.timerRate_pos).le
    have same : (after ⟨cpuRate, timerRate, maxElapsed, 0, 0⟩ calls).span none =
        (after ⟨cpuRate, timerRate, maxElapsed, 0, 0⟩ calls).span (some (1 / timerRate)) := by
      rw [spans]
      exact (cut_of_fits forward period).symm
    exact carries.call_congr same

/-- Two periods, an eighth of a second, a second back and three seconds of which a quarter counts. In
another order, and with the eighth divided, they come to the same. -/
theorem rates_kept_mixed :
    let c : FrameClock Rat := ⟨700, 60, 1 / 4, 0, 0⟩
    create 700 60 (1 / 4 : Rat) = .ok c ∧
      c.totals [none, some (1 / 8), some (-1), some 3, none] = .ok (285, 24) ∧
      c.totals [some 3, none, some (-1), none, some (1 / 8)] = .ok (285, 24) ∧
      c.totals [none, some (1 / 24), some (1 / 12), some (-1), some 3, none] = .ok (285, 24) ∧
      (c.after [some (1 / 8)]).frame = (c.after [some (1 / 8)]).advance (1 / 60) := by
  intro c
  have created : create 700 60 (1 / 4 : Rat) = .ok c := rfl
  obtain ⟨totals, reordered, divided, period⟩ := rates_kept (by norm_num) created
  have mixed : c.totals [none, some (1 / 8), some (-1), some 3, none] = .ok (285, 24) := by
    have time : timeIn (1 / 4) [none, some (1 / 8), some (-1), some 3, none] = 3 / 8 ∧
        periods [none, some (1 / 8), some (-1), some 3, none] = 2 := by decide +kernel
    rw [totals, time.1, time.2]
    norm_num
  have fits : ∀ e ∈ [(1 / 8 : Rat)] ++ [1 / 24, 1 / 12], 0 ≤ e ∧ e ≤ 1 / 4 := by norm_num
  have parts := divided [none] [some (-1), some 3, none] [1 / 8] [1 / 24, 1 / 12] fits (by norm_num)
  refine ⟨created, mixed, ?_, parts.symm.trans mixed, period (by norm_num) _⟩
  rw [← mixed]
  exact reordered _ _ (by decide +kernel)

end Chip8.FrameClock
