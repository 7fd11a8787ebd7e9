import Chip8.Clock.Calls
import Chip8.Proofs.Overflow
import Chip8.Proofs.Rounding

/-!
# A clock that rounds

What a call grants is a rounded product or quotient, and it is added to a debt in a rounded sum
(`FrameClock.Carries`). Then the whole steps and ticks are taken out, and this is exact: a count that is
handed out and the debt that is left are together the sum (`Binary64.Splits`). So a debt is always a part
of one step or of one tick, however many calls there are (`FrameClock.carries_exactly`).
-/

-- powers are those of `Nat` itself, whatever is imported, and a written exponent tells its type for that
attribute [local instance (high)] instPowNat

namespace Chip8
namespace Binary64

/-- A number of the format from zero to below one, and not the zero of negative sign. -/
structure IsPart (x : Binary64) : Prop where
  number : x.IsNumber
  unsigned : ∃ units, x = .finite false units
  nonneg : 0 ≤ x.value
  lt_one : x.value < 1

/-- A debt and a grant are added, which rounds, and the sum is divided without an error into a count that
is handed out and the rest. -/
structure Splits (debt grant : Binary64) (count : Int) (rest : Binary64) : Prop where
  sum : Rounds (debt.value + grant.value) (add debt grant)
  exact_split : (count : Rat) + rest.value = (add debt grant).value
  count_nonneg : 0 ≤ count
  rest_part : rest.IsPart

/-- A grant is the rounded product of a span and a rate. The rate is rounded to a number for that, which
changes no rate of at most 53 bits. -/
def Product (span : Binary64) (rate : Int) (grant : Binary64) : Prop :=
  ∃ factor : Binary64, Rounds (rate : Rat) factor ∧ (rate ≤ 2 ^ (53 : Nat) → factor.value = rate) ∧
    Rounds (span.value * factor.value) grant

theorem isPart_finite {units : Nat} (h : Representable units) (bound : units < unitsPerOne) :
    IsPart (.finite false units) := by
  have one := unitsPerOne_cast_pos
  have below : unitsPerOne ≤ unitsLimit := by
    have gap := @double_two_pow_le 1074 2098 (by decide)
    rw [← unitsPerOne, ← unitsLimit] at gap
    omega
  refine ⟨⟨false, units, rfl, h, Nat.lt_of_lt_of_le bound below⟩, ⟨units, rfl⟩, ?_, ?_⟩
  · rw [value_finite]
    exact div_nonneg (Nat.cast_nonneg _) one.le
  · rw [value_finite, div_lt_one one]
    exact Nat.cast_lt.mpr bound

theorem isPart_zero : IsPart zero := isPart_finite (Nat.dvd_zero _) unitsPerOne_pos

theorem IsPart.exists_units {x : Binary64} (h : x.IsPart) :
    ∃ units < unitsPerOne, x = .finite false units := by
  obtain ⟨units, rfl⟩ := h.unsigned
  refine ⟨units, ?_, rfl⟩
  have below := h.lt_one
  rwa [value_finite, div_lt_one unitsPerOne_cast_pos, Nat.cast_lt] at below

theorem nonneg_iff {x : Binary64} (h : x.IsFinite) : Nonneg x ↔ 0 ≤ x.value := by
  obtain ⟨negative, units, rfl⟩ := h
  rw [Nonneg, zero, less_finite, value_zero, decide_eq_false_iff_not, not_lt]

/-- A zero of negative sign adds nothing. -/
theorem add_of_nonneg {m n : Nat} {negative : Bool} (h : Nonneg (.finite negative n)) :
    add (.finite false m) (.finite negative n) = add (.finite false m) (.finite false n) := by
  cases negative with
  | false => rfl
  | true =>
    obtain rfl := nonneg_finite_iff.mp h rfl
    rfl

/-- A sum without a sign is divided into its integer part and a part of one. -/
theorem whole_finite {units : Nat} (h : Representable units) (bound : units < unitsLimit) :
    ∃ count, whole (.finite false units) = .ok count ∧ 0 ≤ count ∧
      (subInt (.finite false units) count).IsPart ∧
      (count : Rat) + (subInt (.finite false units) count).value = value (.finite false units) := by
  refine ⟨(units / unitsPerOne : Nat), rfl, Int.natCast_nonneg _, ?_⟩
  rw [subInt_whole h bound]
  refine ⟨isPart_finite (representable_parts h).2 (Nat.mod_lt _ unitsPerOne_pos), ?_⟩
  have one := unitsPerOne_cast_pos
  have parts : ((units / unitsPerOne : Nat) : Rat) * unitsPerOne + (units % unitsPerOne : Nat) = units := by
    rw [← Nat.cast_mul, ← Nat.cast_add, Nat.div_add_mod']
  rw [value_finite, value_finite, Int.cast_natCast, ← parts, add_div, mul_div_cancel_right₀ _ one.ne']

/-- A grant that is added to a debt is handed out, up to a part of one. -/
theorem IsPart.splits {debt grant : Binary64} (part : debt.IsPart) (number : grant.IsNumber)
    (forward : Nonneg grant) :
    ∃ count, whole (add debt grant) = .ok count ∧
      Splits debt grant count (subInt (add debt grant) count) := by
  obtain ⟨owed, fraction, rfl⟩ := part.exists_units
  obtain ⟨negative, granted, rfl, representable, bound⟩ := number
  -- a fraction more does not make a grant overflow
  have finite : (add (.finite false owed) (.finite negative granted)).IsFinite := by
    rw [add_of_nonneg forward]
    obtain ⟨units, sum⟩ := add_fraction fraction representable bound
    exact ⟨_, units, sum⟩
  obtain ⟨⟨units, sum⟩, rounds⟩ := rounds_add forward finite
  obtain ⟨representable, bound⟩ := inFormat_add _ _ _ _ sum
  obtain ⟨count, whole, count_nonneg, rest_part, exact_split⟩ := whole_finite representable bound
  rw [← sum] at whole rest_part exact_split
  exact ⟨count, whole, ⟨rounds, exact_split, count_nonneg, rest_part⟩⟩

/-- What a span grants for a rate, if this is finite. -/
theorem product_scale {span grant : Binary64} {rate : Int} (finite : span.IsFinite)
    (forward : Nonneg span) (hr : 0 ≤ rate) (h : Duration.scale span rate = .ok grant)
    (bounded : grant.IsFinite) : Product span rate grant ∧ grant.IsNumber ∧ Nonneg grant := by
  have scaled : (ofInt rate).map span.mul = .ok grant := h
  cases hf : ofInt rate with
  | error e =>
    rw [hf] at scaled
    exact absurd scaled (by simp [Except.map])
  | ok factor =>
    rw [hf] at scaled
    obtain rfl := Except.ok.inj scaled
    have rate_rounds := rounds_ofInt hr hf
    obtain ⟨n, rfl⟩ := ofInt_eq_ok hr hf
    obtain ⟨negative, m, rfl⟩ := finite
    have rounds := rounds_mul forward bounded
    exact ⟨⟨_, rate_rounds, fun small => rate_rounds.eq_of_le hr small, rounds⟩, rounds.number,
      nonneg_mul forward n⟩

end Binary64

namespace FrameClock

open Binary64 (IsPart Nonneg Product Rounds Splits)

variable {c : FrameClock Binary64}

/-- A computation gives a finite number. -/
def YieldsFinite (computed : Except NumberError Binary64) : Prop :=
  ∃ x : Binary64, computed = .ok x ∧ x.IsFinite

/-- A call is for one period or for a finite time, and what it grants does not overflow. -/
def InRange (c : FrameClock Binary64) : Option Binary64 → Prop
  | none => YieldsFinite (Duration.ratio c.cpuRate c.timerRate)
  | some elapsed => elapsed.IsFinite ∧
      YieldsFinite (Duration.scale (clamp c.maxElapsed elapsed) c.cpuRate) ∧
      YieldsFinite (Duration.scale (clamp c.maxElapsed elapsed) c.timerRate)

instance (computed : Except NumberError Binary64) : Decidable (YieldsFinite computed) :=
  match computed with
  | .ok x => decidable_of_iff x.IsFinite (by simp [YieldsFinite])
  | .error _ => .isFalse (by simp [YieldsFinite])

instance (c : FrameClock Binary64) (x : Option Binary64) : Decidable (c.InRange x) :=
  match x with
  | none => inferInstanceAs (Decidable (YieldsFinite _))
  | some _ => inferInstanceAs (Decidable (_ ∧ YieldsFinite _ ∧ YieldsFinite _))

/-- What a call does. For one period the quotient of the rates is granted in steps, and there is one tick
besides the debts; for elapsed time, cut to the range from zero to the limit, its product with each of the
rates is granted. -/
inductive Carries (c : FrameClock Binary64) :
    Option Binary64 → FrameClock Binary64 → Int → Int → Prop where
  | period {grant cpuDebt : Binary64} {steps : Int} :
    Rounds ((c.cpuRate : Rat) / c.timerRate) grant →
    Splits c.cpuDebt grant steps cpuDebt →
    Carries c none { c with cpuDebt := cpuDebt } steps 1
  | elapsed {elapsed span cpuGrant cpuDebt timerGrant timerDebt : Binary64} {steps ticks : Int} :
    span.value = min (max elapsed.value 0) c.maxElapsed.value →
    Product span c.cpuRate cpuGrant →
    Product span c.timerRate timerGrant →
    Splits c.cpuDebt cpuGrant steps cpuDebt →
    Splits c.timerDebt timerGrant ticks timerDebt →
    Carries c (some elapsed) { c with cpuDebt := cpuDebt, timerDebt := timerDebt } steps ticks

/-- The rates are positive, the limit is finite and not below zero, and the debts are parts of a step and
of a tick. -/
structure InParts (c : FrameClock Binary64) : Prop where
  cpuRate_pos : 0 < c.cpuRate
  timerRate_pos : 0 < c.timerRate
  maxElapsed_finite : c.maxElapsed.IsFinite
  maxElapsed_nonneg : Nonneg c.maxElapsed
  cpuDebt_part : c.cpuDebt.IsPart
  timerDebt_part : c.timerDebt.IsPart

theorem InParts.of_create {cpuRate timerRate : Int} {maxElapsed : Binary64} (finite : maxElapsed.IsFinite)
    (limit : 0 ≤ maxElapsed.value) (h : create cpuRate timerRate maxElapsed = .ok c) : c.InParts := by
  obtain ⟨cpu, timer, rfl⟩ := eq_of_create h
  exact ⟨cpu, timer, finite, (Binary64.nonneg_iff finite).mpr limit, Binary64.isPart_zero,
    Binary64.isPart_zero⟩

/-! ## One call -/

/-- Finite time that is below zero counts as zero. -/
theorem value_forward {x : Binary64} (h : x.IsFinite) :
    (if Duration.less x Duration.zero then Duration.zero else x : Binary64).IsFinite ∧
      (if Duration.less x Duration.zero then Duration.zero else x : Binary64).value = max x.value 0 := by
  have finite : Binary64.zero.IsFinite := ⟨false, 0, rfl⟩
  have zero : Binary64.zero.value = 0 := Binary64.value_zero false
  have back : Duration.less x Duration.zero = true ↔ x.value < 0 := by
    rw [← zero]
    exact Binary64.less_iff h finite
  split
  · rename_i below
    exact ⟨finite, zero.trans (max_eq_right (back.mp below).le).symm⟩
  · rename_i above
    exact ⟨h, (max_eq_left (not_lt.mp (above ∘ back.mpr))).symm⟩

/-- Finite time is cut to a finite limit. -/
theorem value_cut {limit x : Binary64} (hl : limit.IsFinite) (hx : x.IsFinite) :
    (if Duration.less limit x then limit else x).IsFinite ∧
      (if Duration.less limit x then limit else x).value = min x.value limit.value := by
  have exceeds : Duration.less limit x = true ↔ limit.value < x.value := Binary64.less_iff hl hx
  split
  · rename_i beyond
    exact ⟨hl, (min_eq_right (exceeds.mp beyond).le).symm⟩
  · rename_i within
    exact ⟨hx, (min_eq_left (not_lt.mp (within ∘ exceeds.mpr))).symm⟩

theorem value_clamp {limit elapsed : Binary64} (hl : limit.IsFinite) (he : elapsed.IsFinite) :
    (clamp limit elapsed).IsFinite ∧
      (clamp limit elapsed).value = min (max elapsed.value 0) limit.value := by
  obtain ⟨finite, value⟩ := value_forward he
  rw [← value]
  exact value_cut hl finite

theorem InParts.frame (h : c.InParts) (range : c.InRange none) :
    ∃ c' steps, c.frame = (c', .ok (steps, 1)) ∧ c.Carries none c' steps 1 := by
  obtain ⟨grant, quotient, -⟩ := range
  have rounds := Binary64.rounds_ratio (Int.le_of_lt h.cpuRate_pos) h.timerRate_pos quotient
  have forward := Binary64.nonneg_ratio (Int.le_of_lt h.cpuRate_pos) (Int.le_of_lt h.timerRate_pos) quotient
  obtain ⟨steps, whole, splits⟩ := h.cpuDebt_part.splits rounds.number forward
  exact ⟨_, steps, frame_eq quotient whole, .period rounds splits⟩

theorem InParts.advance (h : c.InParts) {elapsed : Binary64} (range : c.InRange (some elapsed)) :
    ∃ c' steps ticks, c.advance elapsed = (c', .ok (steps, ticks)) ∧
      c.Carries (some elapsed) c' steps ticks := by
  obtain ⟨finite, ⟨cpuGrant, cpuScale, cpuFinite⟩, timerGrant, timerScale, timerFinite⟩ := range
  obtain ⟨span_finite, span_value⟩ := value_clamp h.maxElapsed_finite finite
  have span_forward : Nonneg (clamp c.maxElapsed elapsed) := by
    rw [Binary64.nonneg_iff span_finite, span_value]
    exact le_min (le_max_right _ _) ((Binary64.nonneg_iff h.maxElapsed_finite).mp h.maxElapsed_nonneg)
  obtain ⟨cpuProduct, cpuNumber, cpuForward⟩ := Binary64.product_scale span_finite span_forward
    (Int.le_of_lt h.cpuRate_pos) cpuScale cpuFinite
  obtain ⟨timerProduct, timerNumber, timerForward⟩ := Binary64.product_scale span_finite span_forward
    (Int.le_of_lt h.timerRate_pos) timerScale timerFinite
  obtain ⟨steps, cpuWhole, cpuSplits⟩ := h.cpuDebt_part.splits cpuNumber cpuForward
  obtain ⟨ticks, timerWhole, timerSplits⟩ := h.timerDebt_part.splits timerNumber timerForward
  exact ⟨_, steps, ticks, advance_eq cpuScale timerScale cpuWhole timerWhole,
    .elapsed span_value cpuProduct timerProduct cpuSplits timerSplits⟩

/-- A call in range answers. -/
theorem InParts.call (h : c.InParts) {x : Option Binary64} (range : c.InRange x) :
    ∃ c' steps ticks, c.call x = (c', .ok (steps, ticks)) ∧ c.Carries x c' steps ticks := by
  cases x with
  | none =>
    obtain ⟨c', steps, answer, carries⟩ := h.frame range
    rw [FrameClock.call]
    exact ⟨c', steps, 1, answer, carries⟩
  | some elapsed =>
    rw [FrameClock.call]
    exact h.advance range

/-- After a call the debts are parts again, and all the rest is as it was. -/
theorem Carries.inParts {x : Option Binary64} {c' : FrameClock Binary64} {steps ticks : Int}
    (carries : c.Carries x c' steps ticks) (h : c.InParts) :
    c'.InParts ∧ c'.InRange = c.InRange ∧ 0 ≤ steps ∧ 0 ≤ ticks := by
  cases carries with
  | period _ cpu =>
    refine ⟨{ h with cpuDebt_part := cpu.rest_part }, ?_, cpu.count_nonneg, by decide⟩
    -- what is in range depends on the rates and the limit alone
    funext y
    cases y <;> rfl
  | elapsed _ _ _ cpu timer =>
    refine ⟨{ h with cpuDebt_part := cpu.rest_part, timerDebt_part := timer.rest_part }, ?_,
      cpu.count_nonneg, timer.count_nonneg⟩
    funext y
    cases y <;> rfl

/-! ## Many calls -/

theorem InParts.after (h : c.InParts) {calls : List (Option Binary64)} (range : ∀ x ∈ calls, c.InRange x) :
    (c.after calls).InParts ∧ (c.after calls).InRange = c.InRange := by
  induction calls generalizing c with
  | nil => exact ⟨h, rfl⟩
  | cons x rest ih =>
    obtain ⟨c', steps, ticks, answer, carries⟩ := h.call (range x List.mem_cons_self)
    obtain ⟨parts, same, -, -⟩ := carries.inParts h
    rw [after_cons, answer, ← same]
    refine ih parts ?_
    intro y mem
    rw [same]
    exact range y (List.mem_cons_of_mem _ mem)

/-- **Nothing is rounded in the carry.** A clock with positive rates and a finite limit that is not below
zero answers, after any calls, each further one, if all of them are for one period or for finite times and
nothing that they grant overflows (a sum does not then, either). The counts are not below zero, both debts
are parts of one, and a count and the debt that is left are exactly the rounded sum of the debt before and
the rounded grant. -/
theorem carries_exactly {cpuRate timerRate : Int} {maxElapsed : Binary64} (finite : maxElapsed.IsFinite)
    (limit : 0 ≤ maxElapsed.value) (created : create cpuRate timerRate maxElapsed = .ok c)
    {calls : List (Option Binary64)} {x : Option Binary64} (range : ∀ y ∈ calls ++ [x], c.InRange y) :
    ∃ c' steps ticks, (c.after calls).call x = (c', .ok (steps, ticks)) ∧
      (c.after calls).Carries x c' steps ticks ∧ 0 ≤ steps ∧ 0 ≤ ticks ∧
      c'.cpuDebt.IsPart ∧ c'.timerDebt.IsPart := by
  obtain ⟨parts, same⟩ := (InParts.of_create finite limit created).after
    fun y mem => range y (List.mem_append_left _ mem)
  have now : (c.after calls).InRange x := by
    rw [same]
    exact range x (List.mem_append_right _ List.mem_cons_self)
  obtain ⟨c', steps, ticks, answer, carries⟩ := parts.call now
  obtain ⟨parts', -, steps_nonneg, ticks_nonneg⟩ := carries.inParts parts
  exact ⟨c', steps, ticks, answer, carries, steps_nonneg, ticks_nonneg, parts'.cpuDebt_part,
    parts'.timerDebt_part⟩

/-- An eighth of a second, a period, and three seconds of which a quarter counts. -/
theorem carries_exactly_mixed :
    let c : FrameClock Binary64 := ⟨700, 60, defaultMaxElapsed, .zero, .zero⟩
    let eighth : Binary64 := .finite false (Binary64.unitsPerOne / 8)
    let long : Binary64 := .finite false (3 * Binary64.unitsPerOne)
    create 700 60 defaultMaxElapsed = .ok c ∧
      ∃ c', (c.after [some eighth, none]).call (some long) = (c', .ok (175, 15)) ∧
        (c.after [some eighth, none]).Carries (some long) c' 175 15 := by
  intro c eighth long
  have created : create 700 60 defaultMaxElapsed = .ok c := rfl
  have finite : defaultMaxElapsed.IsFinite := ⟨_, _, rfl⟩
  have limit : 0 ≤ defaultMaxElapsed.value := by
    rw [defaultMaxElapsed, Binary64.value_finite]
    exact div_nonneg (Nat.cast_nonneg _) Binary64.unitsPerOne_cast_pos.le
  have range : ∀ y ∈ [some eighth, none] ++ [some long], c.InRange y := by decide +kernel
  have counts : ((c.after [some eighth, none]).call (some long)).2 = .ok (175, 15) := by
    decide +kernel
  obtain ⟨c', steps, ticks, answer, carries, -⟩ := carries_exactly finite limit created range
  rw [answer] at counts
  obtain ⟨rfl, rfl⟩ := Prod.mk.inj (Except.ok.inj counts)
  exact ⟨created, c', answer, carries⟩

end FrameClock
end Chip8
