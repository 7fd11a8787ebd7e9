import Chip8.Number.Binary64

/-!
# Frame clock

Turns elapsed time into whole numbers of instruction steps and timer ticks. What is granted but not
handed out stays in two debts, so that over many frames the rates are met whatever the lengths of
the frames are. The clock is the same for every number system in which time is counted: the
instance for `Binary64` is the one that runs, and the one for `Rat` knows no rounding.
-/

namespace Chip8

/-- A number system in which time is counted. -/
class Duration (α : Type) where
  zero : α
  /-- Strictly less. -/
  less : α → α → Bool
  add : α → α → α
  /-- Time multiplied by a rate. -/
  scale : α → Int → Except NumberError α
  /-- The quotient of two rates. -/
  ratio : Int → Int → Except NumberError α
  /-- The integer part. -/
  whole : α → Except NumberError Int
  /-- What remains without an integer part. -/
  subInt : α → Int → α

instance : Duration Binary64 where
  zero := .zero
  less := Binary64.less
  add := Binary64.add
  scale x rate := (Binary64.ofInt rate).map x.mul
  ratio := Binary64.ratio
  whole := Binary64.whole
  subInt := Binary64.subInt

instance : Duration Rat where
  zero := 0
  less x y := decide (x < y)
  add x y := x + y
  scale x rate := .ok (x * rate)
  ratio a b := .ok ((a : Rat) / b)
  whole x := .ok (x.num.tdiv x.den)
  subInt x v := x - v

/-- A clock with its rates and its debts. -/
structure FrameClock (α : Type) where
  /-- Instructions per second. -/
  cpuRate : Int
  /-- Timer ticks per second. -/
  timerRate : Int
  /-- The longest time that one call accounts for. -/
  maxElapsed : α
  /-- Instruction steps granted and not yet handed out. -/
  cpuDebt : α
  /-- Timer ticks granted and not yet handed out. -/
  timerDebt : α
  deriving Repr

/-- Rates of which one is not positive. -/
structure FrameClock.BadRates where
  cpuRate : Int
  timerRate : Int
  deriving Repr, DecidableEq

/-- The text shown to the user. -/
def FrameClock.BadRates.message (e : FrameClock.BadRates) : String :=
  "Clock rates must be positive (cpu_hz=" ++ decimal e.cpuRate ++ ", timer_hz=" ++
    decimal e.timerRate ++ ")"

namespace FrameClock

/-- Instructions per second, unless told otherwise. -/
def defaultCpuRate : Int := 700

/-- Timer ticks per second, unless told otherwise. -/
def defaultTimerRate : Int := 60

/-- A quarter of a second. -/
def defaultMaxElapsed : Binary64 := .finite false (Binary64.unitsPerOne / 4)

variable {α : Type} [Duration α]

/-- A clock without debts. Both rates have to be positive. -/
def create (cpuRate timerRate : Int) (maxElapsed : α) : Except BadRates (FrameClock α) :=
  if cpuRate ≤ 0 ∨ timerRate ≤ 0 then .error ⟨cpuRate, timerRate⟩
  else .ok ⟨cpuRate, timerRate, maxElapsed, Duration.zero, Duration.zero⟩

/-- Elapsed time cut to the range from zero to a limit; the limit wins if it is below zero. What
compares with nothing stays as it is. -/
def clamp (limit elapsed : α) : α :=
  let forward := if Duration.less elapsed Duration.zero then Duration.zero else elapsed
  if Duration.less limit forward then limit else forward

/-- The whole steps and ticks in the debts, taken out of them. If one of them has none, the debts
stay as they are. -/
def payOut (c : FrameClock α) : FrameClock α × Except NumberError (Int × Int) :=
  match Duration.whole c.cpuDebt with
  | .error e => (c, .error e)
  | .ok steps =>
    match Duration.whole c.timerDebt with
    | .error e => (c, .error e)
    | .ok ticks =>
      ({ c with
          cpuDebt := Duration.subInt c.cpuDebt steps
          timerDebt := Duration.subInt c.timerDebt ticks },
        .ok (steps, ticks))

/-- Accounts for elapsed time, and answers the steps and ticks it grants. -/
def advance (c : FrameClock α) (elapsed : α) : FrameClock α × Except NumberError (Int × Int) :=
  let span := clamp c.maxElapsed elapsed
  match Duration.scale span c.cpuRate with
  | .error e => (c, .error e)
  | .ok grant =>
    let c := { c with cpuDebt := Duration.add c.cpuDebt grant }
    match Duration.scale span c.timerRate with
    | .error e => (c, .error e)
    | .ok grant => { c with timerDebt := Duration.add c.timerDebt grant }.payOut

/-- Accounts for exactly one timer period: always one tick, and the steps of that period. -/
def frame (c : FrameClock α) : FrameClock α × Except NumberError (Int × Int) :=
  match Duration.ratio c.cpuRate c.timerRate with
  | .error e => (c, .error e)
  | .ok grant =>
    let c := { c with cpuDebt := Duration.add c.cpuDebt grant }
    match Duration.whole c.cpuDebt with
    | .error e => (c, .error e)
    | .ok steps => ({ c with cpuDebt := Duration.subInt c.cpuDebt steps }, .ok (steps, 1))

/-- A clock that is created has positive rates and no debts. -/
theorem eq_of_create {cpuRate timerRate : Int} {maxElapsed : α} {c : FrameClock α}
    (h : create cpuRate timerRate maxElapsed = .ok c) :
    0 < cpuRate ∧ 0 < timerRate ∧ c = ⟨cpuRate, timerRate, maxElapsed, Duration.zero, Duration.zero⟩ := by
  rw [create] at h
  split at h
  · exact absurd h (by simp)
  · rename_i positive
    rw [not_or, Int.not_le, Int.not_le] at positive
    exact ⟨positive.1, positive.2, (Except.ok.inj h).symm⟩

/-- A frame that grants steps. -/
theorem frame_eq {c : FrameClock α} {grant : α} {steps : Int}
    (quotient : Duration.ratio c.cpuRate c.timerRate = .ok grant)
    (due : Duration.whole (Duration.add c.cpuDebt grant) = .ok steps) :
    c.frame =
      ({ c with cpuDebt := Duration.subInt (Duration.add c.cpuDebt grant) steps }, .ok (steps, 1)) := by
  rw [frame, quotient]
  simp only [due]

/-- Elapsed time that grants steps and ticks. -/
theorem advance_eq {c : FrameClock α} {elapsed cpuGrant timerGrant : α} {steps ticks : Int}
    (cpu : Duration.scale (clamp c.maxElapsed elapsed) c.cpuRate = .ok cpuGrant)
    (timer : Duration.scale (clamp c.maxElapsed elapsed) c.timerRate = .ok timerGrant)
    (stepsDue : Duration.whole (Duration.add c.cpuDebt cpuGrant) = .ok steps)
    (ticksDue : Duration.whole (Duration.add c.timerDebt timerGrant) = .ok ticks) :
    c.advance elapsed =
      ({ c with
          cpuDebt := Duration.subInt (Duration.add c.cpuDebt cpuGrant) steps
          timerDebt := Duration.subInt (Duration.add c.timerDebt timerGrant) ticks },
        .ok (steps, ticks)) := by
  rw [advance]
  simp only [cpu, timer, payOut, stepsDue, ticksDue]

end FrameClock
end Chip8
