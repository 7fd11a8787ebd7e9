import Chip8.Clock

/-!
# Call after call

The calls of a clock as values, and what many of them grant together.
-/

namespace Chip8.FrameClock

variable {α : Type} [Duration α]

/-- A call of a clock: for a time that elapsed, or for one timer period if none is given. -/
def call (c : FrameClock α) : Option α → FrameClock α × Except NumberError (Int × Int)
  | none => c.frame
  | some elapsed => c.advance elapsed

/-- The clock after some calls. -/
def after (c : FrameClock α) (calls : List (Option α)) : FrameClock α :=
  calls.foldl (fun c x => (c.call x).1) c

@[simp] theorem after_cons (c : FrameClock α) (x : Option α) (rest : List (Option α)) :
    c.after (x :: rest) = (c.call x).1.after rest := rfl

/-- The steps and the ticks that some calls grant together, if all of them do. -/
def totals (c : FrameClock α) : List (Option α) → Except NumberError (Int × Int)
  | [] => .ok (0, 0)
  | x :: rest =>
    match c.call x with
    | (_, .error e) => .error e
    | (c, .ok (steps, ticks)) =>
      match totals c rest with
      | .error e => .error e
      | .ok (steps', ticks') => .ok (steps + steps', ticks + ticks')

end Chip8.FrameClock
