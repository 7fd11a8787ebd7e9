import Chip8.Operation

/-!
# Execution tally

How often each operation was executed, in the order in which they were first executed.
-/

-- the empty sum is the zero of the number type itself
attribute [local instance (high)] Zero.ofOfNat0

namespace Chip8

/-- Operations with their counts, first executed first. -/
abbrev Tally := List (Operation × Nat)

namespace Tally

/-- Counts one more execution of an operation. -/
def record (op : Operation) : Tally → Tally
  | [] => [(op, 1)]
  | (o, n) :: rest => if o = op then (o, n + 1) :: rest else (o, n) :: record op rest

/-- How often an operation was executed. -/
def count (op : Operation) : Tally → Nat
  | [] => 0
  | (o, n) :: rest => if o = op then n else count op rest

/-- How many executions were counted. -/
def total (t : Tally) : Nat := (t.map (·.2)).sum

/-- Each execution counts once. -/
theorem total_record (op : Operation) (t : Tally) : (t.record op).total = t.total + 1 := by
  induction t with
  | nil => rfl
  | cons e rest ih =>
    obtain ⟨o, n⟩ := e
    by_cases h : o = op <;> simp_all [record, total] <;> omega

/-- An execution counts for its own operation only. -/
theorem count_record (op o : Operation) (t : Tally) :
    (t.record op).count o = t.count o + if o = op then 1 else 0 := by
  induction t with
  | nil => simp [record, count]; grind
  | cons e rest ih =>
    obtain ⟨p, n⟩ := e
    simp only [record]
    grind [count]

end Tally
end Chip8
