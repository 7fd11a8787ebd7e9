/-!
# Random bytes

The machine takes its random bytes, one after another, from an endless sequence, and counts how
many it took.
-/

namespace Chip8

/-- An endless sequence of bytes and the number of those already taken. -/
structure RandomSource where
  sequence : Nat → UInt8
  drawn : Nat

namespace RandomSource

/-- The source whose every byte is zero. -/
def zero : RandomSource := ⟨fun _ => 0, 0⟩

/-- The source that repeats the given bytes; without any it yields zeros. -/
def cycle (bytes : Array UInt8) : RandomSource := ⟨fun n => bytes.getD (n % bytes.size) 0, 0⟩

/-- The next byte. -/
def next (r : RandomSource) : UInt8 := r.sequence r.drawn

/-- The source after its next byte is taken. -/
def rest (r : RandomSource) : RandomSource := { r with drawn := r.drawn + 1 }

/-- The bytes that are not taken yet. -/
def remaining (r : RandomSource) (n : Nat) : UInt8 := r.sequence (r.drawn + n)

theorem next_eq (r : RandomSource) : r.next = r.remaining 0 := rfl

theorem remaining_rest (r : RandomSource) (n : Nat) : r.rest.remaining n = r.remaining (n + 1) := by
  rw [remaining, remaining, rest, Nat.add_assoc, Nat.add_comm 1]

end RandomSource
end Chip8
