/-!
# Input streams

A stream of bytes as its reader finds it. The reader takes what is there in pieces and never waits for
more: it reads as long as a read returns at once, and the end of the stream, which returns at once
however often it is read, ends the reading. A piece that is not the end leaves fewer bytes, so the reading
always comes to an end.
-/

namespace Chip8

/-- A stream of bytes with somebody, or nobody, at its writing end. -/
structure InputStream where
  /-- The bytes that were written and not read yet. -/
  waiting : List UInt8
  /-- Nobody holds the writing end. -/
  closed : Bool
  deriving Repr, DecidableEq

namespace InputStream

/-- A stream to which nothing was written yet. -/
def opened : InputStream := ⟨[], false⟩

/-- Somebody at the writing end writes bytes. -/
def write (s : InputStream) (bytes : List UInt8) : InputStream := ⟨s.waiting ++ bytes, false⟩

/-- The last one at the writing end leaves it. -/
def close (s : InputStream) : InputStream := { s with closed := true }

/-- A read returns at once: there are bytes, or there is the end. -/
def ready (s : InputStream) : Bool := !s.waiting.isEmpty || s.closed

/-- Reads at most `size` bytes of a stream that is ready. No bytes are its end. -/
def read (size : Nat) (s : InputStream) : List UInt8 × InputStream :=
  (s.waiting.take size, { s with waiting := s.waiting.drop size })

/-- A piece that is not the end leaves fewer bytes. -/
theorem read_leaves_fewer {size : Nat} {s : InputStream} (h : ¬ (s.read size).1.isEmpty = true) :
    (s.read size).2.waiting.length < s.waiting.length := by
  have some_read : 0 < (s.waiting.take size).length := by
    rw [List.length_pos_iff]
    exact fun none_read => h (List.isEmpty_iff.mpr none_read)
  have rest : (s.read size).2.waiting = s.waiting.drop size := rfl
  rw [List.length_take] at some_read
  rw [rest, List.length_drop]
  omega

/-- The pieces that are read while the stream is ready, up to its end, and what remains of the stream. -/
def drain (size : Nat) (s : InputStream) : List (List UInt8) × InputStream :=
  if s.ready then
    let piece := s.read size
    if piece.1.isEmpty then ([], piece.2)
    else
      let further := drain size piece.2
      (piece.1 :: further.1, further.2)
  else ([], s)
termination_by s.waiting.length
decreasing_by exact read_leaves_fewer ‹_›

/-- Reading in pieces gives all that was waiting, and leaves nothing of it. -/
theorem drain_spec {size : Nat} (some_read : 0 < size) (s : InputStream) :
    (s.drain size).1.flatten = s.waiting ∧ (s.drain size).2 = { s with waiting := [] } := by
  fun_induction drain size s with
  | case1 s returns piece ended =>
    have nothing : s.waiting = [] := by
      have taken : s.waiting.take size = [] := List.isEmpty_iff.mp ended
      rcases List.take_eq_nil_iff.mp taken with zero | nothing
      · exact absurd zero (Nat.ne_of_gt some_read)
      · exact nothing
    have rest : piece.2 = { s with waiting := [] } := by
      show ({ s with waiting := s.waiting.drop size } : InputStream) = { s with waiting := [] }
      rw [nothing, List.drop_nil]
    exact ⟨nothing.symm, rest⟩
  | case2 s returns piece more further ih =>
    obtain ⟨all, rest⟩ := ih
    refine ⟨?_, rest⟩
    rw [List.flatten_cons, all]
    exact List.take_append_drop size s.waiting
  | case3 s waits =>
    have nothing : s.waiting = [] ∧ s.closed = false := by simpa [ready] using waits
    exact ⟨nothing.1.symm, by rw [← nothing.1]⟩

end InputStream
end Chip8
