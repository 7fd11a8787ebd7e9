import Chip8.Keypad.Terminal
import Chip8.Proofs.HeldKeys
import Chip8.Proofs.Utf8

/-!
# What is typed on a terminal

Only ASCII characters stand for keys or ask to quit, and of these a terminal gives exactly the ASCII bytes
on its stream. So the bytes between them, and the pieces in which they are read, do not matter: a poll
answers as if just the ASCII bytes were typed (`TerminalKeys.poll_after`).
-/

namespace Chip8

open Utf8 (Ascii asciiOf onlyAscii)

namespace Keypad

theorem ascii_of_names {c : Char} {k : Fin 16} (h : Names c k) : Ascii c.toNat := by
  have both : ∀ p ∈ layout, Ascii p.1.toNat ∧ Ascii p.1.toUpper.toNat := by decide
  obtain ⟨p, mem, -, rfl | rfl⟩ := h
  · exact (both p mem).1
  · exact (both p mem).2

theorem ascii_of_asksToQuit {c : Char} (h : asksToQuit c = true) : Ascii c.toNat := by
  rcases asksToQuit_iff.mp h with rfl | rfl <;> decide

end Keypad

namespace HeldKeys

/-- What is not ASCII types nothing. -/
theorem type_of_not_ascii (h : HeldKeys) {c : Char} (other : ¬ Ascii c.toNat) : h.type c = h := by
  have stays : ¬ Keypad.asksToQuit c = true := fun quits => other (Keypad.ascii_of_asksToQuit quits)
  have unnamed : Keypad.keyOf? c = none := by
    rw [Option.eq_none_iff_forall_ne_some]
    intro k named
    exact other (Keypad.ascii_of_names (Keypad.keyOf?_eq_some_iff.mp named))
  rw [type, if_neg stays, unnamed]

theorem feed_onlyAscii (h : HeldKeys) (chars : List Char) :
    h.feed (onlyAscii chars) = h.feed chars := by
  induction chars generalizing h with
  | nil => rfl
  | cons c rest ih =>
    have typed : h.feed (c :: rest) = (h.type c).feed rest := rfl
    rw [typed]
    by_cases ascii : Ascii c.toNat
    · have kept : onlyAscii (c :: rest) = c :: onlyAscii rest := by simp [onlyAscii, ascii]
      rw [kept]
      exact ih (h.type c)
    · rw [Utf8.onlyAscii_cons_of_not_ascii ascii, type_of_not_ascii h ascii]
      exact ih h

end HeldKeys

namespace TerminalKeys

/-- What happens to the keys of a terminal. -/
inductive Event where
  /-- Bytes are written to the stream. -/
  | write (bytes : List UInt8)
  /-- The writing end is closed. -/
  | close
  /-- The keys are asked for. -/
  | poll
  deriving Repr, DecidableEq

/-- What an event makes of the keys of a terminal. -/
def perform (t : TerminalKeys) : Event → TerminalKeys
  | .write bytes => t.receive bytes
  | .close => t.close
  | .poll => t.poll.2

/-- The keys of a terminal after some events. -/
def after (t : TerminalKeys) (history : List Event) : TerminalKeys := history.foldl perform t

/-- What an event is for held keys that get the ASCII bytes alone. -/
def Event.typed : Event → Option HeldKeys.Event
  | .write bytes => some (.feed (asciiOf bytes))
  | .close => none
  | .poll => some .poll

/-- The held keys once the ASCII bytes that wait are typed. -/
def settled (t : TerminalKeys) : HeldKeys := t.held.feed (asciiOf t.stream.waiting)

/-- A poll leaves nothing on the stream, and answers as if the ASCII bytes were typed. -/
theorem poll_eq (t : TerminalKeys) :
    t.poll = (t.settled.poll.1, ⟨t.settled.poll.2, { t.stream with waiting := [] }⟩) := by
  obtain ⟨all, rest⟩ := InputStream.drain_spec (by decide : 0 < pieceSize) t.stream
  have fed : t.held.feed ((t.stream.drain pieceSize).1.flatMap Utf8.decode) = t.settled := by
    rw [← HeldKeys.feed_onlyAscii, Utf8.onlyAscii_pieces, all]
    rfl
  rw [poll]
  simp only [fed, rest]

theorem settled_perform (t : TerminalKeys) (event : Event) :
    (t.perform event).settled = t.settled.after event.typed.toList := by
  cases event with
  | write bytes =>
    have typed : asciiOf (t.stream.waiting ++ bytes) = asciiOf t.stream.waiting ++ asciiOf bytes :=
      Utf8.asciiOf_append ..
    exact (congrArg t.held.feed typed).trans (HeldKeys.feed_append ..)
  | close => rfl
  | poll =>
    rw [perform, poll_eq]
    rfl

theorem settled_after (t : TerminalKeys) (history : List Event) :
    (t.after history).settled = t.settled.after (history.filterMap Event.typed) := by
  induction history generalizing t with
  | nil => rfl
  | cons event rest ih =>
    have events : (event :: rest).filterMap Event.typed =
        event.typed.toList ++ rest.filterMap Event.typed := by
      cases event <;> rfl
    have first : t.after (event :: rest) = (t.perform event).after rest := rfl
    rw [first, ih, settled_perform, events, HeldKeys.after_append]

/-- **What is typed on a terminal.** Whatever bytes were written to the stream before a poll, in whatever
portions, and whether or not its writing end is closed: the poll comes to an end
(`InputStream.read_leaves_fewer`) with all taken that was waiting, and answers and leaves what held keys do
that were fed just the ASCII bytes, in order, and polled as often. The answer is the state of all keys; what
is left are their counts and whether to quit. -/
theorem poll_after (h : HeldKeys) (history : List Event) :
    let t := after ⟨h, .opened⟩ history
    let typed := h.after (history.filterMap Event.typed)
    t.poll = (typed.poll.1, ⟨typed.poll.2, { t.stream with waiting := [] }⟩) := by
  intro t typed
  have settled : t.settled = typed := settled_after ⟨h, .opened⟩ history
  rw [poll_eq, settled]

end TerminalKeys
end Chip8
