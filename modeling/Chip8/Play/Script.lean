import Chip8.Play
import Chip8.Session.Frames

/-!
# What a script gives to the frames of a play

The calls that the loop makes, one for each frame, as they follow from the script of the host alone:
from the readings of its clock and from what is typed before each poll.
-/

namespace Chip8.Play

/-- Reading `k` of a clock: the last one stays, and a clock without readings shows zero. -/
def readingAt (readings : Readings) (k : Nat) : Binary64 :=
  readings.getD k (readings.getLast?.getD .zero)

/-- What is typed before poll `n`; behind the script it is the escape key. -/
def typedAt (typed : List (List Char)) (n : Nat) : List Char := typed.getD n ['\x1b']

/-- The held keys before poll `n`. -/
def keysAt (typed : List (List Char)) : Nat → HeldKeys
  | 0 => .idle holdFrames
  | n + 1 => ((keysAt typed n).feed (typedAt typed n)).poll.2

/-- The call for frame `n`. The time that passed is counted from the beginning of the frame before, or
from the reading before the loop. -/
def callAt (readings : Readings) (typed : List (List Char)) (n : Nat) : FrameCall where
  keys := ((keysAt typed n).feed (typedAt typed n)).poll.1.toList
  elapsed := some (Binary64.sub (readingAt readings (2 * n + 1)) (readingAt readings (2 * n - 1)))

/-- Whether what is typed asks to quit. -/
def quits (typed : List Char) : Bool := typed.any Keypad.asksToQuit

/-- The number of polls up to and including the first one whose input asks to quit. -/
def pollCount (typed : List (List Char)) : Nat := (typed ++ [['\x1b']]).findIdx quits + 1

end Chip8.Play
