import Chip8.Machine.Host
import Chip8.Session

/-!
# Frame after frame

The calls by which a host runs the frames of a session, as values, and what becomes of the session
and of its machine over many of them.
-/

namespace Chip8

/-- A call for one frame: the states of the keys, and the elapsed time if the host measured it. -/
structure FrameCall where
  keys : List Bool
  elapsed : Option Binary64

namespace FrameCall

/-- What a frame does to the machine before its steps: it sets the keys and ticks the timers. -/
def opening (call : FrameCall) (ticks : Int) : List Machine.HostAction :=
  .setKeys call.keys :: List.replicate ticks.toNat .tick

/-- What a frame does to the machine that is granted a number of steps and a number of ticks. -/
def actions (call : FrameCall) (counts : Int × Int) : List Machine.HostAction :=
  call.opening counts.2 ++ List.replicate counts.1.toNat .step

end FrameCall

namespace Session

/-- The session after its first `n` frames. -/
def afterFrames (s : Session) (calls : Nat → FrameCall) : Nat → Session
  | 0 => s
  | n + 1 => ((afterFrames s calls n).runFrame (calls n).keys (calls n).elapsed).1

/-- The answer to frame `n`, counted from zero. -/
def answerAt (s : Session) (calls : Nat → FrameCall) (n : Nat) : Except FrameError FrameReport :=
  ((s.afterFrames calls n).runFrame (calls n).keys (calls n).elapsed).2

/-- The steps that frame `n` reports. -/
def stepsAt (s : Session) (calls : Nat → FrameCall) (n : Nat) : Nat :=
  match s.answerAt calls n with
  | .ok report => report.steps
  | .error _ => 0

/-- The timer ticks that frame `n` reports. -/
def ticksAt (s : Session) (calls : Nat → FrameCall) (n : Nat) : Int :=
  match s.answerAt calls n with
  | .ok report => report.ticks
  | .error _ => 0

/-- The machine in frame `n` behind the opening and `j` steps. -/
def machineAt (s : Session) (calls : Nat → FrameCall) (n j : Nat) : Machine :=
  (s.afterFrames calls n).machine.after ((calls n).actions (j, s.ticksAt calls n))

/-- Frame `g` is the last one before frame `f` that took a step. -/
def LastStepping (s : Session) (calls : Nat → FrameCall) (f g : Nat) : Prop :=
  g < f ∧ 0 < s.stepsAt calls g ∧ ∀ h, g < h → h < f → s.stepsAt calls h = 0

/-- The first step of frame `f` ends a wait with key `k`. -/
def EndsWait (s : Session) (calls : Nat → FrameCall) (f : Nat) (k : Fin 16) : Prop :=
  0 < s.stepsAt calls f ∧ ∃ r, (s.machineAt calls f 0).waiting = some r ∧
    (s.machineAt calls f 1).waiting = none ∧ (s.machineAt calls f 1).registers.value r = k

/-- What the first `n` frames do to the machine that are granted these counts, if no step faults. -/
def script (calls : Nat → FrameCall) (counts : Nat → Int × Int) : Nat → List Machine.HostAction
  | 0 => []
  | n + 1 => script calls counts n ++ (calls n).actions (counts n)

end Session
end Chip8
