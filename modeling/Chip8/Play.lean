import Chip8.Keypad.Held
import Chip8.Panel.Dashboard

/-!
# Interactive play

The loop that a player sees: read the time and the keys, run a frame for the time that passed, ring
the bell if the sound started, draw, and sleep for what is left of the frame. The host is given as a
script: the readings of its clock and what is typed before each poll of the keys.
-/

namespace Chip8

namespace Play

/-- What a host's clock shows from now on; the last reading stays. -/
abbrev Readings := List Binary64

/-- One look at the clock. -/
def read : Readings → Binary64 × Readings
  | [] => (.zero, [])
  | [t] => (t, [t])
  | t :: rest => (t, rest)

/-- How long a frame lasts: a sixtieth of a second. -/
def frameSeconds : Binary64 := .ofUnits false Binary64.unitsPerOne 60

/-- For how many polls a typed key is held. -/
def holdFrames : Int := 6

/-- A drawing, with what the host did at it. -/
structure Drawing where
  dashboard : Dashboard
  /-- The bell rang before the drawing. -/
  bell : Bool
  /-- How long the host slept after the drawing, if it did. -/
  slept : Option Binary64
  deriving Repr, DecidableEq

/-- The loop between two frames. -/
structure State where
  session : Session
  keys : HeldKeys
  readings : Readings
  /-- The time at which the last frame began. -/
  last : Binary64
  /-- The registers as the last drawing showed them. -/
  shown : Registers

/-- Why the loop broke off. -/
inductive Error where
  | frame (cause : FrameError)
  | drawing (cause : Panel.DrawingError)
  deriving Repr, DecidableEq

/-- How long to sleep, if any time is left of a frame that began at `start`. -/
def spare (start now : Binary64) : Option Binary64 :=
  let left := Binary64.sub frameSeconds (Binary64.sub now start)
  if Binary64.less .zero left then some left else none

/-- Draws what a frame came to that began at `now`, and leaves the loop with these keys. -/
def draw (s : State) (now : Binary64) (keys : HeldKeys) (readings : Readings) :
    Session × Except FrameError FrameReport → Except Error (State × Drawing)
  | (_, .error e) => .error (.frame e)
  | (session, .ok report) =>
    match session.dashboard (some s.shown) "" with
    | .error e => .error (.drawing e)
    | .ok dashboard =>
      let (done, readings) := read readings
      .ok (⟨session, keys, readings, now, session.machine.registers⟩,
        ⟨dashboard, report.soundStarted, spare now done⟩)

/-- One frame, with what was typed before its poll. -/
def frame (s : State) (typed : List Char) : Except Error (State × Drawing) :=
  let time := read s.readings
  let polled := (s.keys.feed typed).poll
  draw s time.1 polled.2 time.2
    (s.session.runFrame polled.1.toList (some (Binary64.sub time.1 s.last)))

/-- The frames until the player quits, one for each text typed and, should none of them quit, one
more with the escape key. -/
def frames (s : State) : List (List Char) → Except Error (State × List Drawing)
  | [] =>
    match frame s ['\x1b'] with
    | .error e => .error e
    | .ok (s, drawing) => .ok (s, [drawing])
  | typed :: rest =>
    match frame s typed with
    | .error e => .error e
    | .ok (s, drawing) =>
      if s.keys.quitRequested then .ok (s, [drawing])
      else
        match frames s rest with
        | .error e => .error e
        | .ok (s, drawings) => .ok (s, drawing :: drawings)

end Play

/-- Plays a session until the player quits. Answers the session afterwards and all drawings, the
first of which comes before the first frame. -/
def Session.play (s : Session) (readings : Play.Readings) (typed : List (List Char)) :
    Except Play.Error (Session × List Play.Drawing) :=
  match s.dashboard none "" with
  | .error e => .error (.drawing e)
  | .ok dashboard =>
    let (last, readings) := Play.read readings
    match Play.frames ⟨s, .idle Play.holdFrames, readings, last, s.machine.registers⟩ typed with
    | .error e => .error e
    | .ok (state, drawings) => .ok (state.session, ⟨dashboard, false, none⟩ :: drawings)

end Chip8
