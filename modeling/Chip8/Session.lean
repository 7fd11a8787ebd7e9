import Chip8.Clock
import Chip8.Keypad.Source
import Chip8.Machine.Cycle

/-!
# Session

Drives a machine frame by frame on behalf of a host: each frame sets the keys, applies the timer
ticks and runs the instruction steps that the clock grants. A fault ends its frame at once and halts
the session, and a halted session does nothing until a program is loaded.
-/

namespace Chip8

/-- A machine with the clock that drives it. -/
structure Session where
  machine : Machine
  clock : FrameClock Binary64
  /-- The program that a restart loads. -/
  program : List UInt8
  /-- The fault that halted the session. -/
  fault : Option Fault
  /-- The number of frames run since the last load. -/
  frames : Nat

/-- What happened during one frame. -/
structure FrameReport where
  steps : Nat
  ticks : Int
  fault : Option Fault
  /-- The sound was off before the frame and is on after it. -/
  soundStarted : Bool
  deriving Repr, DecidableEq

/-- The report of a frame in which nothing happened. -/
def FrameReport.empty : FrameReport := ⟨0, 0, none, false⟩

/-- Why a frame did not run. -/
inductive FrameError where
  /-- The clock's debt has no integer part. -/
  | clock (cause : NumberError)
  /-- The host gave a wrong number of key states. -/
  | keys (cause : Keypad.WrongKeyCount)
  deriving Repr, DecidableEq

namespace Session

/-- A session that has run no frame and has an empty program to restart. -/
def start (machine : Machine) (clock : FrameClock Binary64) : Session :=
  ⟨machine, clock, [], none, 0⟩

/-- A fault halted the session. -/
def halted (s : Session) : Bool := s.fault.isSome

/-- Loads a program and clears the fault. A program that does not fit leaves the machine reset and
all else as it was. -/
def load (s : Session) (program : List UInt8) : Session × Option Fault :=
  match s.machine.load program with
  | (m, some f) => ({ s with machine := m }, some f)
  | (m, none) => ({ s with machine := m, program := program, fault := none, frames := 0 }, none)

/-- Loads the program of the last successful load again. -/
def restart (s : Session) : Session × Option Fault := s.load s.program

/-- What the clock grants: for the elapsed time, or for one timer period if none is given. -/
def grant (s : Session) (elapsed : Option Binary64) :
    FrameClock Binary64 × Except NumberError (Int × Int) :=
  match elapsed with
  | none => s.clock.frame
  | some e => s.clock.advance e

/-- Runs one frame with counts that the clock has granted. -/
def runGranted (s : Session) (keys : Keypad) (steps ticks : Int) : Session × FrameReport :=
  let sounding := s.machine.soundActive
  let machine := Machine.ticks ticks.toNat { s.machine with keys := keys }
  let progress := Machine.run steps.toNat machine
  ({ s with
      machine := progress.machine
      fault := progress.fault
      frames := s.frames + 1 },
    { steps := progress.steps
      ticks := ticks
      fault := progress.fault
      soundStarted := progress.machine.soundActive && !sounding })

/-- Runs one frame. The clock has moved on also when the keys are refused. -/
def runFrame (s : Session) (keys : List Bool) (elapsed : Option Binary64) :
    Session × Except FrameError FrameReport :=
  if s.halted then (s, .ok .empty)
  else
    match s.grant elapsed with
    | (clock, .error e) => ({ s with clock := clock }, .error (.clock e))
    | (clock, .ok (steps, ticks)) =>
      let s := { s with clock := clock }
      match Keypad.ofList keys with
      | .error e => (s, .error (.keys e))
      | .ok keys =>
        let (s, report) := s.runGranted keys steps ticks
        (s, .ok report)

/-! ## Many frames -/

/-- A session after many frames, with its key source and the number of frames that ran. -/
structure Series (σ : Type) where
  session : Session
  source : σ
  ran : Nat
  error : Option FrameError

namespace Series

variable {σ : Type}

/-- The series with one more frame. The source is asked before the frame. -/
def next (keys : KeySource σ) (r : Series σ) : Series σ :=
  let polled := keys.poll r.source
  let answer := r.session.runFrame polled.1 none
  match answer.2 with
  | .error e => { r with session := answer.1, source := polled.2, error := some e }
  | .ok _ => { r with session := answer.1, source := polled.2, ran := r.ran + 1 }

/-- No further frame is run: the session is halted, or a frame did not run. -/
def ended (r : Series σ) : Bool := r.session.halted || r.error.isSome

/-- The series with up to `count` more frames. -/
def extend (keys : KeySource σ) : Nat → Series σ → Series σ
  | 0, r => r
  | count + 1, r => if r.ended then r else extend keys count (r.next keys)

theorem next_session (keys : KeySource σ) (r : Series σ) :
    (r.next keys).session = (r.session.runFrame (keys.poll r.source).1 none).1 := by
  simp only [next]
  cases (r.session.runFrame (keys.poll r.source).1 none).2 <;> rfl

end Series

/-- Up to `count` frames of one timer period each, ending when the session halts or a frame does
not run. -/
def runFrames {σ : Type} (keys : KeySource σ) (count : Nat) (s : Session) (source : σ) : Series σ :=
  Series.extend keys count ⟨s, source, 0, none⟩

end Session
end Chip8
