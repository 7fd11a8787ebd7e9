import Chip8.Command.Usage
import Chip8.Keypad.Terminal
import Chip8.Panel.Dashboard
import Chip8.Rom

/-!
# Outcome of a command

What a command prints and its exit code. A headless run shows the final screen and registers and
the number of frames and instructions; a fault makes it fail after that. What is printed is told as it
is handed to the console: how that lays it out is not told here.
-/

namespace Chip8.Command

/-- Something handed to the console. -/
inductive Printout where
  /-- Lines of plain text. -/
  | lines (texts : List String)
  /-- A text that is shown in one style. -/
  | styled (style text : String)
  /-- A text with markup. -/
  | markup (text : String)
  deriving Repr, DecidableEq

/-- What a command leaves behind. -/
structure Outcome where
  code : Nat
  /-- What goes to standard output, in order. -/
  printed : List Printout
  /-- The error messages on standard error. The log, and the usage that is shown before a refusal, go
  there too and are not told here. -/
  errors : List String
  deriving Repr, DecidableEq

/-- The line that tells an error. -/
def errorLine (message : String) : String := "Error: " ++ message

/-- A failure with one error message. -/
def Outcome.failure (message : String) : Outcome := ⟨1, [], [errorLine message]⟩

/-- What a command line leaves behind that asks for nothing to run. -/
def Stop.outcome : Stop → Outcome
  | .help mode => ⟨0, [.lines (helpFor mode)], []⟩
  | .noCommand => ⟨1, [.lines topHelp], []⟩
  | .refused mode cause => ⟨2, [], [titleOf mode ++ ": error: " ++ cause.message]⟩

/-- A session with a loaded program. The clock rate has been checked to be positive. -/
def sessionFor (rate : Int) (dialect : Dialect) (random : RandomSource) (program : List UInt8) :
    Except Fault Session :=
  let clock : FrameClock Binary64 :=
    ⟨rate, FrameClock.defaultTimerRate, FrameClock.defaultMaxElapsed, .zero, .zero⟩
  match (Session.start (.powerOn dialect random) clock).load program with
  | (_, some f) => .error f
  | (s, none) => .ok s

/-- What is printed of the machine that a run ends with. -/
def finalState (m : Machine) : List Printout :=
  [.styled Panel.screenStyle (Panel.screenText m.display.rows), .markup (Panel.registerMarkup m none)]

/-- The line that tells the frames and the instructions of a run, if they can be written. -/
def summary? (ran cycles : Nat) : Option String :=
  if Numeral.isWritable ran && Numeral.isWritable cycles then
    some ("Ran " ++ decimal ran ++ " frames, " ++ decimal cycles ++ " cycles.")
  else none

/-- Why a request comes to no outcome at all. -/
inductive Breakdown where
  /-- A setting was given without a value. -/
  | blank (setting : Setting)
  /-- The program was read, and still it cannot be loaded. -/
  | unloadable (fault : Fault)
  /-- The log tells the clock rate, which is too long to be written. -/
  | unwritableRate
  /-- The clock cannot count the steps of a frame. -/
  | clock (cause : NumberError)
  /-- The path of the program image can name nothing. -/
  | badPath
  /-- A count of the summary is too long to be written. The rest has been printed by then. -/
  | unwritable (printed : List Printout)
  deriving Repr, DecidableEq

/-- Reports the session that a number of frames came to. A fault is told behind the summary. -/
def report (s : Session) (ran : Nat) : Except Breakdown Outcome :=
  match summary? ran s.machine.cycles with
  | none => .error (.unwritable (finalState s.machine))
  | some line => .ok
    { code := if s.halted then 1 else 0
      printed := finalState s.machine ++ [.markup line]
      errors := (s.fault.map fun f => errorLine f.message).toList }

/-- Runs a session without input and reports. -/
def headless (s : Session) (frames : Nat) : Except Breakdown Outcome :=
  let series := Session.runFrames KeySource.idle frames s ()
  match series.error with
  | some (.clock e) => .error (.clock e)
  | _ => report series.session series.ran

/-- Stops at a setting that was given without a value. -/
def Request.check (r : Request) (setting : Setting) : Except Breakdown Unit :=
  if setting ∈ r.blank then .error (.blank setting) else .ok ()

/-- Carries out a request with its program, away from a terminal. Each setting is looked at when it
is first needed. -/
def Request.start (r : Request) (random : RandomSource) (program : List UInt8) :
    Except Breakdown Outcome := do
  r.check .seed
  r.check .rate
  match sessionFor r.rate r.dialect random program with
  | .error f => .error (.unloadable f)
  | .ok session =>
    if r.verbose ∧ ¬ Numeral.isWritable r.rate then .error .unwritableRate
    else
      match r.mode with
      | .play => .ok (.failure ("cannot use terminal: " ++ TerminalKeys.noTerminal))
      | .headless =>
        r.check .frames
        headless session r.frames.toNat

/-- Carries out a request with the program image that was read for it, away from a terminal. -/
def Request.carryOut (r : Request) (random : RandomSource)
    (rom : Except RomError (List UInt8)) : Except Breakdown Outcome := do
  r.check .dialect
  match rom with
  | .error (.access .badPath _) => .error .badPath
  | .error (.access (.refused cause) path) =>
    .ok (.failure ("cannot read '" ++ r.rom ++ "': " ++ cause.message path))
  | .error (.tooLarge fault) => .ok (.failure fault.message)
  | .ok program => r.start random program

/-- Carries out a command line, away from a terminal. The files, and the random bytes that a seed gives,
are those of the system. -/
def perform {m : Type → Type} [Monad m] (files : FileSystem m)
    (random : Option Int → m RandomSource) (args : List String) : m (Except Breakdown Outcome) := do
  match parse args with
  | .error stop => return .ok stop.outcome
  | .ok request =>
    let rom ← readRom files request.rom
    return request.carryOut (← random request.seed) rom

end Chip8.Command
