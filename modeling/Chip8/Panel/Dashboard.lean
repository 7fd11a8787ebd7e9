import Chip8.Panel.Registers
import Chip8.Panel.Screen
import Chip8.Panel.Statistics
import Chip8.Session

/-!
# Dashboard

The four panels that show a session: the screen, the registers, the statistics and the status.
-/

namespace Chip8

/-- A panel's title and text. -/
structure Panel where
  title : String
  text : String
  deriving Repr, DecidableEq

/-- What a player sees. -/
structure Dashboard where
  screen : Panel
  registers : Panel
  statistics : Panel
  status : Panel
  deriving Repr, DecidableEq

namespace Panel

/-- How many operations the dashboard lists one by one. -/
def dashboardLimit : Int := 5

/-- The style of the fault that halted a session. -/
def faultStyle : String := "bold red"

/-- The help that the status shows when there is no message. -/
def keyHelp : String := "Keys: 1234/QWER/ASDF/ZXCV  |  Esc: quit"

/-- What the session is doing. -/
def runState (s : Session) : Span :=
  match s.fault with
  | some f => .styled faultStyle ("FAULT: " ++ f.message)
  | none => .plain (if s.machine.waiting.isSome then "WAITING FOR KEY" else "RUNNING")

/-- Why a session is not drawn. -/
inductive DrawingError where
  /-- There is no statistics panel. -/
  | statistics (cause : StatisticsError)
  /-- A count of the status panel is too long to be written. -/
  | unwritable
  deriving Repr, DecidableEq

/-- A count in the status panel. -/
def statusCount (count : Nat) : Except DrawingError String :=
  if Numeral.isWritable count then .ok (decimal count) else .error .unwritable

/-- The text of the status panel. -/
def statusText (s : Session) (message : String) : Except DrawingError String := do
  let cycles ← statusCount s.machine.cycles
  let frames ← statusCount s.frames
  return "Cycles: " ++ cycles ++ "  |  Frames: " ++ frames ++
    "  |  State: " ++ (runState s).markup ++ "  " ++
    (if s.machine.soundActive then "♪" else " ") ++ "\n" ++
    (if message.isEmpty then keyHelp else message)

end Panel

/-- The dashboard of a session. Registers that differ from the earlier values are highlighted, and
an empty message leaves the key help in its place. -/
def Session.dashboard (s : Session) (before : Option Registers) (message : String) :
    Except Panel.DrawingError Dashboard :=
  match Panel.statisticsText (Panel.entriesOf s.machine.tally) Panel.dashboardLimit with
  | .error e => .error (.statistics e)
  | .ok statistics =>
    match Panel.statusText s message with
    | .error e => .error e
    | .ok status => .ok
      { screen := ⟨"CHIP-8", Panel.screenText s.machine.display.rows⟩
        registers := ⟨"Registers", Panel.registerMarkup s.machine before⟩
        statistics := ⟨"Instruction Statistics", statistics⟩
        status := ⟨"Status", status⟩ }

end Chip8
