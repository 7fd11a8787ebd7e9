import Chip8.Machine.Cycle

/-!
# What a host does to a machine

The operations with which a host drives a machine, as values, so that a history of a machine is a
list of them. A refused operation answers why, together with the state it leaves.
-/

namespace Chip8.Machine

/-- An operation of the host. -/
inductive HostAction where
  | reset
  | load (program : List UInt8)
  | step
  | tick
  | press (key : Int)
  | release (key : Int)
  | setKeys (states : List Bool)
  | awaitKey (register : Int)
  deriving Repr, DecidableEq

/-- Why an operation was refused or failed. -/
inductive HostError where
  | fault (cause : Fault)
  | keys (cause : Keypad.WrongKeyCount)
  deriving Repr, DecidableEq

/-- Carries out an operation. -/
def perform (m : Machine) : HostAction → Machine × Option HostError
  | .reset => (m.reset, none)
  | .load program => let (m, f) := m.load program; (m, f.map .fault)
  | .step => let (m, f) := m.step; (m, f.map .fault)
  | .tick => (m.tick, none)
  | .press key => (m.press key, none)
  | .release key => (m.release key, none)
  | .setKeys states =>
    match Keypad.ofList states with
    | .ok keys => ({ m with keys := keys }, none)
    | .error e => (m, some (.keys e))
  | .awaitKey register => (m.awaitKey register, none)

/-- The machine after a history, whatever was refused on the way. -/
def after (m : Machine) (history : List HostAction) : Machine :=
  history.foldl (fun m action => (m.perform action).1) m

theorem after_append (m : Machine) (first second : List HostAction) :
    m.after (first ++ second) = (m.after first).after second :=
  List.foldl_append

end Chip8.Machine
