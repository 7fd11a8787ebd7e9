import Chip8.Session.Frames

/-!
# What a host asks of a session

The calls of a host as values, so that a history of a session is a list of them. A call that is
refused, or whose frame does not run, leaves a session too.
-/

namespace Chip8.Session

/-- A call of the host. -/
inductive Action where
  | load (program : List UInt8)
  | restart
  | frame (call : FrameCall)
  /-- Frames of one timer period each, with keys from a source. -/
  | frames {σ : Type} (keys : KeySource σ) (source : σ) (count : Nat)

/-- The session that a call leaves. -/
def perform (s : Session) : Action → Session
  | .load program => (s.load program).1
  | .restart => s.restart.1
  | .frame call => (s.runFrame call.keys call.elapsed).1
  | .frames keys source count => (runFrames keys count s source).session

/-- The session after a history. -/
def after (s : Session) (actions : List Action) : Session := actions.foldl perform s

end Chip8.Session
