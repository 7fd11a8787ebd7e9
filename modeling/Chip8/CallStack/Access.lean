import Chip8.CallStack

/-!
# Accesses to a call stack

The accesses to a call stack as values, so that what a stack goes through is a list of them. An access
that is refused answers its fault and leaves the stack as it was.
-/

namespace Chip8.CallStack

/-- An access to a call stack. -/
inductive Access where
  | push (address : Int)
  | pop
  | clear
  deriving Repr, DecidableEq

/-- What an access answers. -/
inductive Answer where
  | address (value : UInt16)
  | done
  deriving Repr, DecidableEq

/-- Carries out an access. -/
def perform (s : CallStack) : Access → CallStack × Except Fault Answer
  | .push address =>
    match s.push address with
    | .ok s' => (s', .ok .done)
    | .error f => (s, .error f)
  | .pop =>
    match s.pop with
    | .ok (address, s') => (s', .ok (.address address))
    | .error f => (s, .error f)
  | .clear => (s.clear, .ok .done)

/-- The stack after some accesses, whatever was refused on the way. -/
def after (s : CallStack) (history : List Access) : CallStack :=
  history.foldl (fun s x => (s.perform x).1) s

theorem after_snoc (s : CallStack) (history : List Access) (x : Access) :
    s.after (history ++ [x]) = ((s.after history).perform x).1 := by
  rw [after, List.foldl_append]
  rfl

end Chip8.CallStack
