import Chip8.Number.Numeral

/-!
# Faults

The five conditions that stop the machine. A fault carries the numbers that its message shows, and
nothing else about the state it arose in.
-/

namespace Chip8

/-- Why loading a program or executing an instruction failed. -/
inductive Fault where
  /-- A program of `size` bytes does not fit in the `capacity` bytes above the load address. -/
  | programTooLarge (size capacity : Nat)
  /-- An access to `width` bytes from `address` leaves the memory. -/
  | outOfBounds (address width : Int)
  /-- A call with all `capacity` stack slots in use. -/
  | stackOverflow (capacity : Int)
  /-- A return with no call open. -/
  | stackUnderflow
  /-- An instruction word that encodes no operation. -/
  | unimplementedOpcode (word : Nat)
  deriving Repr, DecidableEq

/-- The text shown to the user. -/
def Fault.message : Fault → String
  | .programTooLarge size capacity =>
    "Program too large: " ++ decimal size ++ " bytes (capacity " ++ decimal capacity ++ " bytes)"
  | .outOfBounds address width =>
    "Access out of bounds: 0x" ++ hex 4 address ++ " (width " ++ decimal width ++ ")"
  | .stackOverflow capacity => "Stack overflow: call depth exceeds " ++ decimal capacity
  | .stackUnderflow => "Stack underflow: return with empty stack"
  | .unimplementedOpcode word => "Unimplemented opcode: 0x" ++ hex 4 word

end Chip8
