import Chip8.Machine.State
import Chip8.Text.Styled

/-!
# Register panel

Four lines of four registers, column by column, and then the program counter with the index and the
stack pointer, the open calls, the timers, and the key wait if there is one. Given the register
values of an earlier moment, the registers that changed since then are highlighted.
-/

namespace Chip8.Panel

/-- The style of a register that changed. -/
def changedStyle : String := "bold yellow"

/-- The style of the line that tells of a key wait. -/
def waitingStyle : String := "bold cyan"

/-- The registers on a line of the panel. -/
def registersOnLine (line : Nat) : List Nat := (List.range 4).map fun column => line + column * 4

/-- The number and the value of a register. -/
def registerText (r : Nat) (v : UInt8) : String := "V" ++ hex 0 r ++ " 0x" ++ hex 2 v.toNat

/-- The entry of a register, highlighted if it changed. -/
def registerSpan (regs : Registers) (before : Option Registers) (r : Nat) : Span :=
  let text := registerText r (regs.read r)
  match before with
  | some old => if regs.read r = old.read r then .plain text else .styled changedStyle text
  | none => .plain text

/-- A line of four registers. -/
def registerLine (regs : Registers) (before : Option Registers) (line : Nat) : StyledLine :=
  ((registersOnLine line).map (registerSpan regs before)).intersperse (.plain "  ")

/-- The program counter, the index and the stack pointer. -/
def addressLine (m : Machine) : StyledLine :=
  [.plain ("PC 0x" ++ hex 3 m.pc ++ "  I 0x" ++ hex 3 m.index ++ "  SP " ++
    decimal m.stack.pointer)]

/-- The return addresses of the open calls, the oldest first. -/
def stackLine (m : Machine) : StyledLine :=
  match m.stack.live with
  | [] => [.plain "Stack: empty"]
  | live => [.plain ("Stack: " ++ " ".intercalate (live.map fun a => hex 3 a.toNat))]

/-- The two timers. -/
def timerLine (m : Machine) : StyledLine :=
  [.plain ("DT " ++ decimalPadded 3 m.delayTimer ++ "  ST " ++ decimalPadded 3 m.soundTimer)]

/-- The register that a key wait will fill. -/
def waitingLines (m : Machine) : List StyledLine :=
  match m.waiting with
  | some r => [[.styled waitingStyle ("Waiting for key -> V" ++ hex 0 r.val)]]
  | none => []

/-- The lines of the register panel. -/
def registerLines (m : Machine) (before : Option Registers) : List StyledLine :=
  (List.range 4).map (registerLine m.registers before) ++
    [addressLine m, stackLine m, timerLine m] ++ waitingLines m

/-- The text of the register panel, with its markup. -/
def registerMarkup (m : Machine) (before : Option Registers) : String :=
  "\n".intercalate ((registerLines m before).map StyledLine.markup)

end Chip8.Panel
