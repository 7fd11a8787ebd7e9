import Chip8.Dialect
import Chip8.Operation

/-!
# Register-register arithmetic

The result and the flag of the operations `8xy0` to `8xyE`, as functions of the two operand bytes.
-/

namespace Chip8.Alu

/-- The byte that a shift works on. -/
def shifted (d : Dialect) (vx vy : UInt8) : UInt8 := if d.shiftsVy then vy else vx

/-- The byte that replaces `Vx`. -/
def result (d : Dialect) (vx vy : UInt8) : Alu → UInt8
  | .copy => vy
  | .or => vx ||| vy
  | .and => vx &&& vy
  | .xor => vx ^^^ vy
  | .add => vx + vy
  | .sub => vx - vy
  | .shiftRight => shifted d vx vy >>> 1
  | .subFrom => vy - vx
  | .shiftLeft => shifted d vx vy <<< 1

/-- What becomes of the flag register: a carry, a missing borrow, the bit shifted out, cleared, or
left alone. -/
def flag (d : Dialect) (vx vy : UInt8) : Alu → Option Bool
  | .copy => none
  | .or | .and | .xor => if d.logicClearsFlag then some false else none
  | .add => some (decide (255 < vx.toNat + vy.toNat))
  | .sub => some (decide (vy ≤ vx))
  | .shiftRight => some ((shifted d vx vy).toNat.testBit 0)
  | .subFrom => some (decide (vx ≤ vy))
  | .shiftLeft => some ((shifted d vx vy).toNat.testBit 7)

end Chip8.Alu
