import Chip8.Number.Numeral
import Chip8.Number.Rounding

/-!
# Binary floating point of 64 bits

IEEE 754 binary64 in exact integer arithmetic. A finite number is a sign and a count of units of
`2 ^ -1074`, the smallest positive number; so every finite number is an integer here, and an
operation computes the exact result and then rounds it once, to 53 significant bits, ties to even.
-/

-- powers are those of `Nat` itself, whatever is imported, and a written exponent tells its type for that
attribute [local instance (high)] instPowNat

namespace Chip8

/-- Why a number has no value of the asked kind. -/
inductive NumberError where
  /-- A NaN has no integer part. -/
  | notANumber
  /-- The number is infinite, or too large for the format. -/
  | tooLarge
  deriving Repr, DecidableEq

/-- A floating point number. All NaNs are one. -/
inductive Binary64 where
  | nan
  | infinite (negative : Bool)
  | finite (negative : Bool) (units : Nat)
  deriving Repr, DecidableEq

namespace Binary64

/-- The number of units in one. -/
def unitsPerOne : Nat := 2 ^ (1074 : Nat)

/-- The first count of units that is beyond every finite number. -/
def unitsLimit : Nat := 2 ^ (2098 : Nat)

/-- Rounds `num / den` units to 53 significant bits; below `2 ^ 53` every count of units is a
number. -/
def roundUnits (num den : Nat) : Nat :=
  let step := 2 ^ ((num / den).log2 - 52)
  roundHalfEven num (den * step) * step

/-- The number nearest to `num / den` units with the given sign. -/
def ofUnits (negative : Bool) (num den : Nat) : Binary64 :=
  let units := roundUnits num den
  if units < unitsLimit then .finite negative units else .infinite negative

/-- Zero. -/
def zero : Binary64 := .finite false 0

/-- The signed count of units of a finite number; zero for the others. -/
def signedUnits : Binary64 → Int
  | .finite negative units => if negative then -(units : Int) else units
  | _ => 0

/-- The negative. -/
def neg : Binary64 → Binary64
  | .nan => .nan
  | .infinite negative => .infinite !negative
  | .finite negative units => .finite (!negative) units

/-- The sum. Two zeros of negative sign add up to one of negative sign; any other sum of value zero
is positive. -/
def add : Binary64 → Binary64 → Binary64
  | .nan, _ => .nan
  | _, .nan => .nan
  | .infinite a, .infinite b => if a = b then .infinite a else .nan
  | .infinite a, .finite _ _ => .infinite a
  | .finite _ _, .infinite b => .infinite b
  | .finite a m, .finite b n =>
    let sum := signedUnits (.finite a m) + signedUnits (.finite b n)
    if sum = 0 then .finite (a && b) 0 else ofUnits (decide (sum < 0)) sum.natAbs 1

/-- The difference. -/
def sub (x y : Binary64) : Binary64 := add x (neg y)

/-- The product. -/
def mul : Binary64 → Binary64 → Binary64
  | .nan, _ => .nan
  | _, .nan => .nan
  | .infinite a, .infinite b => .infinite (a != b)
  | .infinite a, .finite b n => if n = 0 then .nan else .infinite (a != b)
  | .finite a m, .infinite b => if m = 0 then .nan else .infinite (a != b)
  | .finite a m, .finite b n => ofUnits (a != b) (m * n) unitsPerOne

/-- Strictly less, as numbers: the two zeros are equal, and a NaN is less than nothing. -/
def less : Binary64 → Binary64 → Bool
  | .nan, _ => false
  | _, .nan => false
  | .infinite a, .infinite b => a && !b
  | .infinite a, .finite _ _ => a
  | .finite _ _, .infinite b => !b
  | .finite a m, .finite b n =>
    decide (signedUnits (.finite a m) < signedUnits (.finite b n))

/-- A number, unless it overflowed. -/
def checked : Binary64 → Except NumberError Binary64
  | .infinite _ => .error .tooLarge
  | x => .ok x

/-- The number nearest to an integer. -/
def ofInt (v : Int) : Except NumberError Binary64 :=
  checked (ofUnits (decide (v < 0)) (v.natAbs * unitsPerOne) 1)

/-- The number nearest to the quotient of two integers, the second of them not zero. -/
def ratio (a b : Int) : Except NumberError Binary64 :=
  checked (ofUnits (decide (a < 0) != decide (b < 0)) (a.natAbs * unitsPerOne) b.natAbs)

/-- The integer part: what remains when the fraction is dropped. -/
def whole : Binary64 → Except NumberError Int
  | .nan => .error .notANumber
  | .infinite _ => .error .tooLarge
  | .finite negative units =>
    let n : Int := (units / unitsPerOne : Nat)
    .ok (if negative then -n else n)

/-- The difference of a number and an integer that is itself a number of the format. -/
def subInt (x : Binary64) (v : Int) : Binary64 :=
  sub x (ofUnits (decide (v < 0)) (v.natAbs * unitsPerOne) 1)

/-! ## The encoding in 64 bits -/

/-- The number of a bit pattern. -/
def ofBits (bits : Nat) : Binary64 :=
  let negative := bits.testBit 63
  let exponent := bits / 2 ^ (52 : Nat) % 2048
  let fraction := bits % 2 ^ (52 : Nat)
  if exponent = 2047 then if fraction = 0 then .infinite negative else .nan
  else if exponent = 0 then .finite negative fraction
  else .finite negative ((2 ^ (52 : Nat) + fraction) * 2 ^ (exponent - 1))

/-- The bit pattern of a number. A NaN is the quiet one of positive sign. -/
def toBits : Binary64 → Nat
  | .nan => 2047 * 2 ^ (52 : Nat) + 2 ^ (51 : Nat)
  | .infinite negative => (if negative then 2 ^ (63 : Nat) else 0) + 2047 * 2 ^ (52 : Nat)
  | .finite negative units =>
    let sign := if negative then 2 ^ (63 : Nat) else 0
    if units < 2 ^ (52 : Nat) then sign + units
    else
      let exponent := units.log2 - 52
      sign + exponent * 2 ^ (52 : Nat) + units / 2 ^ exponent

/-! ## Decimal text with fixed places -/

/-- Decimal text with a fixed number of places. The last place is rounded from the exact value,
ties to even, and without places there is no point. -/
def fixed (places : Nat) : Binary64 → List Char
  | .nan => ['n', 'a', 'n']
  | .infinite negative => (if negative then ['-'] else []) ++ ['i', 'n', 'f']
  | .finite negative units =>
    let ds := Numeral.zeroPadded 10 (places + 1) (roundHalfEven (units * 10 ^ places) unitsPerOne)
    let whole := ds.take (ds.length - places)
    let fraction := ds.drop (ds.length - places)
    (if negative then ['-'] else []) ++ whole ++ (if places = 0 then [] else '.' :: fraction)

end Binary64
end Chip8
