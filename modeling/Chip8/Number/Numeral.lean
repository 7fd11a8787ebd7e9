/-!
# Written numbers

Integers as digits in a base, and the three layouts the panels and messages use: zero padding,
blank padding and grouping by thousands. A sign always counts towards the width, and zero padding
goes between the sign and the digits.
-/

-- powers are those of the number types themselves
attribute [local instance (high)] instPowNat

namespace Chip8.Numeral

/-- The digits of `n` in `base`, most significant first; zero has one digit. A base below two has
no positional form, and then the number is its own single digit. -/
def digits (base n : Nat) : List Nat :=
  if base < 2 ∨ n < base then [n] else digits base (n / base) ++ [n % base]
termination_by n
decreasing_by
  have hb : 2 ≤ base := by omega
  have hn : 0 < n := by omega
  exact Nat.div_lt_self hn hb

/-- The character of one digit, capital letters from ten on. -/
def digitChar (d : Nat) : Char :=
  if d < 10 then Char.ofNat ('0'.toNat + d) else Char.ofNat ('A'.toNat + (d - 10))

/-- A natural number written in a base. -/
def ofNat (base n : Nat) : List Char := (digits base n).map digitChar

/-- The sign of a number, written only when it is negative. -/
def sign (v : Int) : List Char := if v < 0 then ['-'] else []

/-- Fills a text with blanks on its left up to a width. -/
def padLeft (width : Nat) (text : List Char) : List Char :=
  List.replicate (width - text.length) ' ' ++ text

/-- Fills a text with blanks on its right up to a width. -/
def padRight (width : Nat) (text : List Char) : List Char :=
  text ++ List.replicate (width - text.length) ' '

/-- A number in a base, filled with zeros up to a width that includes the sign. -/
def zeroPadded (base width : Nat) (v : Int) : List Char :=
  let body := ofNat base v.natAbs
  sign v ++ List.replicate (width - (sign v).length - body.length) '0' ++ body

/-- A comma after every third digit, counted from the right. The argument holds the digits least
significant first. -/
def groupReversed : List Char → List Char
  | a :: b :: c :: d :: rest => a :: b :: c :: ',' :: groupReversed (d :: rest)
  | short => short

/-- A decimal number with its digits grouped by thousands. -/
def grouped (v : Int) : List Char :=
  sign v ++ (groupReversed (ofNat 10 v.natAbs).reverse).reverse

/-- The most digits that a decimal number is read or written with. -/
def decimalLimit : Nat := 4300

/-- Whether a number is short enough to be written in decimal. -/
def isWritable (v : Int) : Bool := decide (v.natAbs < 10 ^ decimalLimit)

end Numeral

/-- Decimal text. -/
def decimal (v : Int) : String := String.ofList (Numeral.zeroPadded 10 0 v)

/-- Hexadecimal text with at least `width` characters, filled with zeros. -/
def hex (width : Nat) (v : Int) : String := String.ofList (Numeral.zeroPadded 16 width v)

/-- Decimal text with at least `width` characters, filled with blanks on the left. -/
def decimalPadded (width : Nat) (v : Int) : String :=
  String.ofList (Numeral.padLeft width (Numeral.zeroPadded 10 0 v))

/-- Decimal text grouped by thousands, filled with blanks on the left. -/
def decimalGrouped (width : Nat) (v : Int) : String :=
  String.ofList (Numeral.padLeft width (Numeral.grouped v))

end Chip8
