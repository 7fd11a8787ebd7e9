import Chip8.Number.Numeral
import Chip8.Text.DecimalDigit

/-!
# Written integers

Reads an integer from text: blanks around it, a sign, digits with single underscores between them.
Where a base mark is allowed, `0x`, `0o` and `0b` choose the base, an underscore may follow the
mark, and a number that begins with zero but has no mark must be zero. Digits and blanks of all
scripts count as the ASCII ones.
-/

namespace Chip8.Literal

/-- A character beyond ASCII replaced by the ASCII character it counts as; one that counts as none
becomes a question mark, which no number holds. -/
def asciiForm (c : Char) : Char :=
  if c.toNat < 128 then c
  else if isWideBlank c then ' '
  else
    match decimalDigit? c with
    | some d => Char.ofNat ('0'.toNat + d)
    | none => '?'

/-- The blanks that may stand around a number. -/
def isBlank (c : Char) : Bool := c == ' ' || (decide (9 ≤ c.toNat) && decide (c.toNat ≤ 13))

/-- The text without the blanks around it. -/
def trim (text : List Char) : List Char :=
  ((text.dropWhile isBlank).reverse.dropWhile isBlank).reverse

/-- The value of a digit or letter. -/
def digitValue? (c : Char) : Option Nat :=
  if '0' ≤ c ∧ c ≤ '9' then some (c.toNat - '0'.toNat)
  else if 'a' ≤ c ∧ c ≤ 'z' then some (c.toNat - 'a'.toNat + 10)
  else if 'A' ≤ c ∧ c ≤ 'Z' then some (c.toNat - 'A'.toNat + 10)
  else none

/-- Digits in a base, with single underscores between them. `separated` tells that the character
before was not a digit, so that a digit has to follow. Answers the digits, least significant
first. -/
def digits? (base : Nat) : Bool → List Nat → List Char → Option (List Nat)
  | separated, acc, [] => if separated then none else some acc
  | separated, acc, c :: rest =>
    if c = '_' then if separated then none else digits? base true acc rest
    else
      match digitValue? c with
      | some d => if d < base then digits? base false (d :: acc) rest else none
      | none => none

/-- An unsigned number in a base. A decimal one has a limited number of digits. -/
def magnitude? (base : Nat) (text : List Char) : Option Nat :=
  match digits? base true [] text with
  | some ds =>
    if base = 10 ∧ Numeral.decimalLimit < ds.length then none
    else some (ds.foldr (fun d n => n * base + d) 0)
  | none => none

/-- The text behind a base mark, without the underscore that may follow the mark. -/
def afterMark : List Char → List Char
  | '_' :: rest => rest
  | text => text

/-- An unsigned number whose base is told by its mark. -/
def marked? (text : List Char) : Option Nat :=
  match text with
  | '0' :: 'x' :: rest | '0' :: 'X' :: rest => magnitude? 16 (afterMark rest)
  | '0' :: 'o' :: rest | '0' :: 'O' :: rest => magnitude? 8 (afterMark rest)
  | '0' :: 'b' :: rest | '0' :: 'B' :: rest => magnitude? 2 (afterMark rest)
  | '0' :: _ => (magnitude? 10 text).filter (· = 0)
  | _ => magnitude? 10 text

/-- A number with its sign, read by the given reader of unsigned numbers. -/
def signed? (read? : List Char → Option Nat) (text : List Char) : Option Int :=
  match trim (text.map asciiForm) with
  | '-' :: rest => (read? rest).map fun (n : Nat) => -(n : Int)
  | '+' :: rest => (read? rest).map Int.ofNat
  | rest => (read? rest).map Int.ofNat

end Literal

/-- A decimal integer. -/
def readDecimal? (text : String) : Option Int := Literal.signed? (Literal.magnitude? 10) text.toList

/-- An integer in decimal, or in the base of its mark. -/
def readInteger? (text : String) : Option Int := Literal.signed? Literal.marked? text.toList

end Chip8
