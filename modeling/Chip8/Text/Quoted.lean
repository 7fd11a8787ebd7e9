import Chip8.Number.Numeral
import Chip8.Text.Printable

/-!
# Quoted text

How messages quote what a user wrote. The text stands between single quotes, or between double
quotes if it holds a single quote and no double one; the quote itself and the backslash are escaped
by a backslash, and a character that is not printable by its code point.
-/

namespace Chip8.Quoted

/-- A number in hexadecimal with small letters, filled with zeros up to a width. -/
def code (width n : Nat) : List Char := (Numeral.zeroPadded 16 width n).map Char.toLower

/-- A character as it is written between quotes of the given kind. -/
def escape (quote c : Char) : List Char :=
  if c = quote ∨ c = '\\' then ['\\', c]
  else if c = '\t' then ['\\', 't']
  else if c = '\n' then ['\\', 'n']
  else if c = '\r' then ['\\', 'r']
  else if isPrintable c then [c]
  else if c.toNat ≤ 0xFF then '\\' :: 'x' :: code 2 c.toNat
  else if c.toNat ≤ 0xFFFF then '\\' :: 'u' :: code 4 c.toNat
  else '\\' :: 'U' :: code 8 c.toNat

/-- The kind of quotes for a text. -/
def quoteFor (text : List Char) : Char :=
  if '\'' ∈ text ∧ '"' ∉ text then '"' else '\''

end Quoted

/-- The text in quotes. -/
def quoted (text : String) : String :=
  let quote := Quoted.quoteFor text.toList
  String.ofList (quote :: text.toList.flatMap (Quoted.escape quote) ++ [quote])

end Chip8
