/-!
# Screen panel

The display as text. A character shows two pixels, one above the other, so a line of text shows two
rows of pixels. An odd last row is paired with unlit pixels.
-/

namespace Chip8.Panel

/-- The character that shows a pixel above another. -/
def halfBlock : Bool → Bool → Char
  | false, false => ' '
  | true, false => '▀'
  | false, true => '▄'
  | true, true => '█'

/-- The pixels that a character shows. -/
def halfBlockPixels? : Char → Option (Bool × Bool)
  | ' ' => some (false, false)
  | '▀' => some (true, false)
  | '▄' => some (false, true)
  | '█' => some (true, true)
  | _ => none

/-- The line of a row of pixels above another, as long as the shorter of them. -/
def halfBlockLine (top bottom : List Bool) : List Char := List.zipWith halfBlock top bottom

/-- The lines that show rows of pixels. -/
def screenLines : List (List Bool) → List (List Char)
  | [] => []
  | [top] => [halfBlockLine top (top.map fun _ => false)]
  | top :: bottom :: rest => halfBlockLine top bottom :: screenLines rest

/-- The style of the screen. -/
def screenStyle : String := "bright_green"

/-- The text of the screen panel. -/
def screenText (rows : List (List Bool)) : String :=
  "\n".intercalate ((screenLines rows).map String.ofList)

end Chip8.Panel
