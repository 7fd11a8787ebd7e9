/-!
# Styled text

Lines made of spans, each plain or of a named style. Written out with its markup, a styled span
stands between its style's opening and closing tags.
-/

namespace Chip8

/-- A piece of a line. -/
structure Span where
  text : String
  /-- The name of the style, if the piece has one. -/
  style : Option String
  deriving Repr, DecidableEq

namespace Span

/-- A piece without a style. -/
def plain (text : String) : Span := ⟨text, none⟩

/-- A piece of a style. -/
def styled (style text : String) : Span := ⟨text, some style⟩

/-- The piece with its markup. -/
def markup (s : Span) : String :=
  match s.style with
  | none => s.text
  | some style => "[" ++ style ++ "]" ++ s.text ++ "[/" ++ style ++ "]"

end Span

/-- A line of spans. -/
abbrev StyledLine := List Span

/-- The line with its markup. -/
def StyledLine.markup (line : StyledLine) : String := String.join (line.map Span.markup)

end Chip8
