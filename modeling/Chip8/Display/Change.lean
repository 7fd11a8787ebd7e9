import Chip8.Display

/-!
# Changes of a display

What changes the pixels of a grid, as values, so that what can be on a grid is what a list of changes
leaves of a blank one.
-/

namespace Chip8.Display

/-- A change of a grid. -/
inductive Change where
  | draw (x y : Int) (sprite : Sprite)
  | fill
  | clear
  deriving Repr, DecidableEq

/-- Carries out a change. A sprite that the grid has no pixels for is refused and changes nothing. -/
def perform (d : Display) : Change → Display
  | .draw x y sprite =>
    match d.drawError? sprite with
    | some _ => d
    | none => (d.draw x y sprite).1
  | .fill => d.fill
  | .clear => d.clear

/-- The grid after some changes, whatever was refused on the way. -/
def after (d : Display) (history : List Change) : Display := history.foldl perform d

end Chip8.Display
