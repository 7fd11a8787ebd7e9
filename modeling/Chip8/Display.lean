/-!
# Display

A grid of lit and unlit pixels, stored row after row. A sprite is drawn by flipping the pixels
under its set bits; columns and rows wrap around both edges. The sizes of a grid are signed, and
one whose width and height are both negative has pixels too, which are counted backwards.
-/

namespace Chip8

/-- A sprite: one byte per row, the most significant bit leftmost. -/
abbrev Sprite := List UInt8

/-- The columns of the set bits of a sprite row, left to right. -/
def Sprite.columns (row : UInt8) : List Nat :=
  (List.range 8).filter fun c => row.toNat.testBit (7 - c)

/-- The (column, row) pairs of the set bits of a sprite, row after row. -/
def Sprite.points (sprite : Sprite) : List (Nat × Nat) :=
  sprite.zipIdx.flatMap fun (row, r) => (columns row).map fun c => (c, r)

/-- A monochrome pixel grid. -/
structure Display where
  width : Int
  height : Int
  pixels : Array Bool
  deriving Repr, DecidableEq

/-- Why a grid has no pixel at a position. -/
inductive PositionError where
  /-- The grid has no columns or no rows to wrap around to. -/
  | noExtent
  /-- The grid has no pixels, because just one of its sizes is negative. -/
  | noPixels
  deriving Repr, DecidableEq

namespace Display

/-- A grid with every pixel unlit. -/
def blank (width height : Int) : Display :=
  ⟨width, height, Array.replicate (width * height).toNat false⟩

/-- How far the pixel at a column and row is from the first one. Both are taken modulo the grid's
size, so they have its sign. -/
def offset (d : Display) (x y : Int) : Int := y.fmod d.height * d.width + x.fmod d.width

/-- The index of the pixel at a column and row. An offset below zero counts back from the end. -/
def cell (d : Display) (x y : Int) : Nat :=
  let o := d.offset x y
  (if o < 0 then d.pixels.size + o else o).toNat

/-- Whether the pixel at a column and row is lit. -/
def get (d : Display) (x y : Int) : Bool := d.pixels.getD (d.cell x y) false

/-- Unlights every pixel. -/
def clear (d : Display) : Display := { d with pixels := d.pixels.map fun _ => false }

/-- Lights every pixel. -/
def fill (d : Display) : Display := { d with pixels := d.pixels.map fun _ => true }

/-- Flips the pixels at the given indices one after another. The flag tells whether a pixel, then
or before, was lit when its turn came. -/
def flipAll (pixels : Array Bool) (collided : Bool) : List Nat → Array Bool × Bool
  | [] => (pixels, collided)
  | i :: rest =>
    let lit := pixels.getD i false
    flipAll (pixels.setIfInBounds i !lit) (collided || lit) rest

/-- The indices of the pixels under a sprite's set bits, in drawing order. -/
def touched (d : Display) (x y : Int) (sprite : Sprite) : List Nat :=
  sprite.points.map fun (c, r) => d.cell (x + c) (y + r)

/-- Draws a sprite with its top left corner at a column and row, and tells whether a lit pixel was
turned off. -/
def draw (d : Display) (x y : Int) (sprite : Sprite) : Display × Bool :=
  let (pixels, collided) := flipAll d.pixels false (d.touched x y sprite)
  ({ d with pixels := pixels }, collided)

/-- Why there are no pixels to look at, if there are none. -/
def positionError? (d : Display) : Option PositionError :=
  if d.width = 0 ∨ d.height = 0 then some .noExtent
  else if d.width * d.height < 0 then some .noPixels
  else none

/-- Why a sprite cannot be drawn. Its rows need rows of the grid, and its set bits need pixels. -/
def drawError? (d : Display) (sprite : Sprite) : Option PositionError :=
  if sprite.isEmpty then none
  else if d.height = 0 then some .noExtent
  else if sprite.points.isEmpty then none
  else d.positionError?

/-- The pixels row by row, top to bottom. -/
def rows (d : Display) : List (List Bool) :=
  let width := d.width.toNat
  (List.range d.height.toNat).map fun r => (d.pixels.extract (r * width) ((r + 1) * width)).toList

/-- The number of lit pixels. -/
def litCount (d : Display) : Nat := d.pixels.count true

@[simp] theorem size_flipAll (pixels : Array Bool) (collided : Bool) (touched : List Nat) :
    (flipAll pixels collided touched).1.size = pixels.size := by
  induction touched generalizing pixels collided with
  | nil => rfl
  | cons i rest ih => rw [flipAll, ih, Array.size_setIfInBounds]

end Display
end Chip8
