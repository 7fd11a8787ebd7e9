/-!
# The built-in font

Sixteen glyphs of the hexadecimal digits, five rows of eight pixels each, one byte per row. They
lie at the bottom of memory, one after another.
-/

namespace Chip8.Font

/-- Where the font lies in memory. -/
def address : Nat := 0x000

/-- The number of bytes of one glyph. -/
def glyphSize : Nat := 5

/-- The glyphs of the digits `0` to `F`. -/
def bytes : List UInt8 :=
  [ 0xF0, 0x90, 0x90, 0x90, 0xF0,
    0x20, 0x60, 0x20, 0x20, 0x70,
    0xF0, 0x10, 0xF0, 0x80, 0xF0,
    0xF0, 0x10, 0xF0, 0x10, 0xF0,
    0x90, 0x90, 0xF0, 0x10, 0x10,
    0xF0, 0x80, 0xF0, 0x10, 0xF0,
    0xF0, 0x80, 0xF0, 0x90, 0xF0,
    0xF0, 0x10, 0x20, 0x40, 0x40,
    0xF0, 0x90, 0xF0, 0x90, 0xF0,
    0xF0, 0x90, 0xF0, 0x10, 0xF0,
    0xF0, 0x90, 0xF0, 0x90, 0x90,
    0xE0, 0x90, 0xE0, 0x90, 0xE0,
    0xF0, 0x80, 0x80, 0x80, 0xF0,
    0xE0, 0x90, 0x90, 0x90, 0xE0,
    0xF0, 0x80, 0xF0, 0x80, 0xF0,
    0xF0, 0x80, 0xF0, 0x80, 0x80 ]

/-- The address of the glyph of a digit, which is taken modulo 16. -/
def glyphAddress (digit : Int) : Int := address + digit % 16 * glyphSize

end Chip8.Font
