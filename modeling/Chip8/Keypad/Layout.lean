/-!
# Keyboard layout

Which characters of a keyboard stand for the sixteen keys. Capital letters count as small ones;
the layout holds ASCII characters only, and no other character has one of them as its small form.
-/

namespace Chip8.Keypad

/-- The characters with their keys, as they lie on the keyboard. -/
def layout : List (Char × Fin 16) :=
  [ ('1', 0x1), ('2', 0x2), ('3', 0x3), ('4', 0xC),
    ('q', 0x4), ('w', 0x5), ('e', 0x6), ('r', 0xD),
    ('a', 0x7), ('s', 0x8), ('d', 0x9), ('f', 0xE),
    ('z', 0xA), ('x', 0x0), ('c', 0xB), ('v', 0xF) ]

/-- The key of a character. -/
def keyOf? (c : Char) : Option (Fin 16) := layout.lookup c.toLower

/-- Escape and Ctrl-C ask to quit. -/
def asksToQuit (c : Char) : Bool := c == '\x1b' || c == '\x03'

end Chip8.Keypad
