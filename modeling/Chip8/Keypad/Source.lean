import Chip8.Keypad

/-!
# Sources of key states

Where a session gets the state of the keys from, once per frame.
-/

namespace Chip8

/-- Something that tells the state of the keys and may change by being asked. -/
structure KeySource (σ : Type) where
  poll : σ → List Bool × σ

/-- The source on which no key is ever down. -/
def KeySource.idle : KeySource Unit := ⟨fun u => (Keypad.released.toList, u)⟩

end Chip8
