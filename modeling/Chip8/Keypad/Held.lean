import Chip8.Keypad.Layout
import Chip8.Keypad.Source

/-!
# Held keys

A terminal tells when a key is pressed or repeats, and never when it is released. So a key counts
as held for a number of polls after its last character arrived.
-/

namespace Chip8

/-- Keys that are held for a while after they were typed. -/
structure HeldKeys where
  /-- For how many polls a typed key is held. -/
  holdFrames : Int
  /-- For how many polls each key is still held. -/
  remaining : Vector Int 16
  /-- A quit character was typed. -/
  quitRequested : Bool
  deriving Repr, DecidableEq

namespace HeldKeys

/-- No key held. -/
def idle (holdFrames : Int) : HeldKeys := ⟨holdFrames, Vector.replicate 16 0, false⟩

/-- Takes one typed character. -/
def type (h : HeldKeys) (c : Char) : HeldKeys :=
  if Keypad.asksToQuit c then { h with quitRequested := true }
  else
    match Keypad.keyOf? c with
    | some k => { h with remaining := h.remaining.set k h.holdFrames (Keypad.key_lt k) }
    | none => h

/-- Takes typed characters. -/
def feed (h : HeldKeys) (chars : List Char) : HeldKeys := chars.foldl type h

/-- The keys held now, with one poll used up. -/
def poll (h : HeldKeys) : Keypad × HeldKeys :=
  (h.remaining.map fun r => decide (0 < r),
    { h with remaining := h.remaining.map fun r => max (r - 1) 0 })

/-- Held keys as a source of key states. -/
def source : KeySource HeldKeys where
  poll h := let (keys, h) := h.poll; (keys.toList, h)

end HeldKeys
end Chip8
