import Chip8.Number.Numeral

/-!
# Keypad

The sixteen hexadecimal keys, each up or down.
-/

namespace Chip8

/-- The state of the keys: `true` is down. -/
abbrev Keypad := Vector Bool 16

namespace Keypad

/-- No key down. -/
def released : Keypad := Vector.replicate 16 false

/-- A key number reduced to one of the sixteen. -/
def key (k : Int) : Fin 16 := ⟨(k % 16).toNat, by omega⟩

theorem key_lt (k : Fin 16) : k.val < 16 := k.isLt

/-- Whether a key is down. -/
def isDown (keys : Keypad) (k : Int) : Bool := keys[key k]

/-- Sets one key. -/
def setKey (keys : Keypad) (k : Int) (down : Bool) : Keypad := keys.set (key k) down

/-- A number of key states other than sixteen. -/
structure WrongKeyCount where
  count : Nat
  deriving Repr, DecidableEq

/-- The text shown to the user. -/
def WrongKeyCount.message (e : WrongKeyCount) : String :=
  "Expected 16 key states, got " ++ decimal e.count

/-- The keypad of sixteen key states, `0` first. -/
def ofList (states : List Bool) : Except WrongKeyCount Keypad :=
  if h : states.length = 16 then .ok ⟨states.toArray, by simpa using h⟩
  else .error ⟨states.length⟩

/-- The lowest key that is down in `now` and was up in `before`. -/
def firstPressed? (before now : Keypad) : Option (Fin 16) :=
  (List.finRange 16).find? fun k => now.get k && !before.get k

end Keypad
end Chip8
