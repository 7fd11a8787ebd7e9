import Chip8.Fault

/-!
# Call stack

Return addresses in a fixed number of slots. The slots below the pointer are in use; those from
the pointer on keep the value last written to them.
-/

namespace Chip8

/-- A stack of return addresses. -/
structure CallStack where
  capacity : Int
  slots : Array UInt16
  pointer : Nat
  deriving Repr, DecidableEq

namespace CallStack

/-- A stack with no address on it and every slot zero. -/
def empty (capacity : Int) : CallStack := ⟨capacity, Array.replicate capacity.toNat 0, 0⟩

/-- The fault of a push, if all slots are in use. -/
def pushFault? (s : CallStack) : Option Fault :=
  if s.capacity ≤ s.pointer then some (.stackOverflow s.capacity) else none

/-- The stack with a return address, taken modulo 65536, put on it. -/
def pushed (s : CallStack) (address : Int) : CallStack :=
  { s with
    slots := s.slots.setIfInBounds s.pointer (UInt16.ofInt address)
    pointer := s.pointer + 1 }

/-- The fault of a pop, if no slot is in use. -/
def popFault? (s : CallStack) : Option Fault :=
  if s.pointer = 0 then some .stackUnderflow else none

/-- The most recent return address. -/
def top (s : CallStack) : UInt16 := s.slots.getD (s.pointer - 1) 0

/-- The stack with its most recent return address taken off. The slot keeps the value. -/
def popped (s : CallStack) : CallStack := { s with pointer := s.pointer - 1 }

/-- Puts a return address on the stack. -/
def push (s : CallStack) (address : Int) : Except Fault CallStack :=
  match s.pushFault? with
  | some f => .error f
  | none => .ok (s.pushed address)

/-- Takes the most recent return address off the stack. -/
def pop (s : CallStack) : Except Fault (UInt16 × CallStack) :=
  match s.popFault? with
  | some f => .error f
  | none => .ok (s.top, s.popped)

/-- Zeroes every slot and empties the stack. -/
def clear (s : CallStack) : CallStack := empty s.capacity

/-- The addresses in use, the oldest first. -/
def live (s : CallStack) : List UInt16 := s.slots.toList.take s.pointer

/-! ## The addresses in use -/

variable {s : CallStack}

theorem length_live (h : s.pointer ≤ s.slots.size) : s.live.length = s.pointer := by
  rw [live, List.length_take, Array.length_toList]
  omega

/-- A push goes on top, whatever was left in the slot. -/
theorem live_pushed (h : s.pointer < s.slots.size) (address : Int) :
    (s.pushed address).live = s.live ++ [UInt16.ofInt address] := by
  have written : (s.slots.toList.set s.pointer (UInt16.ofInt address))[s.pointer]? =
      some (UInt16.ofInt address) := List.getElem?_set_self (by simpa using h)
  simp only [live, pushed, Array.toList_setIfInBounds, List.take_add_one, written,
    List.take_set_of_le (Nat.le_refl _), Option.toList_some]

theorem live_popped (h : s.pointer ≤ s.slots.size) : s.popped.live = s.live.dropLast := by
  have fewer : min (s.pointer - 1) s.pointer = s.pointer - 1 := Nat.min_eq_left (Nat.sub_le ..)
  rw [List.dropLast_eq_take, length_live h, live, live, List.take_take, fewer]
  rfl

/-- A return goes to the last address in use. -/
theorem getLast?_live (used : s.pointer ≠ 0) (h : s.pointer ≤ s.slots.size) :
    s.live.getLast? = some s.top := by
  have within : s.pointer - 1 < s.slots.size := by omega
  rw [live, List.getLast?_take, if_neg used, top, Array.getElem?_toList,
    Array.getElem?_eq_getElem within, Array.getD_eq_getD_getElem?, Array.getElem?_eq_getElem within]
  rfl

end CallStack
end Chip8
