import Chip8.CallStack.Access
import Mathlib.Data.List.DropRight

/-!
# A call stack is a bounded list

Whatever accesses a call stack went through, the addresses in use are those of a list that has room for
as many as there are slots, and the next access is served from this list alone
(`CallStack.refines_bounded_list`). A slot keeps the address that was put there last, also when it is no
longer in use: which slot a push writes to is told by the number of addresses held at its turn.
-/

namespace Chip8.CallStack

/-! ## What an access does to a list -/

namespace Access

/-- The addresses held behind an access to a list with room for `capacity` of them, the oldest first. A
push puts its value, modulo 65536, on top if there is room, and a pop takes the top off. -/
def behind (capacity : Nat) (held : List UInt16) : Access → List UInt16
  | .push address =>
    if held.length < capacity then held ++ [UInt16.ofNat (address % 65536).toNat] else held
  | .pop => held.dropLast
  | .clear => []

/-- The address that an access writes to a slot, if it writes one there: a push for which there is room
writes to the first slot above the addresses held. -/
def writes? (capacity : Nat) (held : List UInt16) (slot : Nat) : Access → Option UInt16
  | .push address =>
    if held.length < capacity ∧ slot = held.length then
      some (UInt16.ofNat (address % 65536).toNat)
    else none
  | .pop | .clear => none

end Access

/-- The addresses that a history pushed and has not popped, the oldest first, since it cleared the list
last. -/
def heldBehind (capacity : Nat) (history : List Access) : List UInt16 :=
  history.foldl (Access.behind capacity) []

/-- The accesses of a history, each with the addresses held at its turn. -/
def turns (capacity : Nat) (held : List UInt16) : List Access → List (List UInt16 × Access)
  | [] => []
  | x :: rest => (held, x) :: turns capacity (x.behind capacity held) rest

/-- The address that a history wrote last to a slot since it cleared the list last, or zero. -/
def lastWritten (capacity : Nat) (history : List Access) (slot : Nat) : UInt16 :=
  (((turns capacity [] history).rtakeWhile fun t => t.2 ≠ .clear).filterMap
    fun t => t.2.writes? capacity t.1 slot).getLast?.getD 0

/-- The stack has `capacity` slots, and the addresses in use are those held. -/
structure Holds (s : CallStack) (capacity : Nat) (held : List UInt16) : Prop where
  capacity_eq : s.capacity = capacity
  size_eq : s.slots.size = capacity
  pointer_eq : s.pointer = held.length
  length_le : held.length ≤ capacity
  live_eq : s.live = held

/-- The stack serves the next access as a list of the addresses held, with room for `capacity`, does. -/
structure Serves (s : CallStack) (capacity : Nat) (held : List UInt16) : Prop where
  /-- A push is refused exactly if the list is full, and for that. -/
  push_refused_iff : ∀ address f, (s.perform (.push address)).2 = .error f ↔
    held.length = capacity ∧ f = .stackOverflow capacity
  /-- A pop is refused exactly if the list is empty, and for that. -/
  pop_refused_iff : ∀ f, (s.perform .pop).2 = .error f ↔ held = [] ∧ f = .stackUnderflow
  /-- What is refused changes neither a slot nor the pointer. -/
  unchanged : ∀ x f, (s.perform x).2 = .error f → (s.perform x).1 = s
  pushes : ∀ address, held.length < capacity → (s.perform (.push address)).2 = .ok .done
  /-- A pop answers the last address. -/
  pops : ∀ last, held.getLast? = some last → (s.perform .pop).2 = .ok (.address last)
  clears : (s.perform .clear).2 = .ok .done

variable {s : CallStack} {capacity : Nat} {held : List UInt16}

/-! ## One access -/

theorem holds_empty (capacity : Nat) : (empty capacity).Holds capacity [] where
  capacity_eq := rfl
  size_eq := by simp [empty]
  pointer_eq := rfl
  length_le := Nat.zero_le _
  live_eq := rfl

theorem getD_empty (capacity : Int) (slot : Nat) : (empty capacity).slots.getD slot 0 = 0 := by
  rw [empty, Array.getD_eq_getD_getElem?, Array.getElem?_replicate]
  split <;> rfl

namespace Holds

theorem perform_push (h : s.Holds capacity held) (address : Int) :
    s.perform (.push address) =
      if held.length < capacity then (s.pushed address, .ok .done)
      else (s, .error (.stackOverflow capacity)) := by
  by_cases room : held.length < capacity
  · have fault : s.pushFault? = none := by
      rw [pushFault?, h.capacity_eq, h.pointer_eq]
      exact if_neg (by omega)
    rw [if_pos room, perform, push, fault]
  · have fault : s.pushFault? = some (.stackOverflow capacity) := by
      rw [pushFault?, h.capacity_eq, h.pointer_eq]
      exact if_pos (by omega)
    rw [if_neg room, perform, push, fault]

theorem perform_pop (h : s.Holds capacity held) :
    s.perform .pop =
      match held.getLast? with
      | some last => (s.popped, .ok (.address last))
      | none => (s, .error .stackUnderflow) := by
  have slots : s.pointer ≤ s.slots.size := by
    rw [h.pointer_eq, h.size_eq]
    exact h.length_le
  by_cases used : s.pointer = 0
  · have nothing : held = [] := List.length_eq_zero_iff.mp (h.pointer_eq.symm.trans used)
    rw [perform, pop, popFault?, if_pos used, nothing]
    rfl
  · have last := getLast?_live used slots
    rw [h.live_eq] at last
    rw [perform, pop, popFault?, if_neg used, last]

/-- An access does to the addresses in use what it does to the list. -/
theorem perform (h : s.Holds capacity held) (x : Access) :
    (s.perform x).1.Holds capacity (x.behind capacity held) := by
  have slots : s.slots.size = capacity := h.size_eq
  have pointer : s.pointer = held.length := h.pointer_eq
  have bound : held.length ≤ capacity := h.length_le
  cases x with
  | push address =>
    rw [h.perform_push, Access.behind]
    split
    case isTrue room =>
      constructor
      · exact h.capacity_eq
      · rw [pushed, Array.size_setIfInBounds, slots]
      · rw [pushed, List.length_append, pointer]
        rfl
      · rw [List.length_append]
        exact room
      · rw [live_pushed (by omega), h.live_eq]
        rfl
    case isFalse => exact h
  | pop =>
    rw [h.perform_pop, Access.behind]
    split
    case h_1 last found =>
      constructor
      · exact h.capacity_eq
      · exact slots
      · rw [popped, List.length_dropLast, pointer]
      · rw [List.length_dropLast]
        omega
      · rw [live_popped (by omega), h.live_eq]
    case h_2 nothing =>
      rw [List.getLast?_eq_none_iff] at nothing
      subst nothing
      exact h
  | clear =>
    have cleared : s.clear = empty capacity := congrArg empty h.capacity_eq
    rw [CallStack.perform, cleared]
    exact holds_empty capacity

/-- What an access leaves in a slot: clearing leaves zero, and any other access the address it writes
there, or what was there. -/
theorem getD_perform (h : s.Holds capacity held) (x : Access) (slot : Nat) :
    (s.perform x).1.slots.getD slot 0 =
      if x = .clear then 0 else (x.writes? capacity held slot).getD (s.slots.getD slot 0) := by
  have slots : s.slots.size = capacity := h.size_eq
  have pointer : s.pointer = held.length := h.pointer_eq
  cases x with
  | push address =>
    have other : Access.push address ≠ .clear := by simp
    rw [h.perform_push, if_neg other, Access.writes?]
    by_cases room : held.length < capacity
    · rw [if_pos room, pushed, pointer]
      by_cases here : slot = held.length
      · subst here
        rw [if_pos ⟨room, rfl⟩, Array.getD_eq_getD_getElem?,
          Array.getElem?_setIfInBounds_self_of_lt (by omega)]
        rfl
      · have elsewhere : held.length ≠ slot := Ne.symm here
        rw [if_neg fun written => here written.2, Array.getD_eq_getD_getElem?,
          Array.getElem?_setIfInBounds_ne elsewhere, ← Array.getD_eq_getD_getElem?]
        rfl
    · rw [if_neg room, if_neg fun written => room written.1]
      rfl
  | pop =>
    have other : Access.pop ≠ .clear := by simp
    rw [h.perform_pop, if_neg other]
    split <;> rfl
  | clear =>
    rw [if_pos rfl]
    exact getD_empty s.capacity slot

theorem serves (h : s.Holds capacity held) : s.Serves capacity held := by
  have bound : held.length ≤ capacity := h.length_le
  constructor
  case push_refused_iff =>
    intro address f
    rw [h.perform_push]
    by_cases room : held.length < capacity
    · have free : held.length ≠ capacity := by omega
      simp [room, free]
    · have full : held.length = capacity := by omega
      simp [full, eq_comm]
  case pop_refused_iff =>
    intro f
    rw [h.perform_pop]
    cases top : held.getLast? with
    | some last =>
      have used : held ≠ [] := by
        rintro rfl
        exact absurd top (by simp)
      simp [used]
    | none =>
      have nothing : held = [] := List.getLast?_eq_none_iff.mp top
      simp [nothing, eq_comm]
  case unchanged =>
    intro x f refused
    cases x with
    | push address =>
      rw [h.perform_push] at refused ⊢
      split at refused
      case isTrue => exact absurd refused (by simp)
      case isFalse full => rw [if_neg full]
    | pop =>
      rw [h.perform_pop] at refused ⊢
      cases top : held.getLast? with
      | some last =>
        rw [top] at refused
        exact absurd refused (by simp)
      | none => rfl
    | clear => exact absurd refused (by simp [CallStack.perform])
  case pushes =>
    intro address room
    rw [h.perform_push, if_pos room]
  case pops =>
    intro last top
    rw [h.perform_pop, top]
  case clears => rfl

end Holds

/-! ## Histories -/

theorem turns_append (capacity : Nat) (held : List UInt16) (history : List Access) (x : Access) :
    turns capacity held (history ++ [x]) =
      turns capacity held history ++ [(history.foldl (Access.behind capacity) held, x)] := by
  induction history generalizing held with
  | nil => rfl
  | cons y rest ih => rw [List.cons_append, turns, ih, List.foldl_cons, turns, List.cons_append]

/-- What is written last changes with an access as a slot does. -/
theorem lastWritten_snoc (capacity : Nat) (history : List Access) (x : Access) (slot : Nat) :
    lastWritten capacity (history ++ [x]) slot =
      if x = .clear then 0
      else (x.writes? capacity (heldBehind capacity history) slot).getD
        (lastWritten capacity history slot) := by
  unfold lastWritten
  rw [turns_append, List.rtakeWhile_concat, ← heldBehind]
  by_cases clears : x = .clear
  · simp [clears]
  · cases written : x.writes? capacity (heldBehind capacity history) slot <;> simp [clears, written]

theorem holds_after (capacity : Nat) (history : List Access) :
    ((empty capacity).after history).Holds capacity (heldBehind capacity history) := by
  induction history using List.reverseRecOn with
  | nil => exact holds_empty capacity
  | append_singleton history x ih =>
    rw [after_snoc, heldBehind, List.foldl_append]
    exact ih.perform x

theorem getD_after (capacity : Nat) (history : List Access) (slot : Nat) :
    ((empty capacity).after history).slots.getD slot 0 = lastWritten capacity history slot := by
  induction history using List.reverseRecOn with
  | nil => exact getD_empty capacity slot
  | append_singleton history x ih =>
    rw [after_snoc, (holds_after capacity history).getD_perform, lastWritten_snoc, ih]

/-- **A call stack is a bounded list.** Behind any accesses, refused ones among them, a stack has as many
slots as at first and its pointer is among them or behind the last; the addresses in use are those pushed
and not popped since it was cleared last, each modulo 65536; and each slot, in use or not, has the address
that was written to it last since then, or zero. The next push is refused exactly if all slots are in use,
and the next pop exactly if none is, and then slots and pointer stay as they are; otherwise a pop answers
the last address in use. -/
theorem refines_bounded_list (capacity : Nat) (history : List Access) :
    let s := (empty capacity).after history
    let held := heldBehind capacity history
    s.Holds capacity held ∧ s.pointer ≤ capacity ∧
      (∀ slot < capacity, s.slots[slot]? = some (lastWritten capacity history slot)) ∧
      s.Serves capacity held := by
  intro s held
  have holds : s.Holds capacity held := holds_after capacity history
  refine ⟨holds, ?pointer, ?slots, holds.serves⟩
  case pointer =>
    rw [holds.pointer_eq]
    exact holds.length_le
  case slots =>
    intro slot inside
    have there : slot < s.slots.size := by
      rw [holds.size_eq]
      exact inside
    rw [← getD_after capacity history slot, Array.getD_eq_getD_getElem?,
      Array.getElem?_eq_getElem there]
    rfl

end Chip8.CallStack
