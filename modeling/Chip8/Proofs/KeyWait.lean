import Chip8.Machine.Host
import Chip8.Proofs.OpcodeTable
import Chip8.Proofs.Transition

/-!
# Waiting for a key

A machine that executes `Fx0A` is suspended until one of its steps sees a key down that was up at
the step before, whatever the host does to the keys and the timers in between
(`Machine.awaitKey_run`). The invariant of the wait is `Machine.Waits`: the keys last seen are the
keypad at the step before, and the program counter is behind the instruction.
-/

namespace Chip8

/-! ## Keys that went down -/

namespace Keypad

variable {before now : Keypad} {k : Fin 16}

/-- The key is down now and was up before. -/
def Pressed (before now : Keypad) (k : Fin 16) : Prop := now[k] = true ∧ before[k] = false

/-- The key is the lowest that is down now and was up before. -/
def FirstPressed (before now : Keypad) (k : Fin 16) : Prop :=
  Pressed before now k ∧ ∀ l < k, ¬ Pressed before now l

instance : Decidable (Pressed before now k) := inferInstanceAs (Decidable (_ ∧ _))

instance : Decidable (FirstPressed before now k) := inferInstanceAs (Decidable (_ ∧ _))

theorem pressed_iff : Pressed before now k ↔ (now[k] && !before[k]) = true := by
  rw [Bool.and_eq_true, Bool.not_eq_true']
  rfl

theorem firstPressed?_eq_none_iff :
    firstPressed? before now = none ↔ ∀ k, ¬ Pressed before now k := by
  unfold firstPressed?
  rw [List.find?_eq_none]
  constructor
  · intro h k pressed
    exact h k (List.mem_finRange k) (pressed_iff.mp pressed)
  · intro h k _ pressed
    exact h k (pressed_iff.mpr pressed)

theorem firstPressed?_eq_some_iff :
    firstPressed? before now = some k ↔ FirstPressed before now k := by
  unfold firstPressed?
  rw [List.find?_eq_some_iff_getElem, FirstPressed, pressed_iff]
  refine and_congr_right fun _ => ?_
  constructor
  · rintro ⟨i, hi, at_i, below⟩ l hl pressed
    rw [List.getElem_finRange] at at_i
    subst at_i
    have up := below l hl
    rw [List.getElem_finRange, Bool.not_eq_true'] at up
    exact absurd (up.symm.trans (pressed_iff.mp pressed)) (by decide)
  · intro h
    refine ⟨k, by simp, by simp, ?_⟩
    intro j hj
    have up := h ⟨j, by omega⟩ hj
    rw [pressed_iff, Bool.not_eq_true] at up
    rw [List.getElem_finRange, Bool.not_eq_true']
    exact up

/-- Where a key went down, there is a lowest one. -/
theorem exists_firstPressed (h : Pressed before now k) : ∃ l, FirstPressed before now l := by
  cases hf : firstPressed? before now with
  | none => exact absurd h (firstPressed?_eq_none_iff.mp hf k)
  | some l => exact ⟨l, firstPressed?_eq_some_iff.mp hf⟩

end Keypad

namespace Machine

variable {m start : Machine} {x : Fin 16} {inputs : Nat → List HostAction}

/-! ## A host that gives inputs between the steps -/

/-- The action changes the keys or lets time pass. -/
def HostAction.IsInput : HostAction → Prop
  | .press _ | .release _ | .setKeys _ | .tick => True
  | .reset | .load _ | .step | .awaitKey _ => False

instance : DecidablePred HostAction.IsInput
  | .press _ | .release _ | .setKeys _ | .tick => .isTrue trivial
  | .reset | .load _ | .step | .awaitKey _ => .isFalse id

/-- The first `n` rounds of a host. Each consists of its inputs, and a step. -/
def rounds (inputs : Nat → List HostAction) : Nat → List HostAction
  | 0 => []
  | n + 1 => rounds inputs n ++ inputs n ++ [.step]

/-- The machine after a step and `n` further ones, each with its inputs before it. -/
def afterSteps (m : Machine) (inputs : Nat → List HostAction) (n : Nat) : Machine :=
  m.step.1.after (rounds inputs n)

/-- The machine with the inputs that follow on a step and `n` further ones. -/
def beforeStep (m : Machine) (inputs : Nat → List HostAction) (n : Nat) : Machine :=
  (m.afterSteps inputs n).after (inputs n)

/-- The keypad at a step, with number `0`, and at those that follow. -/
def keysAt (m : Machine) (inputs : Nat → List HostAction) : Nat → Keypad
  | 0 => m.keys
  | n + 1 => (m.beforeStep inputs n).keys

theorem afterSteps_succ (m : Machine) (inputs : Nat → List HostAction) (n : Nat) :
    m.afterSteps inputs (n + 1) = (m.beforeStep inputs n).step.1 := by
  rw [afterSteps, rounds, after_append, after_append]
  rfl

/-- An input changes nothing but the keys and the timers. -/
theorem perform_input (m : Machine) {action : HostAction} (h : action.IsInput) :
    ∃ keys delay sound, (m.perform action).1 =
      { m with keys := keys, delayTimer := delay, soundTimer := sound } := by
  cases action with
  | tick | press _ | release _ => exact ⟨_, _, _, rfl⟩
  | setKeys states =>
    unfold perform
    cases hk : Keypad.ofList states <;> simp only [hk] <;> exact ⟨_, _, _, rfl⟩
  | reset | load _ | step | awaitKey _ => exact h.elim

theorem after_inputs (m : Machine) {history : List HostAction} (h : ∀ a ∈ history, a.IsInput) :
    ∃ keys delay sound,
      m.after history = { m with keys := keys, delayTimer := delay, soundTimer := sound } := by
  induction history generalizing m with
  | nil => exact ⟨_, _, _, rfl⟩
  | cons action rest ih =>
    obtain ⟨_, _, _, first⟩ := m.perform_input (h action List.mem_cons_self)
    obtain ⟨keys, delay, sound, last⟩ :=
      ih (m.perform action).1 fun a ha => h a (List.mem_cons_of_mem _ ha)
    refine ⟨keys, delay, sound, ?_⟩
    rw [after, List.foldl_cons]
    rw [after, first] at last
    rw [first]
    exact last

/-! ## The steps of a wait -/

/-- The first step of a wait executes `Fx0A`: it suspends the machine, and remembers the keypad. -/
theorem Fetches.step_awaitKey (h : m.Fetches (0xF00A + 256 * x)) :
    m.step = ((m.advanced.awaitKey x).recorded .awaitKey, none) := by
  have admitted : Operation.awaitKey.encoding.admits (0xF00A + 256 * x) = true := by
    refine (Encoding.admits_lowByte h.word_lt (by decide) (by decide)).mpr ?_
    omega
  have decoded := (Instruction.decode?_eq_some_iff h.word_lt
    (i := .ofWord .awaitKey (0xF00A + 256 * x))).mpr ⟨admitted, rfl⟩
  have executed := Transition.executed h decoded rfl
  have operand : (Instruction.ofWord .awaitKey (0xF00A + 256 * x)).x = (x : Nat) := by
    unfold Instruction.ofWord
    simp only
    omega
  rw [executed.step_eq, execute, effect, next]
  simp only [operand]
  rfl

/-- A look at the keypad that finds a key pressed ends the wait with the lowest one. -/
theorem pollKey_of_firstPressed {k : Fin 16} (h : Keypad.FirstPressed m.keysSeen m.keys k) :
    m.pollKey x =
      { m with
        registers := m.registers.write x k
        waiting := none
        keysSeen := Keypad.released } := by
  rw [pollKey, Keypad.firstPressed?_eq_some_iff.mpr h]

/-- A look at the keypad that finds no key pressed only remembers the keypad. -/
theorem pollKey_of_not_pressed (h : ∀ k, ¬ Keypad.Pressed m.keysSeen m.keys k) :
    m.pollKey x = { m with keysSeen := m.keys } := by
  rw [pollKey, Keypad.firstPressed?_eq_none_iff.mpr h]

/-! ## The invariant of a wait -/

/-- The machine waits for a key to put into `Vx`, behind an instruction at `start`, and has seen
the given keypad last. -/
structure Waits (start m : Machine) (x : Fin 16) (seen : Keypad) : Prop where
  waiting_eq : m.waiting = some x
  keysSeen_eq : m.keysSeen = seen
  pc_eq : m.pc = start.pc + 2

theorem Fetches.waits (h : m.Fetches (0xF00A + 256 * x)) : Waits m m.step.1 x m.keys := by
  rw [h.step_awaitKey]
  exact ⟨congrArg some (Registers.slot_fin x), rfl, rfl⟩

variable {seen : Keypad}

theorem Waits.after (h : Waits start m x seen) {history : List HostAction}
    (hi : ∀ a ∈ history, a.IsInput) : Waits start (m.after history) x seen := by
  obtain ⟨keys, delay, sound, same⟩ := m.after_inputs hi
  rw [same]
  exact ⟨h.waiting_eq, h.keysSeen_eq, h.pc_eq⟩

theorem Waits.step (h : Waits start m x seen) (quiet : ∀ k, ¬ Keypad.Pressed seen m.keys k) :
    Waits start m.step.1 x m.keys := by
  rw [← h.keysSeen_eq] at quiet
  rw [step_of_waiting h.waiting_eq, pollKey_of_not_pressed quiet]
  exact ⟨h.waiting_eq, rfl, h.pc_eq⟩

/-- No key went down between a step and the `n` that follow. -/
def Quiet (m : Machine) (inputs : Nat → List HostAction) (n : Nat) : Prop :=
  ∀ j < n, ∀ k, ¬ Keypad.Pressed (m.keysAt inputs j) (m.keysAt inputs (j + 1)) k

/-- While no key goes down the machine waits, and has seen the keypad at the last step. -/
theorem Quiet.waits (h : m.Fetches (0xF00A + 256 * x)) (hi : ∀ n, ∀ a ∈ inputs n, a.IsInput)
    {n : Nat} (quiet : m.Quiet inputs n) :
    Waits m (m.afterSteps inputs n) x (m.keysAt inputs n) := by
  induction n with
  | zero => exact h.waits
  | succ n ih =>
    -- the step compares with the keypad at the step before, which is what was seen last
    have waits := ih fun j hj => quiet j (Nat.lt_succ_of_lt hj)
    rw [afterSteps_succ]
    exact (waits.after (hi n)).step (quiet n (Nat.lt_succ_self n))

/-! ## The run of a wait -/

/-- If the machine has waited after each of some steps, no key went down before the last of them. -/
theorem quiet_of_waiting (h : m.Fetches (0xF00A + 256 * x))
    (hi : ∀ n, ∀ a ∈ inputs n, a.IsInput) {n : Nat}
    (waiting : ∀ j ≤ n, (m.afterSteps inputs j).waiting = some x) : m.Quiet inputs n := by
  induction n with
  | zero => exact fun j hj => absurd hj (Nat.not_lt_zero j)
  | succ n ih =>
    have quiet := ih fun j hj => waiting j (Nat.le_succ_of_le hj)
    intro j hj k pressed
    rcases Nat.lt_succ_iff_lt_or_eq.mp hj with earlier | rfl
    · exact quiet j earlier k pressed
    · -- the first key pressed at this step would have ended the wait
      have waits := (quiet.waits h hi).after (hi j)
      obtain ⟨l, first⟩ := Keypad.exists_firstPressed pressed
      rw [← waits.keysSeen_eq] at first
      have still := waiting (j + 1) (Nat.le_refl _)
      rw [afterSteps_succ, beforeStep, step_of_waiting waits.waiting_eq,
        pollKey_of_firstPressed first] at still
      exact absurd still (by simp)

/-- **The key wait.** After a step that executes `Fx0A`, with inputs of a host between the steps
that follow, the machine is suspended exactly as long as no key is down at a step that was up at the
one before. No step up to the first such one faults. Those before it change nothing but the keys
last seen. That one puts the lowest such key into `Vx` and ends the wait, and the next step fetches
behind the instruction. -/
theorem awaitKey_run (h : m.Fetches (0xF00A + 256 * x)) (hi : ∀ n, ∀ a ∈ inputs n, a.IsInput) :
    (∀ n, (∀ j ≤ n, (m.afterSteps inputs j).waiting = some x) ↔ m.Quiet inputs n) ∧
    ∀ n, m.Quiet inputs n →
      let before := m.beforeStep inputs n
      let after := m.afterSteps inputs (n + 1)
      before.step = (after, none) ∧
      ((∀ k, ¬ Keypad.Pressed (m.keysAt inputs n) (m.keysAt inputs (n + 1)) k) →
        after = { before with keysSeen := before.keys }) ∧
      ∀ k, Keypad.FirstPressed (m.keysAt inputs n) (m.keysAt inputs (n + 1)) k →
        after.registers.value x = k ∧
        (∀ r : Fin 16, r ≠ x → after.registers.value r = before.registers.value r) ∧
        after =
          { before with
            registers := after.registers
            waiting := none
            keysSeen := Keypad.released } ∧
        (m.beforeStep inputs (n + 1)).waiting = none ∧
        (m.beforeStep inputs (n + 1)).pc = m.pc + 2 := by
  constructor
  · intro n
    constructor
    · exact quiet_of_waiting h hi
    · intro quiet j hj
      have earlier : m.Quiet inputs j := fun i hi => quiet i (Nat.lt_of_lt_of_le hi hj)
      exact (earlier.waits h hi).waiting_eq
  · intro n quiet before after
    have waits : Waits m before x (m.keysAt inputs n) := (quiet.waits h hi).after (hi n)
    have polled : before.step = (before.pollKey x, none) := step_of_waiting waits.waiting_eq
    have stepped : after = before.pollKey x := by
      have last : after = before.step.1 := m.afterSteps_succ inputs n
      rw [last, polled]
    rw [← waits.keysSeen_eq]
    refine ⟨by rw [polled, stepped], ?_, ?_⟩
    · intro none_pressed
      rw [stepped, pollKey_of_not_pressed none_pressed]
    · intro k first
      rw [pollKey_of_firstPressed first] at stepped
      obtain ⟨_, _, _, later⟩ := after.after_inputs (hi (n + 1))
      have key := k.isLt
      refine ⟨?_, ?_, ?_, ?_, ?_⟩
      · rw [stepped, Registers.value_write, if_pos rfl]
        omega
      · intro r other
        rw [stepped, Registers.value_write, Registers.slot_fin, Registers.slot_fin,
          if_neg other.symm]
      · rw [stepped]
      · rw [beforeStep, later, stepped]
      · rw [beforeStep, later, stepped]
        exact waits.pc_eq

/-- A key that is held all the time does not end the wait. The lower of two keys that went down at
the second step does, also when another was released. -/
theorem awaitKey_run_held_key :
    let m := ((powerOn .modern .zero).load [0xF5, 0x0A]).1.press 2
    let inputs : Nat → List HostAction
      | 1 => [.release 2, .press 9, .press 4]
      | _ => []
    m.Fetches 0xF50A ∧ (∀ n, ∀ a ∈ inputs n, a.IsInput) ∧
      (m.afterSteps inputs 1).waiting = some 5 ∧
      (m.afterSteps inputs 2).registers.value 5 = 4 := by
  intro m inputs
  have fetched : m.Fetches (0xF00A + 256 * (5 : Fin 16)) := by
    have parts : m.waiting = none ∧ m.memory.InBounds m.pc 2 ∧ m.currentWord = 0xF50A := by
      decide +kernel
    exact ⟨parts.1, parts.2.1, congrArg UInt16.toNat parts.2.2⟩
  have given : ∀ n, ∀ a ∈ inputs n, a.IsInput := by
    intro n
    match n with
    | 1 => decide
    | 0 | n + 2 => exact fun a ha => absurd ha List.not_mem_nil
  have seen : (∀ k, ¬ Keypad.Pressed (m.keysAt inputs 0) (m.keysAt inputs 1) k) ∧
      Keypad.FirstPressed (m.keysAt inputs 1) (m.keysAt inputs 2) 4 := by
    decide +kernel
  have quiet : m.Quiet inputs 1 := by
    intro j hj
    obtain rfl : j = 0 := by omega
    exact seen.1
  obtain ⟨waits, steps⟩ := awaitKey_run fetched given
  exact ⟨fetched, given, (waits 1).mpr quiet 1 (Nat.le_refl 1), ((steps 1 quiet).2.2 4 seen.2).1⟩

end Machine
end Chip8
