import Chip8.Proofs.Microcode

/-!
# The transitions of a machine

Everything that a step can do, one constructor for each case, with the conditions under which it
does it. `Machine.transition_iff_step` says that this is the step function, so what holds of every
step is proved by cases on its transition.
-/

namespace Chip8.Machine

/-- The next step fetches this word. -/
structure Fetches (m : Machine) (word : Nat) : Prop where
  awake : m.waiting = none
  inBounds : m.memory.InBounds m.pc 2
  word_eq : m.currentWord.toNat = word

/-- What a step comes to: the machine it leaves, and its fault. -/
inductive Transition (m : Machine) : Machine → Option Fault → Prop
  /-- Suspended on a key, the machine looks at the keypad. -/
  | poll {r} : m.waiting = some r → Transition m (m.pollKey r) none
  /-- The program counter leaves no word to fetch. -/
  | unfetched : m.waiting = none → ¬ m.memory.InBounds m.pc 2 →
      Transition m m (some (.outOfBounds m.pc 2))
  /-- The word encodes no operation. -/
  | undecoded {w} : m.Fetches w → Instruction.decode? w = none →
      Transition m m.advanced (some (.unimplementedOpcode w))
  /-- The instruction cannot be executed. -/
  | faulted {w i f} : m.Fetches w → Instruction.decode? w = some i →
      m.advanced.fault? i = some f → Transition m m.advanced (some f)
  /-- The instruction is executed. -/
  | executed {w i} : m.Fetches w → Instruction.decode? w = some i →
      m.advanced.fault? i = none → Transition m (m.advanced.execute i) none

variable {m m' : Machine} {w : Nat} {f? : Option Fault}

/-! ## Steps case by case -/

theorem step_of_waiting {r : Fin 16} (h : m.waiting = some r) : m.step = (m.pollKey r, none) := by
  simp [step, Microcode.step, Microcode.outcome, h]

theorem step_of_unfetched (awake : m.waiting = none) (h : ¬ m.memory.InBounds m.pc 2) :
    m.step = (m, some (.outOfBounds m.pc 2)) := by
  have refused : m.memory.fault? m.pc 2 = some (.outOfBounds m.pc 2) := if_neg h
  simp [step, Microcode.step, Microcode.outcome, awake, Microcode.run_fetch, refused]

/-- A step that fetches a word executes it behind the fetch. -/
theorem Fetches.step_eq (h : m.Fetches w) : m.step = m.advanced.executeWord w := by
  have access := Memory.fault?_eq_none_iff.mpr h.inBounds
  have word : (m.currentWord.toNat : Int) = w := by rw [h.word_eq]
  simp [step, executeWord, Microcode.step, Microcode.outcome, h.awake, Microcode.run_fetch, access,
    word]

/-- A fetched word has sixteen bits. -/
theorem Fetches.word_lt (h : m.Fetches w) : w < 65536 := by
  rw [← h.word_eq]
  exact m.currentWord.toNat_lt

theorem fetches_currentWord (awake : m.waiting = none) (h : m.memory.InBounds m.pc 2) :
    m.Fetches m.currentWord.toNat := ⟨awake, h, rfl⟩

/-! ## All steps -/

/-- Every step is one of the transitions. -/
theorem step_transition (m : Machine) : m.Transition m.step.1 m.step.2 := by
  cases hw : m.waiting with
  | some r =>
    rw [step_of_waiting hw]
    exact .poll hw
  | none =>
    by_cases hb : m.memory.InBounds m.pc 2
    · have fetched := fetches_currentWord hw hb
      rw [fetched.step_eq, Microcode.executeWord_eq]
      cases hd : Instruction.decode? m.currentWord.toNat with
      | none =>
        have small := fetched.word_lt
        have same : Instruction.undecoded m.currentWord.toNat =
            .unimplementedOpcode m.currentWord.toNat := by
          simp only [Instruction.undecoded, Fault.unimplementedOpcode.injEq]
          omega
        simp only [same]
        exact .undecoded fetched hd
      | some i =>
        cases hf : m.advanced.fault? i with
        | some f => simpa only [hf] using .faulted fetched hd hf
        | none => simpa only [hf] using .executed fetched hd hf
    · rw [step_of_unfetched hw hb]
      exact .unfetched hw hb

/-- The conditions of the transitions exclude one another. -/
theorem Transition.step_eq (h : m.Transition m' f?) : m.step = (m', f?) := by
  cases h with
  | poll hw => exact step_of_waiting hw
  | unfetched hw hb => exact step_of_unfetched hw hb
  | @undecoded w hw hd =>
    have small := hw.word_lt
    have same : (w % 65536 : Int).toNat = w := by omega
    rw [hw.step_eq, Microcode.executeWord_eq]
    simp [hd, Instruction.undecoded, same]
  | faulted hw hd hf => rw [hw.step_eq, Microcode.executeWord_eq]; simp [hd, hf]
  | executed hw hd hf => rw [hw.step_eq, Microcode.executeWord_eq]; simp [hd, hf]

/-- The transitions are exactly the steps. -/
theorem transition_iff_step : m.Transition m' f? ↔ m.step = (m', f?) := by
  constructor
  · exact Transition.step_eq
  · intro h
    have t := m.step_transition
    rwa [h] at t

end Chip8.Machine
