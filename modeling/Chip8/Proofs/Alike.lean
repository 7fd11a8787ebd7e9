import Chip8.Machine.Intervention
import Chip8.Proofs.History
import Chip8.Session.Frames

/-!
# Machines that cannot be told apart

Two machines are alike if they differ in their random sources only, and these have the same bytes
left. Whatever a host does to both of them, and whatever frames it runs, it gets the same answers, and
the machines stay alike (`Machine.Alike.intervened`, `Session.Alike.answerAt_eq`).
-/

namespace Chip8
namespace Machine

/-- The machines differ at most in how their random sources are told, not in the bytes left. -/
def Alike (a b : Machine) : Prop :=
  ∃ random : RandomSource, random.remaining = a.random.remaining ∧ b = { a with random := random }

namespace Alike

variable {a b : Machine}

/-! ## Instructions -/

theorem fault?_eq (h : Alike a b) (i : Instruction) : b.fault? i = a.fault? i := by
  obtain ⟨random, -, rfl⟩ := h
  rfl

theorem next_eq (h : Alike a b) (i : Instruction) : b.next i = a.next i := by
  obtain ⟨random, -, rfl⟩ := h
  rfl

/-- Only `Cxkk` looks at the random source. -/
theorem effect (h : Alike a b) (i : Instruction) : Alike (a.effect i) (b.effect i) := by
  obtain ⟨random, same, rfl⟩ := h
  rw [effect_eq, effect_eq]
  cases i.operation
  case random =>
    have byte : random.next = a.random.next := by
      rw [RandomSource.next_eq, RandomSource.next_eq, same]
    have rest : random.rest.remaining = a.random.rest.remaining := by
      funext n
      rw [RandomSource.remaining_rest, RandomSource.remaining_rest, same]
    refine ⟨random.rest, rest, ?_⟩
    simp only [byte]
    rfl
  all_goals exact ⟨random, same, rfl⟩

theorem execute (h : Alike a b) (i : Instruction) : Alike (a.execute i) (b.execute i) := by
  have next := h.next_eq i
  obtain ⟨random, same, effect⟩ := h.effect i
  refine ⟨random, same, ?_⟩
  unfold Machine.execute
  rw [effect, next]
  rfl

/-! ## Steps -/

theorem pollKey (h : Alike a b) (r : Fin 16) : Alike (a.pollKey r) (b.pollKey r) := by
  obtain ⟨random, same, rfl⟩ := h
  unfold Machine.pollKey
  cases Keypad.firstPressed? a.keysSeen a.keys
  · exact ⟨random, same, rfl⟩
  · exact ⟨random, same, rfl⟩

theorem advanced (h : Alike a b) : Alike a.advanced b.advanced := by
  obtain ⟨random, same, rfl⟩ := h
  exact ⟨random, same, rfl⟩

theorem fetches (h : Alike a b) {w : Nat} (fetched : a.Fetches w) : b.Fetches w := by
  obtain ⟨random, -, rfl⟩ := h
  exact ⟨fetched.awake, fetched.inBounds, fetched.word_eq⟩

theorem step (h : Alike a b) : b.step.2 = a.step.2 ∧ Alike a.step.1 b.step.1 := by
  have transition := a.step_transition
  generalize a.step.1 = after, a.step.2 = f? at transition ⊢
  cases transition with
  | @poll r hw =>
    have waiting : b.waiting = some r := by
      obtain ⟨random, -, rfl⟩ := h
      exact hw
    rw [step_of_waiting waiting]
    exact ⟨rfl, h.pollKey r⟩
  | unfetched hw hb =>
    have stepped : b.step = (b, some (.outOfBounds a.pc 2)) := by
      obtain ⟨random, -, rfl⟩ := h
      exact step_of_unfetched hw hb
    rw [stepped]
    exact ⟨rfl, h⟩
  | undecoded hw hd =>
    rw [(Transition.undecoded (h.fetches hw) hd).step_eq]
    exact ⟨rfl, h.advanced⟩
  | faulted hw hd hf =>
    rw [← h.advanced.fault?_eq] at hf
    rw [(Transition.faulted (h.fetches hw) hd hf).step_eq]
    exact ⟨rfl, h.advanced⟩
  | executed hw hd hf =>
    rw [← h.advanced.fault?_eq] at hf
    rw [(Transition.executed (h.fetches hw) hd hf).step_eq]
    exact ⟨rfl, h.advanced.execute _⟩

/-! ## Interventions -/

theorem reset (h : Alike a b) : Alike a.reset b.reset := by
  obtain ⟨random, same, rfl⟩ := h
  unfold Machine.reset
  exact ⟨random, same, rfl⟩

theorem withProgram (h : Alike a b) (program : List UInt8) :
    Alike (a.withProgram program) (b.withProgram program) := by
  obtain ⟨random, same, rfl⟩ := h
  exact ⟨random, same, rfl⟩

theorem load (h : Alike a b) (program : List UInt8) :
    (b.load program).2 = (a.load program).2 ∧ Alike (a.load program).1 (b.load program).1 := by
  unfold Machine.load
  by_cases large : programCapacity < program.length
  · simp only [if_pos large]
    exact ⟨trivial, h.reset⟩
  · simp only [if_neg large]
    exact ⟨trivial, h.reset.withProgram program⟩

theorem perform (h : Alike a b) (action : HostAction) :
    (b.perform action).2 = (a.perform action).2 ∧
      Alike (a.perform action).1 (b.perform action).1 := by
  cases action with
  | load program =>
    obtain ⟨error, alike⟩ := h.load program
    exact ⟨congrArg (Option.map HostError.fault) error, alike⟩
  | step =>
    obtain ⟨fault, alike⟩ := h.step
    exact ⟨congrArg (Option.map HostError.fault) fault, alike⟩
  | setKeys states =>
    obtain ⟨random, same, rfl⟩ := h
    simp only [Machine.perform]
    cases Keypad.ofList states
    · exact ⟨rfl, random, same, rfl⟩
    · exact ⟨rfl, random, same, rfl⟩
  | reset => exact ⟨rfl, h.reset⟩
  | tick | press _ | release _ | awaitKey _ =>
    obtain ⟨random, same, rfl⟩ := h
    exact ⟨rfl, random, same, rfl⟩

theorem executeWord (h : Alike a b) (word : Int) :
    (b.executeWord word).2 = (a.executeWord word).2 ∧
      Alike (a.executeWord word).1 (b.executeWord word).1 := by
  rw [Microcode.executeWord_eq, Microcode.executeWord_eq]
  cases Instruction.decode? word with
  | none => exact ⟨rfl, h⟩
  | some i =>
    simp only [h.fault?_eq]
    cases a.fault? i with
    | some f => exact ⟨rfl, h⟩
    | none => exact ⟨rfl, h.execute i⟩

theorem intervene (h : Alike a b) (i : Intervention) :
    (b.intervene i).2 = (a.intervene i).2 ∧ Alike (a.intervene i).1 (b.intervene i).1 := by
  cases i with
  | act action =>
    obtain ⟨error, alike⟩ := h.perform action
    exact ⟨congrArg Answer.ofError? error, alike⟩
  | executeWord word =>
    obtain ⟨fault, alike⟩ := h.executeWord word
    exact ⟨congrArg (Answer.ofError? ∘ Option.map HostError.fault) fault, alike⟩
  | carryOut i =>
    simp only [Machine.intervene, Microcode.run_carryOut, h.fault?_eq, h.next_eq]
    cases a.fault? i with
    | some f => exact ⟨rfl, h⟩
    | none => exact ⟨rfl, h.effect i⟩
  | fetch =>
    obtain ⟨random, same, rfl⟩ := h
    simp only [Machine.intervene, Microcode.fetch_eq]
    cases a.memory.fault? a.pc 2
    · exact ⟨rfl, random, same, rfl⟩
    · exact ⟨rfl, random, same, rfl⟩
  | assign counter value =>
    obtain ⟨random, same, rfl⟩ := h
    cases counter <;> exact ⟨rfl, random, same, rfl⟩
  | writeMemory address block =>
    obtain ⟨random, same, rfl⟩ := h
    simp only [Machine.intervene]
    cases a.memory.writeBlock address block
    · exact ⟨rfl, random, same, rfl⟩
    · exact ⟨rfl, random, same, rfl⟩
  | push address =>
    obtain ⟨random, same, rfl⟩ := h
    simp only [Machine.intervene]
    cases a.stack.push address
    · exact ⟨rfl, random, same, rfl⟩
    · exact ⟨rfl, random, same, rfl⟩
  | pop =>
    obtain ⟨random, same, rfl⟩ := h
    simp only [Machine.intervene]
    cases a.stack.pop
    · exact ⟨rfl, random, same, rfl⟩
    · exact ⟨rfl, random, same, rfl⟩
  | clear part =>
    obtain ⟨random, same, rfl⟩ := h
    cases part <;> exact ⟨rfl, random, same, rfl⟩
  | writeRegister _ _ | draw _ _ _ | fill =>
    obtain ⟨random, same, rfl⟩ := h
    exact ⟨rfl, random, same, rfl⟩

theorem intervened (h : Alike a b) (interventions : List Intervention) :
    (b.intervened interventions).2 = (a.intervened interventions).2 ∧
      Alike (a.intervened interventions).1 (b.intervened interventions).1 := by
  induction interventions generalizing a b with
  | nil => exact ⟨rfl, h⟩
  | cons i rest ih =>
    obtain ⟨first, alike⟩ := h.intervene i
    obtain ⟨later, last⟩ := ih alike
    refine ⟨?_, last⟩
    simp only [Machine.intervened, first, later]

/-! ## Runs of a frame -/

theorem soundActive_eq (h : Alike a b) : b.soundActive = a.soundActive := by
  obtain ⟨random, -, rfl⟩ := h
  rfl

theorem withKeys (h : Alike a b) (keys : Keypad) :
    Alike { a with keys := keys } { b with keys := keys } := by
  obtain ⟨random, same, rfl⟩ := h
  exact ⟨random, same, rfl⟩

theorem ticks (h : Alike a b) (n : Nat) : Alike (Machine.ticks n a) (Machine.ticks n b) := by
  induction n generalizing a b with
  | zero => exact h
  | succ n ih =>
    refine ih ?_
    obtain ⟨random, same, rfl⟩ := h
    exact ⟨random, same, rfl⟩

theorem run (h : Alike a b) (count : Nat) :
    (Machine.run count b).steps = (Machine.run count a).steps ∧
      (Machine.run count b).fault = (Machine.run count a).fault ∧
      Alike (Machine.run count a).machine (Machine.run count b).machine := by
  induction count generalizing a b with
  | zero => exact ⟨rfl, rfl, h⟩
  | succ count ih =>
    obtain ⟨fault, alike⟩ := h.step
    cases hs : a.step.2 with
    | some f =>
      rw [run_of_fault hs, run_of_fault (fault.trans hs)]
      exact ⟨rfl, rfl, alike⟩
    | none =>
      obtain ⟨steps, faults, later⟩ := ih alike
      rw [run_of_success hs, run_of_success (fault.trans hs)]
      exact ⟨congrArg (· + 1) steps, faults, later⟩

end Alike
end Machine

namespace Session

/-- The machines are alike, the clocks are the same, and both sessions are halted or none is. -/
structure Alike (s t : Session) : Prop where
  machine : Machine.Alike s.machine t.machine
  clock_eq : t.clock = s.clock
  halted_eq : t.halted = s.halted

namespace Alike

variable {s t : Session}

theorem runFrame (h : Alike s t) (keys : List Bool) (elapsed : Option Binary64) :
    (t.runFrame keys elapsed).2 = (s.runFrame keys elapsed).2 ∧
      Alike (s.runFrame keys elapsed).1 (t.runFrame keys elapsed).1 := by
  have grant : t.grant elapsed = s.grant elapsed := by
    unfold Session.grant
    rw [h.clock_eq]
  unfold Session.runFrame
  rw [h.halted_eq, grant]
  split
  · exact ⟨rfl, h⟩
  · rcases s.grant elapsed with ⟨clock, e | ⟨steps, ticks⟩⟩
    · exact ⟨rfl, h.machine, rfl, h.halted_eq⟩
    · cases Keypad.ofList keys with
      | error e => exact ⟨rfl, h.machine, rfl, h.halted_eq⟩
      | ok keys =>
        obtain ⟨taken, fault, alike⟩ := ((h.machine.withKeys keys).ticks ticks.toNat).run steps.toNat
        have sound := alike.soundActive_eq
        have sounding := h.machine.soundActive_eq
        refine ⟨?_, alike, rfl, congrArg Option.isSome fault⟩
        simp only [runGranted, taken, fault, sound, sounding]

theorem afterFrames (h : Alike s t) (calls : Nat → FrameCall) (n : Nat) :
    Alike (s.afterFrames calls n) (t.afterFrames calls n) := by
  induction n with
  | zero => exact h
  | succ n ih => exact (ih.runFrame _ _).2

theorem answerAt_eq (h : Alike s t) (calls : Nat → FrameCall) (n : Nat) :
    t.answerAt calls n = s.answerAt calls n :=
  ((h.afterFrames calls n).runFrame _ _).1

end Alike
end Session
end Chip8
