import Chip8.Proofs.Effects
import Chip8.Proofs.Executions

/-!
# Changes that steps do not observe

A change of a machine is `Machine.Unseen` if no fetch and no check of an instruction can see it. Such
a change never makes a step fault or keeps it from faulting. It can be made before a step as well as
behind it, if the instruction ignores it (`Machine.Unseen.step`), and before a history as well as
behind it (`Machine.Unseen.run`).
-/

namespace Chip8.Machine

/-- No fetch and no check of an instruction sees the change, and it can be made before an instruction
is counted as well as behind that. -/
structure Unseen (f : Machine → Machine) : Prop where
  waiting_eq : ∀ m, (f m).waiting = m.waiting
  memory_eq : ∀ m, (f m).memory = m.memory
  index_eq : ∀ m, (f m).index = m.index
  stack_eq : ∀ m, (f m).stack = m.stack
  counted : ∀ m pc tally cycles,
    f { m with pc := pc, tally := tally, cycles := cycles } =
      { f m with pc := pc, tally := tally, cycles := cycles }

/-- In a machine an instruction goes on and has its effect as it would without the change. -/
structure Ignores (f : Machine → Machine) (m : Machine) (i : Instruction) : Prop where
  next_eq : (f m).next i = m.next i
  effect_eq : (f m).effect i = f (m.effect i)

/-- An action of a host does the same before and behind the change. -/
def Passes (f : Machine → Machine) (m : Machine) (action : HostAction) : Prop :=
  (f m).perform action = (f (m.perform action).1, (m.perform action).2)

namespace Unseen

variable {f : Machine → Machine} {m : Machine} {w : Nat} {i : Instruction}

/-! ## Instructions -/

theorem pc_eq (h : Unseen f) (m : Machine) : (f m).pc = m.pc := by
  have kept := congrArg Machine.pc (h.counted m m.pc m.tally m.cycles)
  exact kept

theorem tally_eq (h : Unseen f) (m : Machine) : (f m).tally = m.tally := by
  have kept := congrArg Machine.tally (h.counted m m.pc m.tally m.cycles)
  exact kept

theorem cycles_eq (h : Unseen f) (m : Machine) : (f m).cycles = m.cycles := by
  have kept := congrArg Machine.cycles (h.counted m m.pc m.tally m.cycles)
  exact kept

theorem fault?_eq (h : Unseen f) (m : Machine) (i : Instruction) :
    (f m).fault? i = m.fault? i := by
  simp only [fault?, h.memory_eq, h.index_eq, h.stack_eq]

theorem advanced_eq (h : Unseen f) (m : Machine) : (f m).advanced = f m.advanced := by
  have moved := h.counted m (m.pc + 2) m.tally m.cycles
  have tally := h.tally_eq m
  have cycles := h.cycles_eq m
  unfold advanced
  rw [h.pc_eq, moved, ← tally, ← cycles]

theorem execute_eq (h : Unseen f) (ignored : Ignores f m i) :
    (f m).execute i = f (m.execute i) := by
  show { (f m).effect i with
    pc := (f m).next i
    tally := ((f m).effect i).tally.record i.operation
    cycles := ((f m).effect i).cycles + 1 } = _
  rw [ignored.next_eq, ignored.effect_eq, h.tally_eq, h.cycles_eq]
  exact (h.counted ..).symm

/-! ## Steps -/

theorem fetches_iff (h : Unseen f) : (f m).Fetches w ↔ m.Fetches w := by
  have word : (f m).currentWord = m.currentWord := by
    rw [currentWord, h.memory_eq, h.pc_eq]
    rfl
  constructor
  · rintro ⟨awake, inside, same⟩
    rw [h.waiting_eq] at awake
    rw [h.memory_eq, h.pc_eq] at inside
    rw [word] at same
    exact ⟨awake, inside, same⟩
  · rintro ⟨awake, inside, same⟩
    refine ⟨?_, ?_, ?_⟩
    · rwa [h.waiting_eq]
    · rwa [h.memory_eq, h.pc_eq]
    · rwa [word]

/-- A step faults with the change as it does without it, and leaves a change where it faults. -/
theorem step_fault (h : Unseen f) (m : Machine) :
    (f m).step.2 = m.step.2 ∧ ∀ e, m.step.2 = some e → (f m).step.1 = f m.step.1 := by
  have transition := m.step_transition
  generalize m.step.1 = after, m.step.2 = f? at transition ⊢
  cases transition with
  | poll hw =>
    rw [← h.waiting_eq] at hw
    rw [step_of_waiting hw]
    exact ⟨rfl, fun e he => absurd he (by simp)⟩
  | unfetched hw hb =>
    rw [← h.waiting_eq] at hw
    rw [← h.memory_eq, ← h.pc_eq] at hb
    rw [step_of_unfetched hw hb, h.pc_eq]
    exact ⟨rfl, fun _ _ => rfl⟩
  | undecoded hw hd =>
    rw [(Transition.undecoded (h.fetches_iff.mpr hw) hd).step_eq, h.advanced_eq]
    exact ⟨rfl, fun _ _ => rfl⟩
  | faulted hw hd hf =>
    rw [← h.fault?_eq, ← h.advanced_eq] at hf
    rw [(Transition.faulted (h.fetches_iff.mpr hw) hd hf).step_eq, h.advanced_eq]
    exact ⟨rfl, fun _ _ => rfl⟩
  | executed hw hd hf =>
    rw [← h.fault?_eq, ← h.advanced_eq] at hf
    rw [(Transition.executed (h.fetches_iff.mpr hw) hd hf).step_eq]
    exact ⟨rfl, fun e he => absurd he (by simp)⟩

theorem executes_iff (h : Unseen f) : (f m).Executes w ↔ m.Executes w := by
  have fault := (h.step_fault m).1
  constructor
  · intro hx
    exact { h.fetches_iff.mp hx.toFetches with succeeds := fault.symm.trans hx.succeeds }
  · intro hx
    exact { h.fetches_iff.mpr hx.toFetches with succeeds := fault.trans hx.succeeds }

/-- A step and a change that it does not observe commute. -/
theorem step (h : Unseen f)
    (polled : ∀ r, m.waiting = some r → (f m).pollKey r = f (m.pollKey r))
    (ignored : ∀ w (op : Operation), m.Executes w → op.encoding.admits w = true →
      Ignores f m.advanced (.ofWord op w)) :
    (f m).step = (f m.step.1, m.step.2) := by
  obtain ⟨fault, left⟩ := h.step_fault m
  refine Prod.ext ?_ fault
  cases hw : m.waiting with
  | some r =>
    have waiting : (f m).waiting = some r := by rw [h.waiting_eq, hw]
    rw [step_of_waiting hw, step_of_waiting waiting]
    exact polled r hw
  | none =>
    cases hs : m.step.2 with
    | some e => exact left e hs
    | none =>
      have executes := executes_currentWord hw hs
      obtain ⟨op, admitted, -, stepped⟩ := executes.operation
      rw [stepped, (h.executes_iff.mpr executes).step_eq admitted, h.advanced_eq]
      exact h.execute_eq (ignored _ op executes admitted)

/-! ## Histories -/

/-- A history goes on behind a change as it would without it, if each of its instructions ignores the
change and its other actions pass it. -/
theorem run (h : Unseen f) (polled : ∀ m r, (f m).pollKey r = f (m.pollKey r))
    {history : List HostAction}
    (passed : ∀ action ∈ history, action ≠ .step → ∀ m, Passes f m action)
    (ignored : ∀ e ∈ m.executions history, ∀ op : Operation, op.encoding.admits e.2 = true →
      Ignores f e.1.advanced (.ofWord op e.2)) :
    (f m).after history = f (m.after history) ∧ (f m).outcomes history = m.outcomes history := by
  induction history generalizing m with
  | nil => exact ⟨rfl, rfl⟩
  | cons action rest ih =>
    have performed : Passes f m action := by
      by_cases hstep : action = .step
      · subst hstep
        have stepped : (f m).step = (f m.step.1, m.step.2) := by
          refine h.step (fun r _ => polled m r) ?_
          intro w op executes admitted
          refine ignored (m, w) ?_ op admitted
          rw [executions_step executes]
          exact List.mem_cons_self
        rw [Passes, perform_step, perform_step, stepped]
      · exact passed action List.mem_cons_self hstep m
    have restPassed : ∀ a ∈ rest, a ≠ .step → ∀ m, Passes f m a :=
      fun a ha => passed a (List.mem_cons_of_mem _ ha)
    have restIgnored : ∀ e ∈ (m.perform action).1.executions rest, ∀ op : Operation,
        op.encoding.admits e.2 = true → Ignores f e.1.advanced (.ofWord op e.2) := by
      intro e he
      apply ignored e
      rw [executions]
      exact List.mem_append_right _ he
    obtain ⟨left, came⟩ := ih restPassed restIgnored
    rw [after_cons, after_cons, outcomes, outcomes, performed]
    exact ⟨left, congrArg _ came⟩

end Unseen
end Chip8.Machine
