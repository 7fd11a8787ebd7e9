import Chip8.Proofs.History
import Chip8.Proofs.KeyWait

/-!
# What a history executes

The instructions that the steps of a history execute, and what its actions come to.
`Machine.Executes.operation` says what executing a word is: the word is of the encoding of an
operation, no fault forbids it, and the step is the execution of the instruction.
-/

namespace Chip8.Machine

/-- The next step fetches this word and executes it. -/
structure Executes (m : Machine) (word : Nat) : Prop extends m.Fetches word where
  succeeds : m.step.2 = none

/-- The words that the steps of a history execute, each with the machine that executes it. -/
def executions (m : Machine) : List HostAction → List (Machine × Nat)
  | [] => []
  | action :: rest =>
    (if action = .step ∧ m.waiting = none ∧ m.step.2 = none then [(m, m.currentWord.toNat)]
      else []) ++ executions (m.perform action).1 rest

/-- The words that the steps of a history execute. -/
def executed (m : Machine) (history : List HostAction) : List Nat :=
  (m.executions history).map (·.2)

/-- What the actions of a history come to: each passes, or is refused or fails. -/
def outcomes (m : Machine) : List HostAction → List (Option HostError)
  | [] => []
  | action :: rest => (m.perform action).2 :: outcomes (m.perform action).1 rest

/-- No step of a history faults. -/
def Faultless (m : Machine) (history : List HostAction) : Prop :=
  ∀ f, some (.fault f) ∉ m.outcomes history

variable {m : Machine} {w : Nat} {action : HostAction} {rest : List HostAction}

/-! ## One step -/

/-- A word is executed as the operation whose encoding it is of, with its digits as operands. -/
theorem Executes.operation (h : m.Executes w) :
    ∃ op : Operation, op.encoding.admits w = true ∧
      m.advanced.fault? (.ofWord op w) = none ∧
      m.step = (m.advanced.execute (.ofWord op w), none) := by
  have transition := m.step_transition
  rw [h.succeeds] at transition
  generalize hm : m.step.1 = after at transition
  cases transition with
  | poll hw =>
    have awake := h.awake
    rw [hw] at awake
    exact absurd awake (by simp)
  | @executed v i hv hd hf =>
    obtain rfl : v = w := hv.word_eq.symm.trans h.word_eq
    obtain ⟨admitted, hi⟩ := (Instruction.decode?_eq_some_iff hv.word_lt).mp hd
    refine ⟨i.operation, admitted, ?_, ?_⟩
    · rwa [← hi]
    · rw [← hi, ← hm, ← h.succeeds]

theorem Executes.step_eq (h : m.Executes w) {op : Operation}
    (admitted : op.encoding.admits w = true) :
    m.step = (m.advanced.execute (.ofWord op w), none) := by
  obtain ⟨op', admitted', -, stepped⟩ := h.operation
  rwa [Operation.encoding_unique admitted admitted']

/-- A word that no fault forbids is executed as the operation whose encoding it is of. -/
theorem executeWord_of_admits (hw : w < 65536) {op : Operation}
    (admitted : op.encoding.admits w = true) (allowed : m.fault? (.ofWord op w) = none) :
    m.executeWord w = (m.execute (.ofWord op w), none) := by
  have decoded := (Instruction.decode?_eq_some_iff (i := .ofWord op w) hw).mpr ⟨admitted, rfl⟩
  rw [Microcode.executeWord_eq, decoded]
  simp only [allowed]

/-- A step that is awake and does not fault executes the word at the program counter. -/
theorem executes_currentWord (awake : m.waiting = none) (succeeds : m.step.2 = none) :
    m.Executes m.currentWord.toNat := by
  by_cases inside : m.memory.InBounds m.pc 2
  · exact { fetches_currentWord awake inside with succeeds := succeeds }
  · rw [step_of_unfetched awake inside] at succeeds
    exact absurd succeeds (by simp)

/-- Without an executed word a step looks at the keypad or faults. -/
theorem not_executes (h : ∀ w, ¬ m.Executes w) :
    m.waiting ≠ none ∨ ∃ f, m.step.2 = some f := by
  by_cases awake : m.waiting = none
  · right
    cases hs : m.step.2 with
    | none => exact absurd (executes_currentWord awake hs) (h _)
    | some f => exact ⟨f, rfl⟩
  · exact .inl awake

/-- Without an executed word a step leaves all but what the keypad is looked at for, and the program
counter. -/
theorem step_idle (h : ∀ w, ¬ m.Executes w) :
    ∃ pc registers waiting keysSeen, m.step.1 =
      { m with pc := pc, registers := registers, waiting := waiting, keysSeen := keysSeen } := by
  rcases not_executes h with waits | ⟨f, fails⟩
  · obtain ⟨r, hw⟩ := Option.ne_none_iff_exists'.mp waits
    obtain ⟨_, _, _, same⟩ := m.pollKey_frame r
    rw [step_of_waiting hw, same]
    exact ⟨_, _, _, _, rfl⟩
  · obtain ⟨-, pc, moved⟩ := m.step_fault_frame fails
    rw [moved]
    exact ⟨_, _, _, _, rfl⟩

/-! ## Histories -/

theorem executions_step (h : m.Executes w) (rest : List HostAction) :
    m.executions (.step :: rest) = (m, w) :: m.step.1.executions rest := by
  rw [executions, if_pos ⟨rfl, h.awake, h.succeeds⟩, h.word_eq]
  rfl

theorem executions_of_not_executes (h : action = .step → ∀ w, ¬ m.Executes w)
    (rest : List HostAction) :
    m.executions (action :: rest) = (m.perform action).1.executions rest := by
  rw [executions, if_neg]
  · rfl
  · rintro ⟨rfl, awake, succeeds⟩
    exact h rfl _ (executes_currentWord awake succeeds)

theorem executions_append (first second : List HostAction) :
    m.executions (first ++ second) =
      m.executions first ++ (m.after first).executions second := by
  induction first generalizing m with
  | nil => rfl
  | cons action rest ih =>
    rw [List.cons_append, executions, executions, ih, after_cons, List.append_assoc]

/-- What a history executes is executed behind a part of it. -/
theorem executes_of_mem {history : List HostAction} {e : Machine × Nat}
    (he : e ∈ m.executions history) :
    e.1.Executes e.2 ∧ ∃ before, before <+: history ∧ e.1 = m.after before := by
  induction history generalizing m with
  | nil => exact absurd he (by simp [executions])
  | cons action rest ih =>
    rw [executions] at he
    rcases List.mem_append.mp he with now | later
    · split at now
      · rename_i step
        obtain ⟨rfl, awake, succeeds⟩ := step
        obtain rfl := List.mem_singleton.mp now
        exact ⟨executes_currentWord awake succeeds, [], List.nil_prefix, rfl⟩
      · exact absurd now (by simp)
    · obtain ⟨executes, before, part, reached⟩ := ih later
      exact ⟨executes, action :: before, (List.prefix_cons_inj action).mpr part, reached⟩

theorem executed_append (first second : List HostAction) :
    m.executed (first ++ second) = m.executed first ++ (m.after first).executed second := by
  rw [executed, executions_append, List.map_append]
  rfl

theorem executed_cons (action : HostAction) (rest : List HostAction) :
    m.executed (action :: rest) = m.executed [action] ++ (m.perform action).1.executed rest :=
  executed_append [action] rest

theorem executed_step (h : m.Executes w) : m.executed [.step] = [w] := by
  rw [executed, executions_step h]
  rfl

/-- What holds of all executed words holds of that of a last step and of those before it. -/
theorem executed_snoc {p : Nat → Prop} {history : List HostAction}
    (h : ∀ w ∈ m.executed (history ++ [.step]), p w) :
    (∀ w ∈ m.executed history, p w) ∧ ∀ w, (m.after history).Executes w → p w := by
  rw [executed_append] at h
  constructor
  · intro w hw
    exact h w (List.mem_append_left _ hw)
  · intro w executes
    apply h w
    rw [executed_step executes]
    exact List.mem_append_right _ List.mem_cons_self

/-- Inputs of a host execute nothing. -/
theorem executed_inputs {inputs : List HostAction} (h : ∀ a ∈ inputs, a.IsInput) :
    m.executed inputs = [] := by
  induction inputs generalizing m with
  | nil => rfl
  | cons action rest ih =>
    have input := h action List.mem_cons_self
    rw [executed, executions_of_not_executes]
    · exact ih fun a ha => h a (List.mem_cons_of_mem _ ha)
    · rintro rfl
      exact input.elim

theorem outcomes_append (first second : List HostAction) :
    m.outcomes (first ++ second) = m.outcomes first ++ (m.after first).outcomes second := by
  induction first generalizing m with
  | nil => rfl
  | cons action rest ih =>
    rw [List.cons_append, outcomes, outcomes, ih, after_cons, List.cons_append]

theorem faultless_append {first second : List HostAction} :
    m.Faultless (first ++ second) ↔ m.Faultless first ∧ (m.after first).Faultless second := by
  simp only [Faultless, outcomes_append, List.mem_append, not_or]
  exact forall_and

theorem faultless_step : m.Faultless [.step] ↔ m.step.2 = none := by
  simp only [Faultless, outcomes, perform_step]
  cases m.step.2 <;> simp

theorem faultless_snoc {history : List HostAction} :
    m.Faultless (history ++ [.step]) ↔ m.Faultless history ∧ (m.after history).step.2 = none := by
  rw [faultless_append, faultless_step]

theorem faultless_inputs {inputs : List HostAction} (h : ∀ a ∈ inputs, a.IsInput) :
    m.Faultless inputs := by
  induction inputs generalizing m with
  | nil => simp [Faultless, outcomes]
  | cons action rest ih =>
    have first : ∀ f, (m.perform action).2 ≠ some (.fault f) := by
      intro f
      cases action with
      | setKeys states =>
        simp only [perform]
        cases Keypad.ofList states <;> simp
      | tick | press _ | release _ => simp [perform]
      | reset | load _ | step | awaitKey _ => exact absurd (h _ List.mem_cons_self) id
    intro f fails
    rcases List.mem_cons.mp fails with now | later
    · exact first f now.symm
    · exact ih (fun a ha => h a (List.mem_cons_of_mem _ ha)) f later

end Chip8.Machine
