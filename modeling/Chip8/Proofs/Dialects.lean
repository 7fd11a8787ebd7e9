import Chip8.Proofs.Footprint
import Chip8.Proofs.Unobserved

/-!
# Dialects and the words they dispute

Each switch of a dialect has its own words, and these differ in few places: the shifts in their result
and the flag, the logic operations in the flag, the transfers in the index. Any other step is the same
in all dialects, and a step faults in all of them or in none (`Machine.step_in_dialects`).
-/

namespace Chip8

/-! ## Words that dialects dispute -/

/-- The word shifts: `8xy6` and `8xyE`. -/
def Shifts (w : Nat) : Prop := w / 4096 = 0x8 ∧ w % 16 ∈ [0x6, 0xE]

/-- The word is a logic operation, and its result does not replace the flag: `8xy1`, `8xy2` and `8xy3`
with `x` not `F`. -/
def KeepsLogicFlag (w : Nat) : Prop :=
  w / 4096 = 0x8 ∧ w % 16 ∈ [0x1, 0x2, 0x3] ∧ w / 256 % 16 ≠ 0xF

/-- The word transfers registers: `Fx55` and `Fx65`. -/
def Transfers (w : Nat) : Prop := w / 4096 = 0xF ∧ w % 256 ∈ [0x55, 0x65]

/-- The dialects do not agree on what the word does. -/
def Dialect.Dispute (d d' : Dialect) (w : Nat) : Prop :=
  d.shiftsVy ≠ d'.shiftsVy ∧ Shifts w ∨
  d.logicClearsFlag ≠ d'.logicClearsFlag ∧ KeepsLogicFlag w ∨
  d.transferMovesIndex ≠ d'.transferMovesIndex ∧ Transfers w

instance (w : Nat) : Decidable (Shifts w) := inferInstanceAs (Decidable (_ ∧ _))

instance (w : Nat) : Decidable (KeepsLogicFlag w) := inferInstanceAs (Decidable (_ ∧ _))

instance (w : Nat) : Decidable (Transfers w) := inferInstanceAs (Decidable (_ ∧ _))

instance (d d' : Dialect) (w : Nat) : Decidable (d.Dispute d' w) :=
  inferInstanceAs (Decidable (_ ∨ _))

namespace Registers

variable {regs : Registers} {d d' : Dialect} {op : Alu} {x y r : Int}

theorem value_arithmetic (other : slot x ≠ slot r) (plain : slot flag ≠ slot r) :
    (regs.arithmetic d op x y).value r = regs.value r := by
  by_contra changed
  rcases slot_eq_of_arithmetic changed with target | ⟨target, -⟩
  · exact other target
  · exact plain target

/-- Where an operation comes to something else in another dialect. -/
theorem arithmetic_dispute
    (changed : (regs.arithmetic d' op x y).value r ≠ (regs.arithmetic d op x y).value r) :
    d.shiftsVy ≠ d'.shiftsVy ∧ op ∈ [.shiftRight, .shiftLeft] ∧
        (slot x = slot r ∨ slot flag = slot r) ∨
      d.logicClearsFlag ≠ d'.logicClearsFlag ∧ op ∈ [.or, .and, .xor] ∧
        slot x ≠ slot r ∧ slot flag = slot r := by
  have written : slot x = slot r ∨ slot flag = slot r := by
    by_contra untouched
    rw [not_or] at untouched
    rw [value_arithmetic untouched.1 untouched.2, value_arithmetic untouched.1 untouched.2] at changed
    exact changed rfl
  cases op
  case copy | add | sub | subFrom => exact absurd rfl changed
  case shiftRight | shiftLeft =>
    refine .inl ⟨?_, by simp, written⟩
    intro same
    simp only [arithmetic, Alu.flag, Alu.result, Alu.shifted, same] at changed
    exact changed rfl
  case or | and | xor =>
    -- the result is the same in all dialects
    have other : slot x ≠ slot r := by
      intro target
      simp only [arithmetic, Alu.result, value, read_put, if_pos target] at changed
      exact changed rfl
    refine .inr ⟨?_, by simp, other, written.resolve_left other⟩
    intro same
    simp only [arithmetic, Alu.flag, same] at changed
    exact changed rfl

end Registers

namespace Machine

/-- The machine with another dialect. -/
def withDialect (d : Dialect) (m : Machine) : Machine := { m with dialect := d }

/-- The machines are the same but for their dialects and for what these dispute about the word: the
result and the flag of a shift, the flag of a logic operation, and the index of a transfer. -/
structure SameButDisputed (w : Nat) (a b : Machine) : Prop where
  same : b = { a with dialect := b.dialect, registers := b.registers, index := b.index }
  registers : ∀ r : Fin 16, b.registers.value r ≠ a.registers.value r →
    a.dialect.shiftsVy ≠ b.dialect.shiftsVy ∧ Shifts w ∧ (w / 256 % 16 = r ∨ r = 0xF) ∨
    a.dialect.logicClearsFlag ≠ b.dialect.logicClearsFlag ∧ KeepsLogicFlag w ∧ r = 0xF
  index : b.index ≠ a.index →
    a.dialect.transferMovesIndex ≠ b.dialect.transferMovesIndex ∧ Transfers w

/-- Dialects that agree on the word leave nothing to differ. -/
theorem SameButDisputed.eq {w : Nat} {a b : Machine} (h : SameButDisputed w a b)
    (agree : ¬ a.dialect.Dispute b.dialect w) : b = a.withDialect b.dialect := by
  have registers : b.registers = a.registers := by
    apply Registers.eq_of_value
    intro r
    by_contra changed
    rcases h.registers r changed with ⟨differ, shifts, -⟩ | ⟨differ, logic, -⟩
    · exact agree (.inl ⟨differ, shifts⟩)
    · exact agree (.inr (.inl ⟨differ, logic⟩))
  have index : b.index = a.index := by
    by_contra changed
    exact agree (.inr (.inr (h.index changed)))
  rw [h.same, registers, index]
  rfl

variable {m : Machine} {w : Nat} (d : Dialect)

/-! ## Instructions -/

theorem unseen_withDialect : Unseen (withDialect d) where
  waiting_eq _ := rfl
  memory_eq _ := rfl
  index_eq _ := rfl
  stack_eq _ := rfl
  counted _ _ _ _ := rfl

section

variable {op : Operation} (hw : w < 65536) (admitted : op.encoding.admits w = true)
include hw admitted

theorem effect_in_dialects (m : Machine) :
    SameButDisputed w (m.effect (.ofWord op w)) ((m.withDialect d).effect (.ofWord op w)) := by
  constructor
  case same =>
    rw [effect_eq, effect_eq]
    cases op <;> rfl
  case registers =>
    intro r changed
    rw [effect_dialect, effect_dialect]
    rw [effect_eq, effect_eq] at changed
    cases op
    case alu op =>
      have digit : w / 256 % 16 < 16 := Nat.mod_lt _ (by decide)
      have first := Operation.firstDigit_of_alu hw admitted
      rcases Registers.arithmetic_dispute changed with
        ⟨differ, shifts, target⟩ | ⟨differ, logic, other, target⟩
      · have last : w % 16 ∈ [0x6, 0xE] := by
          simp only [List.mem_cons, List.not_mem_nil, or_false] at shifts
          rcases shifts with rfl | rfl <;> simp [((Encoding.admits_lastDigit hw).mp admitted).2]
        refine .inl ⟨differ, ⟨first, last⟩, ?_⟩
        rcases target with target | target
        · exact .inl (Registers.slot_digit digit target)
        · exact .inr (Fin.ext (Registers.slot_digit (by decide : 15 < 16) target).symm)
      · have last : w % 16 ∈ [0x1, 0x2, 0x3] := by
          simp only [List.mem_cons, List.not_mem_nil, or_false] at logic
          rcases logic with rfl | rfl | rfl <;>
            simp [((Encoding.admits_lastDigit hw).mp admitted).2]
        have named : 15 = r.val := Registers.slot_digit (by decide) target
        refine .inr ⟨differ, ⟨first, last, ?_⟩, Fin.ext named.symm⟩
        intro flag
        apply other
        show Registers.slot ((w / 256 % 16 : Nat) : Int) = _
        rw [flag, named]
    all_goals exact absurd rfl changed
  case index =>
    intro changed
    rw [effect_dialect, effect_dialect]
    rw [effect_eq, effect_eq] at changed
    cases op
    case storeRegisters | loadRegisters =>
      obtain ⟨first, low⟩ := (Encoding.admits_lowByte hw (by decide) (by decide)).mp admitted
      refine ⟨?_, first, by simp [low]⟩
      intro agree
      simp only [← agree] at changed
      exact changed rfl
    all_goals exact absurd rfl changed

theorem ignores_withDialect (agree : ¬ m.dialect.Dispute d w) :
    Ignores (withDialect d) m (.ofWord op w) := by
  constructor
  · rfl
  · have parts := effect_in_dialects d hw admitted m
    have same := parts.eq (by rwa [effect_dialect, effect_dialect])
    rwa [effect_dialect] at same

end

/-! ## Steps -/

theorem pollKey_withDialect (m : Machine) (r : Fin 16) :
    (m.withDialect d).pollKey r = (m.pollKey r).withDialect d := by
  have pressed : Keypad.firstPressed? (m.withDialect d).keysSeen (m.withDialect d).keys =
      Keypad.firstPressed? m.keysSeen m.keys := rfl
  simp only [pollKey, pressed]
  cases Keypad.firstPressed? m.keysSeen m.keys <;> rfl

/-- An executed word comes to the same in all dialects, but for what they dispute. -/
theorem Executes.sameButDisputed (h : m.Executes w) :
    SameButDisputed w m.step.1 (m.withDialect d).step.1 := by
  obtain ⟨op, admitted, -, stepped⟩ := h.operation
  have other := ((unseen_withDialect d).executes_iff.mpr h).step_eq admitted
  have parts := effect_in_dialects d h.word_lt admitted m.advanced
  rw [stepped, other]
  constructor
  case same =>
    let counted : Machine → Machine :=
      fun m' => { m' with pc := m.advanced.next (.ofWord op w) }.recorded op
    have same := congrArg counted parts.same
    exact same
  case registers => exact parts.registers
  case index => exact parts.index

theorem step_withDialect (agree : ∀ w, m.Executes w → ¬ m.dialect.Dispute d w) :
    (m.withDialect d).step = (m.step.1.withDialect d, m.step.2) := by
  apply (unseen_withDialect d).step
  · intro r _
    exact pollKey_withDialect d m r
  · intro w op executes admitted
    exact ignores_withDialect d executes.word_lt admitted (agree w executes)

/-! ## Histories -/

theorem passes_withDialect {action : HostAction} (h : action ≠ .step) (m : Machine) :
    Passes (withDialect d) m action := by
  cases action with
  | step => exact absurd rfl h
  | load program =>
    simp only [Passes, perform, load]
    by_cases large : programCapacity < program.length
    · simp only [if_pos large]
      rfl
    · simp only [if_neg large]
      rfl
  | setKeys states =>
    simp only [Passes, perform]
    cases Keypad.ofList states <;> rfl
  | reset | tick | press _ | release _ | awaitKey _ => rfl

theorem perform_dialect (m : Machine) (action : HostAction) :
    (m.perform action).1.dialect = m.dialect := by
  by_cases hstep : action = .step
  · subst hstep
    show m.step.1.dialect = m.dialect
    by_cases executes : ∃ w, m.Executes w
    · obtain ⟨w, executes⟩ := executes
      exact executes.footprint.dialect
    · obtain ⟨_, _, _, _, same⟩ := step_idle fun w hw => executes ⟨w, hw⟩
      rw [same]
  · have passed := passes_withDialect m.dialect hstep m
    have kept := congrArg (fun r => r.1.dialect) passed
    exact kept

theorem after_dialect (m : Machine) (history : List HostAction) :
    (m.after history).dialect = m.dialect := by
  induction history generalizing m with
  | nil => rfl
  | cons action rest ih => exact (ih (m.perform action).1).trans (m.perform_dialect action)

/-- A history whose words are undisputed is the same in both dialects. -/
theorem after_withDialect {history : List HostAction}
    (agree : ∀ w ∈ m.executed history, ¬ m.dialect.Dispute d w) :
    (m.withDialect d).after history = (m.after history).withDialect d ∧
      (m.withDialect d).outcomes history = m.outcomes history := by
  apply (unseen_withDialect d).run (pollKey_withDialect d)
  · intro action _ other m
    exact passes_withDialect d other m
  · intro e he op admitted
    obtain ⟨executes, before, -, reached⟩ := executes_of_mem he
    apply ignores_withDialect d executes.word_lt admitted
    show ¬ e.1.dialect.Dispute d e.2
    rw [reached, after_dialect]
    exact agree e.2 (List.mem_map_of_mem he)

/-- **Each switch of a dialect affects only its own instructions.** Whether a step faults and how is
the same in all dialects. So is the machine it leaves, unless it executes a word of a switch on which
the dialects differ, and then they differ in the registers, or the index, of that word alone. And so
are all histories that execute no such word, with the outcome of every action. -/
theorem step_in_dialects (m : Machine) (d : Dialect) :
    (m.withDialect d).step.2 = m.step.2 ∧
      ((∀ w, m.Executes w → ¬ m.dialect.Dispute d w) →
        (m.withDialect d).step.1 = m.step.1.withDialect d) ∧
      (∀ w, m.Executes w → SameButDisputed w m.step.1 (m.withDialect d).step.1) ∧
      ∀ history, (∀ w ∈ m.executed history, ¬ m.dialect.Dispute d w) →
        (m.withDialect d).after history = (m.after history).withDialect d ∧
          (m.withDialect d).outcomes history = m.outcomes history := by
  refine ⟨((unseen_withDialect d).step_fault m).1, ?_, ?_, ?_⟩
  · intro agree
    rw [step_withDialect d agree]
  · intro w executes
    exact executes.sameButDisputed d
  · intro history agree
    exact after_withDialect d agree

/-- Two dialects come to the same up to a shift, and then differ in its result alone. -/
theorem step_in_dialects_shift :
    let start := ((powerOn .modern .zero).load [0x60, 0x05, 0x80, 0x16]).1
    let before := start.after [.step, .tick]
    let other := before.withDialect ⟨true, false, false⟩
    (start.withDialect ⟨true, false, false⟩).after [.step, .tick] = other ∧
      other.step.1.registers.value 0 ≠ before.step.1.registers.value 0 ∧
      other.step.1.registers.value 1 = before.step.1.registers.value 1 := by
  intro start before other
  have facts : (before.waiting = none ∧ before.memory.InBounds before.pc 2 ∧
        before.currentWord.toNat = 0x8016 ∧ before.step.2 = none) ∧
      (∀ w ∈ start.executed [.step, .tick], ¬ start.dialect.Dispute ⟨true, false, false⟩ w) ∧
      other.step.1.registers.value 0 ≠ before.step.1.registers.value 0 := by
    decide +kernel
  obtain ⟨⟨awake, inside, word, succeeds⟩, agree, shifted⟩ := facts
  obtain ⟨-, -, -, runs⟩ := step_in_dialects start ⟨true, false, false⟩
  obtain ⟨-, -, executed, -⟩ := step_in_dialects before ⟨true, false, false⟩
  have same : SameButDisputed 0x8016 before.step.1 other.step.1 := executed 0x8016
    { awake := awake, inBounds := inside, word_eq := word, succeeds := succeeds }
  refine ⟨(runs [.step, .tick] agree).1, shifted, ?_⟩
  by_contra changed
  rcases same.registers 1 changed with ⟨-, -, target⟩ | ⟨-, logic, -⟩
  · exact absurd target (by decide)
  · exact absurd logic (by decide)

end Machine
end Chip8
