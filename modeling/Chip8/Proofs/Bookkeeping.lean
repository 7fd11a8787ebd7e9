import Chip8.Proofs.Faults
import Chip8.Proofs.Footprint
import Mathlib.Data.List.DropRight
import Mathlib.Data.List.Induction
import Mathlib.Data.List.Nodup

/-!
# The counts of a machine agree

The tally, the cycle counter, the call stack and the random source are changed in different places of
the cycle, and still agree after every history (`Machine.bookkeeping_after`). The invariant is
`Machine.Accounts`. Its step lemma rests on the order of the cycle: an instruction is counted behind
its effect, so one that faults has neither.
-/

namespace Chip8

theorem Operation.mnemonic_injective : Function.Injective mnemonic := by
  intro a b same
  have read := ofMnemonic?_mnemonic a
  rw [same, ofMnemonic?_mnemonic] at read
  exact (Option.some.inj read).symm

namespace Tally

variable {op : Operation} {t : Tally}

/-- A recorded operation gets an entry if it has none. -/
theorem map_fst_record (op : Operation) (t : Tally) :
    (t.record op).map (·.1) =
      if op ∈ t.map (·.1) then t.map (·.1) else t.map (·.1) ++ [op] := by
  induction t with
  | nil => rfl
  | cons e rest ih =>
    obtain ⟨o, n⟩ := e
    rw [record]
    by_cases h : o = op
    · rw [if_pos h, if_pos (by simp [h])]
      rfl
    · have later : op ∈ ((o, n) :: rest).map (·.1) ↔ op ∈ rest.map (·.1) := by
        simp [Ne.symm h]
      rw [if_neg h, List.map_cons, ih]
      simp only [later]
      split <;> rfl

theorem nodup_record (h : (t.map (·.1)).Nodup) (op : Operation) :
    ((t.record op).map (·.1)).Nodup := by
  rw [map_fst_record]
  split
  · exact h
  · rename_i fresh
    rw [List.nodup_append]
    refine ⟨h, by simp, ?_⟩
    intro o ho o' ho' same
    rw [List.mem_singleton.mp ho'] at same
    exact fresh (same ▸ ho)

theorem mem_record {e : Operation × Nat} (h : e ∈ t.record op) :
    e ∈ t ∨ e.1 = op ∧ 1 ≤ e.2 := by
  induction t with
  | nil =>
    obtain rfl := List.mem_singleton.mp h
    exact .inr ⟨rfl, Nat.le_refl 1⟩
  | cons head rest ih =>
    obtain ⟨o, n⟩ := head
    rw [record] at h
    split at h
    · rename_i same
      rcases List.mem_cons.mp h with rfl | later
      · exact .inr ⟨same, Nat.le_add_left 1 n⟩
      · exact .inl (List.mem_cons_of_mem _ later)
    · rcases List.mem_cons.mp h with rfl | later
      · exact .inl List.mem_cons_self
      · rcases ih later with old | new
        · exact .inl (List.mem_cons_of_mem _ old)
        · exact .inr new

end Tally

namespace Machine

/-- The action suspends the machine without an instruction that does. -/
def HostAction.BeginsWait : HostAction → Prop
  | .awaitKey _ => True
  | .reset | .load _ | .step | .tick | .press _ | .release _ | .setKeys _ => False

instance : DecidablePred HostAction.BeginsWait
  | .awaitKey _ => .isTrue trivial
  | .reset | .load _ | .step | .tick | .press _ | .release _ | .setKeys _ => .isFalse id

/-- The counts of a machine agree, `start` being the number of random bytes that were drawn before the
counting began. -/
structure Accounts (m : Machine) (start : Nat) : Prop where
  cycles_eq : m.cycles = m.tally.total
  nodup : (m.tally.map (·.1)).Nodup
  pos : ∀ e ∈ m.tally, 1 ≤ e.2
  decoded : ∀ e ∈ m.tally, ∃ (w : Nat) (i : Instruction),
    w < 65536 ∧ Instruction.decode? w = some i ∧ i.operation = e.1
  calls_eq : m.tally.count .call = m.stack.pointer + m.tally.count .ret
  draws_eq : m.random.drawn = start + m.tally.count .random
  waits : m.waiting ≠ none → 1 ≤ m.tally.count .awaitKey

variable {m : Machine} {start : Nat}

/-! ## One step -/

/-- Nothing is counted yet. -/
theorem accounts_of_empty (tally : m.tally = []) (cycles : m.cycles = 0)
    (pointer : m.stack.pointer = 0) (awake : m.waiting = none) : m.Accounts m.random.drawn := by
  constructor
  case waits => exact fun waits => absurd awake waits
  all_goals simp [tally, cycles, pointer, Tally.total, Tally.count]

theorem Accounts.withMemory (h : m.Accounts start) (memory : Memory) :
    { m with memory := memory }.Accounts start := { h with }

theorem effect_tally (m : Machine) (i : Instruction) : (m.effect i).tally = m.tally := by
  rw [effect_eq]

theorem effect_random (m : Machine) (i : Instruction) :
    (m.effect i).random = if i.operation = .random then m.random.rest else m.random := by
  rw [effect_eq]

theorem execute_tally (m : Machine) (i : Instruction) :
    (m.execute i).tally = m.tally.record i.operation := by
  show (m.effect i).tally.record i.operation = _
  rw [effect_tally]

/-- An instruction that does not fault is counted once, under its own operation, and moves the stack
pointer and the random source by what the operation stands for. -/
theorem Accounts.execute (h : m.Accounts start) {w : Nat} {i : Instruction} (hw : w < 65536)
    (hd : Instruction.decode? w = some i) (awake : m.waiting = none) (hf : m.fault? i = none) :
    (m.execute i).Accounts start := by
  have tally := m.execute_tally i
  have count : ∀ o, (m.execute i).tally.count o =
      m.tally.count o + if o = i.operation then 1 else 0 := by
    intro o
    rw [tally, Tally.count_record]
  constructor
  case cycles_eq =>
    show (m.effect i).cycles + 1 = _
    rw [tally, Tally.total_record, effect_cycles, h.cycles_eq]
  case nodup =>
    rw [tally]
    exact Tally.nodup_record h.nodup _
  case pos =>
    intro e he
    rw [tally] at he
    rcases Tally.mem_record he with old | ⟨-, positive⟩
    · exact h.pos e old
    · exact positive
  case decoded =>
    intro e he
    rw [tally] at he
    rcases Tally.mem_record he with old | ⟨same, -⟩
    · exact h.decoded e old
    · exact ⟨w, i, hw, hd, same.symm⟩
  case calls_eq =>
    have balance := h.calls_eq
    have stack : (m.execute i).stack = (m.effect i).stack := rfl
    rw [count, count, stack, effect_stack]
    unfold fault? at hf
    cases hop : i.operation <;> simp only [hop] at hf ⊢
    case call =>
      show _ = m.stack.pointer + 1 + _
      simp
      omega
    case ret =>
      -- a return that does not fault finds the pointer above zero
      have used : m.stack.pointer ≠ 0 := by
        intro empty
        rw [pop_fault_iff.mpr ⟨empty, rfl⟩] at hf
        exact absurd hf (by simp)
      show _ = m.stack.pointer - 1 + _
      simp
      omega
    all_goals simpa using balance
  case draws_eq =>
    have drawn := h.draws_eq
    have random : (m.execute i).random = (m.effect i).random := rfl
    rw [count, random, effect_random]
    by_cases draws : i.operation = .random
    · rw [if_pos draws, if_pos draws.symm]
      show m.random.drawn + 1 = _
      omega
    · rw [if_neg draws, if_neg (Ne.symm draws), Nat.add_zero]
      exact drawn
  case waits =>
    intro waits
    have begun : i.operation = .awaitKey := by
      by_contra other
      have waiting : (m.execute i).waiting = (m.effect i).waiting := rfl
      rw [waiting, effect_waiting, if_neg other] at waits
      exact waits awake
    rw [count, if_pos begun.symm]
    omega

/-- Looks at the keypad and faults count nothing. -/
theorem step_uncounted (h : m.waiting ≠ none ∨ m.step.2 ≠ none) :
    m.step.1.tally = m.tally ∧ m.step.1.cycles = m.cycles ∧ m.step.1.stack = m.stack ∧
      m.step.1.random = m.random := by
  have idle : ∀ w, ¬ m.Executes w := by
    intro w executes
    rcases h with waits | fails
    · exact waits executes.awake
    · exact fails executes.succeeds
  obtain ⟨_, _, _, _, same⟩ := step_idle idle
  rw [same]
  exact ⟨rfl, rfl, rfl, rfl⟩

theorem Accounts.step (h : m.Accounts start) : m.step.1.Accounts start := by
  have transition := m.step_transition
  generalize m.step.1 = after, m.step.2 = f? at transition
  cases transition with
  | @poll r hw =>
    obtain ⟨_, _, _, same⟩ := m.pollKey_frame r
    have counted := h.waits (by rw [hw]; simp)
    rw [same]
    exact { h with waits := fun _ => counted }
  | unfetched hw hb => exact h
  | undecoded hw hd => exact { h with }
  | faulted hw hd hf => exact { h with }
  | executed hw hd hf =>
    have advanced : m.advanced.Accounts start := { h with }
    exact advanced.execute hw.word_lt hd hw.awake hf

/-! ## Histories -/

theorem load_random (m : Machine) (program : List UInt8) : (m.load program).1.random = m.random := by
  unfold load
  split <;> simp [withProgram]

theorem reset_accounts (m : Machine) : m.reset.Accounts m.random.drawn := by
  rw [← reset_random]
  exact accounts_of_empty rfl rfl rfl rfl

theorem load_accounts (m : Machine) (program : List UInt8) :
    (m.load program).1.Accounts m.random.drawn := by
  have fresh := m.reset_accounts
  unfold load
  split
  · exact fresh
  · exact fresh.withMemory _

/-- The cycles are the instructions that were executed. -/
theorem perform_cycles {action : HostAction} (kept : ¬ action.Clears) :
    (m.perform action).1.cycles = m.cycles + (m.executed [action]).length := by
  by_cases executes : action = .step ∧ ∃ w, m.Executes w
  · obtain ⟨rfl, w, executes⟩ := executes
    have counted := m.step_cycles executes.succeeds
    rw [executes.awake] at counted
    rw [executed_step executes, perform_step]
    exact counted
  · have idle : action = .step → ∀ w, ¬ m.Executes w := by
      intro step w running
      exact executes ⟨step, w, running⟩
    have none_executed : m.executed [action] = [] := by
      rw [executed, executions_of_not_executes idle]
      rfl
    rw [none_executed, List.length_nil, Nat.add_zero]
    cases action with
    | reset | load _ => exact absurd trivial kept
    | tick | press _ | release _ | awaitKey _ => rfl
    | setKeys states =>
      simp only [Machine.perform]
      cases Keypad.ofList states <;> rfl
    | step =>
      obtain ⟨_, _, _, _, same⟩ := step_idle (idle rfl)
      rw [perform_step, same]

theorem cycles_after {history : List HostAction} (kept : ∀ action ∈ history, ¬ action.Clears) :
    (m.after history).cycles = m.cycles + (m.executed history).length := by
  induction history generalizing m with
  | nil => rfl
  | cons action rest ih =>
    have first : (m.perform action).1.cycles = m.cycles + (m.executed [action]).length :=
      perform_cycles (kept action List.mem_cons_self)
    rw [after_cons, ih fun a ha => kept a (List.mem_cons_of_mem _ ha), first,
      executed_cons action rest, List.length_append, Nat.add_assoc]

/-- The counts go on with every action, or begin anew. -/
theorem Accounts.perform (h : m.Accounts start) {action : HostAction}
    (driven : ¬ action.BeginsWait) :
    (m.perform action).1.Accounts (if action.Clears then m.random.drawn else start) := by
  cases action with
  | reset => exact m.reset_accounts
  | load program => exact m.load_accounts program
  | step => exact h.step
  | tick | press key | release key => exact { h with }
  | setKeys states =>
    simp only [Machine.perform]
    cases Keypad.ofList states with
    | ok keys => exact { h with }
    | error e => exact h
  | awaitKey register => exact absurd trivial driven

theorem perform_random_of_clears {action : HostAction} (clears : action.Clears) :
    (m.perform action).1.random = m.random := by
  cases action with
  | reset => exact reset_random _
  | load program => exact load_random _ program
  | step | tick | press _ | release _ | setKeys _ | awaitKey _ => exact clears.elim

/-- The counts of a machine that was switched on agree, from the last action on that clears them. -/
theorem accounts_after (dialect : Dialect) (random : RandomSource) {history : List HostAction}
    (driven : ∀ action ∈ history, ¬ action.BeginsWait) :
    ((powerOn dialect random).after history).Accounts
      ((powerOn dialect random).after
        (history.rdropWhile fun action => ¬ action.Clears)).random.drawn := by
  -- on the end of the history, for what counts is the last action that clears the machine
  induction history using List.reverseRecOn with
  | nil =>
    rw [List.rdropWhile_nil]
    exact (accounts_of_empty rfl rfl rfl rfl : (powerOn dialect random).Accounts _)
  | append_singleton history action ih =>
    have before := ih fun a ha => driven a (List.mem_append_left _ ha)
    have last := before.perform (driven action (List.mem_append_right _ List.mem_cons_self))
    rw [after_append]
    by_cases clears : action.Clears
    · rw [List.rdropWhile_concat_neg _ _ _ (by simpa using clears), after_append]
      rw [if_pos clears, ← perform_random_of_clears clears] at last
      exact last
    · rw [List.rdropWhile_concat_pos _ _ _ (by simpa using clears)]
      rw [if_neg clears] at last
      exact last

/-- **Bookkeeping is conserved.** After every history of a machine that was switched on, in which the
host leaves key waits to the program:

* the cycles are the sum of the tally;
* the tally has one entry for each mnemonic, with a count above zero, and each is one that some word
  decodes to;
* the stack pointer is the number of calls less that of returns;
* as many random bytes were drawn since the last reset or load as `Cxkk` was executed;
* a suspended machine has executed an `Fx0A`;
* a look at the keypad and a step that faults change none of these counts. -/
theorem bookkeeping_after (dialect : Dialect) (random : RandomSource) {history : List HostAction}
    (driven : ∀ action ∈ history, ¬ action.BeginsWait) :
    let m := (powerOn dialect random).after history
    let cleared := (powerOn dialect random).after (history.rdropWhile fun action => ¬ action.Clears)
    m.cycles = m.tally.total ∧
    (m.tally.map fun e => e.1.mnemonic).Nodup ∧
    (∀ e ∈ m.tally, 1 ≤ e.2 ∧ ∃ (w : Nat) (i : Instruction),
      w < 65536 ∧ Instruction.decode? w = some i ∧ i.operation.mnemonic = e.1.mnemonic) ∧
    (m.stack.pointer : Int) = m.tally.count .call - m.tally.count .ret ∧
    (m.random.drawn : Int) - cleared.random.drawn = m.tally.count .random ∧
    (m.waiting ≠ none → 1 ≤ m.tally.count .awaitKey) ∧
    (m.waiting ≠ none ∨ m.step.2 ≠ none →
      m.step.1.tally = m.tally ∧ m.step.1.cycles = m.cycles ∧ m.step.1.stack = m.stack ∧
        m.step.1.random = m.random) := by
  intro m cleared
  have accounts : m.Accounts cleared.random.drawn := accounts_after dialect random driven
  have balance := accounts.calls_eq
  have drawn := accounts.draws_eq
  refine ⟨accounts.cycles_eq, ?_, ?_, by omega, by omega, accounts.waits, step_uncounted⟩
  · have distinct := accounts.nodup.map Operation.mnemonic_injective
    rwa [List.map_map] at distinct
  · intro e he
    obtain ⟨w, i, hw, hd, same⟩ := accounts.decoded e he
    exact ⟨accounts.pos e he, w, i, hw, hd, congrArg Operation.mnemonic same⟩

/-- A call and a return, a random byte, a key wait, and then a look at the keypad. -/
theorem bookkeeping_after_wait :
    let program := [0x22, 0x04, 0xF1, 0x0A, 0xC0, 0xFF, 0x00, 0xEE]
    let m := (powerOn .modern .zero).after
      [.load program, .step, .tick, .step, .step, .step]
    m.waiting = some 1 ∧ m.cycles = 4 ∧ 1 ≤ m.tally.count .awaitKey ∧
      (m.stack.pointer : Int) = m.tally.count .call - m.tally.count .ret ∧
      m.step.1.cycles = m.cycles := by
  intro program m
  have driven : ∀ action ∈ [HostAction.load program, .step, .tick, .step, .step, .step],
      ¬ action.BeginsWait := by simp [HostAction.BeginsWait]
  have state : m.waiting = some 1 ∧ m.cycles = 4 := by decide +kernel
  obtain ⟨-, -, -, pointer, -, waits, uncounted⟩ := bookkeeping_after .modern .zero driven
  have suspended : m.waiting ≠ none := by
    rw [state.1]
    simp
  obtain ⟨-, cycles, -⟩ := uncounted (.inl suspended)
  -- the numbers are not to be computed once more
  with_reducible exact ⟨state.1, state.2, waits suspended, pointer, cycles⟩

end Machine
end Chip8
