import Chip8.Proofs.Faults
import Chip8.Proofs.History
import Chip8.Proofs.KeyWait

/-!
# Calls and returns match as brackets

The return addresses on the stack are those behind the calls that no return has closed
(`Machine.calls_match_returns`). The step lemma is `WellFormed.step_brackets`: an executed call opens a
bracket, an executed return closes the last one that is open, and no other step, fault or input of a
host touches the stack.
-/

namespace Chip8

/-- A call at an address, or a return. -/
inductive Bracket where
  | call (address : Int)
  | ret
  deriving Repr, DecidableEq

namespace Bracket

/-- The open calls after one more bracket, the oldest first. A return closes the most recent one. -/
def close (calls : List Int) : Bracket → List Int
  | .call address => calls ++ [address]
  | .ret => calls.dropLast

/-- The calls that no return has closed, the oldest first. -/
def unmatched (brackets : List Bracket) : List Int := brackets.foldl close []

/-- Every call is closed by a return, and every return closes a call. -/
inductive Balanced : List Bracket → Prop
  | nil : Balanced []
  | nest {address inner rest} :
      Balanced inner → Balanced rest → Balanced (.call address :: inner ++ .ret :: rest)

theorem Balanced.foldl_close {brackets : List Bracket} (h : Balanced brackets) (calls : List Int) :
    brackets.foldl close calls = calls := by
  induction h generalizing calls with
  | nil => rfl
  | nest _ _ inner rest =>
    rw [List.cons_append, List.foldl_cons, List.foldl_append, inner, List.foldl_cons, rest]
    exact List.dropLast_concat

/-- Behind a call and balanced calls and returns, that call is the last one open. -/
theorem Balanced.getLast?_unmatched {before inner : List Bracket} (h : Balanced inner)
    (address : Int) : (unmatched (before ++ .call address :: inner)).getLast? = some address := by
  rw [unmatched, List.foldl_append, List.foldl_cons, h.foldl_close]
  exact List.getLast?_concat

end Bracket

namespace Machine

/-- The bracket that the next step is, if it executes a call or a return. -/
def bracket? (m : Machine) : Option Bracket :=
  if m.waiting = none ∧ m.step.2 = none then
    if m.currentWord.toNat / 4096 = 2 then some (.call m.pc)
    else if m.currentWord.toNat = 0x00EE then some .ret
    else none
  else none

/-- The calls and returns that the steps of a history execute. -/
def brackets (m : Machine) : List HostAction → List Bracket
  | [] => []
  | action :: rest =>
    (if action = .step then m.bracket?.toList else []) ++ brackets (m.perform action).1 rest

/-- The addresses on the stack, the oldest first. -/
def returnAddresses (m : Machine) : List Int := m.stack.live.map fun a => (a.toNat : Int)

variable {m : Machine} {w : Nat} {calls : List Int}

/-! ## One step -/

/-- An operation is a call or a return by its word. -/
theorem bracket_of_admits {op : Operation} (hw : w < 65536) (h : op.encoding.admits w = true) :
    (op = .call ↔ w / 4096 = 2) ∧ (op = .ret ↔ w = 0x00EE) := by
  have call : Operation.call.encoding.admits w = true ↔ w / 4096 = 2 :=
    Encoding.admits_firstDigit hw
  have ret : Operation.ret.encoding.admits w = true ↔ w = 0x00EE :=
    Encoding.admits_word hw (by decide) (by decide) (by decide)
  rw [← call, ← ret]
  refine ⟨⟨?_, ?_⟩, ⟨?_, ?_⟩⟩
  · rintro rfl
    exact h
  · exact Operation.encoding_unique h
  · rintro rfl
    exact h
  · exact Operation.encoding_unique h

theorem bracket?_of_fault {f : Fault} (h : m.step.2 = some f) : m.bracket? = none := by
  rw [bracket?, h]
  exact if_neg (by simp)

theorem bracket?_of_waiting {r : Fin 16} (h : m.waiting = some r) : m.bracket? = none := by
  rw [bracket?, h]
  exact if_neg (by simp)

theorem WellFormed.pointer_eq (h : m.WellFormed)
    (tracked : m.returnAddresses = calls.map (· + 2)) : m.stack.pointer = calls.length := by
  have slots := h.slots_size
  have pointer := h.pointer_le
  have used := CallStack.length_live (s := m.stack) (by omega)
  have same := congrArg List.length tracked
  rw [returnAddresses, List.length_map, List.length_map] at same
  omega

/-- A return address is the one behind its call. -/
theorem WellFormed.return_address (h : m.WellFormed) (inside : m.memory.InBounds m.pc 2) :
    ((UInt16.ofInt m.advanced.pc).toNat : Int) = m.pc + 2 := by
  have low := h.pc_nonneg
  have high := h.advanced_pc_le inside
  have behind : m.advanced.pc = m.pc + 2 := rfl
  unfold memorySize at high
  rw [behind] at high ⊢
  simp [UInt16.ofInt]
  omega

theorem bracket?_of_executed {i : Instruction} (hw : m.Fetches w)
    (hd : Instruction.decode? w = some i) (hs : m.step.2 = none) :
    m.bracket? =
      match i.operation with
      | .call => some (.call m.pc)
      | .ret => some .ret
      | _ => none := by
  obtain ⟨admitted, -⟩ := (Instruction.decode?_eq_some_iff hw.word_lt).mp hd
  obtain ⟨call, ret⟩ := bracket_of_admits hw.word_lt admitted
  rw [bracket?, hs, hw.word_eq, if_pos ⟨hw.awake, rfl⟩]
  simp only [← call, ← ret]
  cases i.operation <;> rfl

/-- A step opens or closes the bracket that it is, and otherwise keeps the stack. -/
theorem WellFormed.step_brackets (h : m.WellFormed)
    (tracked : m.returnAddresses = calls.map (· + 2)) :
    m.step.1.returnAddresses = (m.bracket?.toList.foldl Bracket.close calls).map (· + 2) := by
  have slots := h.slots_size
  have pointer := h.pointer_le
  have transition := m.step_transition
  cases hs : m.step.2 with
  | some f =>
    obtain ⟨-, pc, moved⟩ := m.step_fault_frame hs
    rw [bracket?_of_fault hs, moved]
    exact tracked
  | none =>
    rw [hs] at transition
    generalize m.step.1 = after at transition
    cases transition with
    | @poll r hw =>
      obtain ⟨_, _, _, same⟩ := m.pollKey_frame r
      rw [bracket?_of_waiting hw, same]
      exact tracked
    | @executed w i hw hd hf =>
      have stack : (m.advanced.execute i).stack = (m.advanced.effect i).stack := rfl
      rw [bracket?_of_executed hw hd hs, returnAddresses, stack, effect_stack]
      unfold fault? at hf
      cases hop : i.operation <;> simp only [hop] at hf ⊢
      case call =>
        -- the slot at the pointer is free, so what an earlier call left there is overwritten
        have room : m.stack.pointer < m.stack.slots.size := by
          have free : m.stack.pointer ≠ stackSize := by
            intro full
            have refused : m.advanced.stack.pushFault? = _ := h.push_fault_iff.mpr ⟨full, rfl⟩
            rw [refused] at hf
            exact absurd hf (by simp)
          omega
        have live : (m.advanced.stack.pushed m.advanced.pc).live = _ :=
          CallStack.live_pushed room m.advanced.pc
        rw [live, List.map_append, List.map_singleton, h.return_address hw.inBounds]
        simp only [Option.toList_some, List.foldl_cons, List.foldl_nil, Bracket.close,
          List.map_append, List.map_singleton, ← tracked]
        rfl
      case ret =>
        have live : m.advanced.stack.popped.live = _ :=
          CallStack.live_popped (s := m.stack) (by omega)
        rw [live, List.map_dropLast]
        simp only [Option.toList_some, List.foldl_cons, List.foldl_nil, Bracket.close,
          List.map_dropLast, ← tracked]
        rfl
      all_goals exact tracked

/-- A return goes behind the last open call, and faults if there is none. -/
theorem WellFormed.step_return (h : m.WellFormed) (tracked : m.returnAddresses = calls.map (· + 2))
    (fetched : m.Fetches 0x00EE) :
    (m.step.2 = some .stackUnderflow ↔ calls = []) ∧
      ∀ address, calls.getLast? = some address → m.step.2 = none ∧ m.step.1.pc = address + 2 := by
  have slots := h.slots_size
  have pointer := h.pointer_le
  have count := h.pointer_eq tracked
  have admitted : Operation.ret.encoding.admits 0x00EE = true := by decide
  have returns : ∀ address, calls.getLast? = some address →
      m.step.2 = none ∧ m.step.1.pc = address + 2 := by
    intro address last
    have used : m.stack.pointer ≠ 0 := by
      intro empty
      rw [List.length_eq_zero_iff.mp (count.symm.trans empty)] at last
      exact absurd last (by simp)
    have allowed : m.advanced.fault? (.ofWord .ret 0x00EE) = none := if_neg used
    rw [(Transition.executed fetched (fetched.decode?_eq admitted) allowed).step_eq]
    refine ⟨rfl, ?_⟩
    have target : (m.advanced.execute (.ofWord .ret 0x00EE)).pc = (m.stack.top.toNat : Int) := rfl
    have top := CallStack.getLast?_live used (by omega)
    have same := congrArg List.getLast? tracked
    rw [returnAddresses, List.getLast?_map, List.getLast?_map, top, last] at same
    rw [target]
    exact Option.some.inj same
  refine ⟨⟨?_, ?_⟩, returns⟩
  · intro underflow
    cases hl : calls.getLast? with
    | none => exact List.getLast?_eq_none_iff.mp hl
    | some address =>
      rw [(returns address hl).1] at underflow
      exact absurd underflow (by simp)
  · intro none_open
    refine fetched.step_fault .ret admitted (pop_fault_iff.mpr ⟨?_, rfl⟩)
    rw [count, none_open]
    rfl

/-- A call faults if sixteen calls are open, and only then. -/
theorem WellFormed.step_call (h : m.WellFormed) (tracked : m.returnAddresses = calls.map (· + 2))
    (fetched : m.Fetches w) (call : w / 4096 = 2) :
    (m.step.2 = some (.stackOverflow 16) ↔ calls.length = 16) ∧
      (calls.length ≠ 16 → m.step.2 = none) := by
  have count := h.pointer_eq tracked
  have admitted : Operation.call.encoding.admits w = true :=
    (Encoding.admits_firstDigit fetched.word_lt).mpr call
  have calls_on : calls.length ≠ 16 → m.step.2 = none := by
    intro room
    have allowed : m.advanced.fault? (.ofWord .call w) = none := by
      cases hf : m.advanced.fault? (.ofWord .call w) with
      | none => rfl
      | some f =>
        obtain ⟨full, -⟩ := h.push_fault_iff.mp hf
        exact absurd (count.symm.trans full) room
    rw [(Transition.executed fetched (fetched.decode?_eq admitted) allowed).step_eq]
  refine ⟨⟨?_, ?_⟩, calls_on⟩
  · intro overflow
    by_cases full : calls.length = 16
    · exact full
    · rw [calls_on full] at overflow
      exact absurd overflow (by simp)
  · intro full
    exact fetched.step_fault .call admitted (h.push_fault_iff.mpr ⟨count.trans full, rfl⟩)

/-! ## Runs -/

variable {history : List HostAction}

/-- A run opens and closes the brackets that it executes. -/
theorem WellFormed.after_brackets (h : m.WellFormed)
    (runs : ∀ action ∈ history, action = .step ∨ action.IsInput)
    (tracked : m.returnAddresses = calls.map (· + 2)) :
    (m.after history).returnAddresses =
      ((m.brackets history).foldl Bracket.close calls).map (· + 2) := by
  induction history generalizing m calls with
  | nil => exact tracked
  | cons action rest ih =>
    have later : ∀ action ∈ rest, action = .step ∨ action.IsInput :=
      fun action mem => runs action (List.mem_cons_of_mem _ mem)
    -- the open calls before an action are those with which the rest of the run goes on
    rw [after_cons, brackets, List.foldl_append]
    refine ih (h.perform action) later ?_
    rcases runs action List.mem_cons_self with rfl | input
    · exact h.step_brackets tracked
    · obtain ⟨_, _, _, same⟩ := m.perform_input input
      have not_step : action ≠ .step := by
        rintro rfl
        exact input
      rw [if_neg not_step, same]
      exact tracked

/-- **Calls and returns match as brackets.** After a program was loaded into any machine, and after any
steps, timer ticks and changes of the keys, the addresses on the stack are those behind the calls that
no return has closed, the oldest first. A return goes behind the last of them, which is the call before
it that is followed by balanced calls and returns, and it faults exactly if there is none. A call
faults exactly if there are sixteen. -/
theorem calls_match_returns {m₀ : Machine} (sized : m₀.Sized) (program : List UInt8)
    (runs : ∀ action ∈ history, action = .step ∨ action.IsInput) :
    let start := (m₀.load program).1
    let m := start.after history
    let calls := Bracket.unmatched (start.brackets history)
    m.returnAddresses = calls.map (· + 2) ∧
    (m.Fetches 0x00EE →
      (m.step.2 = some .stackUnderflow ↔ calls = []) ∧
      (∀ address, calls.getLast? = some address →
        m.step.2 = none ∧ m.step.1.pc = address + 2) ∧
      ∀ before address inner, start.brackets history = before ++ .call address :: inner →
        Bracket.Balanced inner → m.step.2 = none ∧ m.step.1.pc = address + 2) ∧
    ∀ w, m.Fetches w → w / 4096 = 2 →
      (m.step.2 = some (.stackOverflow 16) ↔ calls.length = 16) ∧
        (calls.length ≠ 16 → m.step.2 = none) := by
  intro start m calls
  have loaded : start.WellFormed := sized.load_wellFormed program
  have wellFormed : m.WellFormed := loaded.after history
  have unused : start.returnAddresses = List.map (· + 2) [] := by
    unfold start Machine.load
    split <;> rfl
  have tracked : m.returnAddresses = calls.map (· + 2) := loaded.after_brackets runs unused
  refine ⟨tracked, ?_, ?_⟩
  · intro fetched
    obtain ⟨underflow, returns⟩ := wellFormed.step_return tracked fetched
    refine ⟨underflow, returns, ?_⟩
    intro before address inner split_at balanced
    refine returns address ?_
    have last : (Bracket.unmatched (before ++ .call address :: inner)).getLast? = some address :=
      balanced.getLast?_unmatched address
    rwa [← split_at] at last
  · intro w fetched call
    exact wellFormed.step_call tracked fetched call

/-- A subroutine returns behind its call. A second return finds no call to close. -/
theorem calls_match_returns_once :
    let start := ((powerOn .modern .zero).load [0x22, 0x04, 0x00, 0xEE, 0x00, 0xEE]).1
    (start.after [.step, .tick]).step.1.pc = 0x202 ∧
      (start.after [.step, .step]).step.2 = some .stackUnderflow := by
  intro start
  have sized := (powerOn_wellFormed .modern .zero).sized
  have fetches : (start.after [.step, .tick]).Fetches 0x00EE ∧
      (start.after [.step, .step]).Fetches 0x00EE := by
    have parts : ∀ history ∈ [[HostAction.step, .tick], [.step, .step]],
        (start.after history).waiting = none ∧
        (start.after history).memory.InBounds (start.after history).pc 2 ∧
        (start.after history).currentWord.toNat = 0x00EE := by
      decide +kernel
    constructor
    · obtain ⟨awake, inside, word⟩ := parts [.step, .tick] (by simp)
      exact ⟨awake, inside, word⟩
    · obtain ⟨awake, inside, word⟩ := parts [.step, .step] (by simp)
      exact ⟨awake, inside, word⟩
  have calls : Bracket.unmatched (start.brackets [.step, .tick]) = [0x200] ∧
      Bracket.unmatched (start.brackets [.step, .step]) = [] := by decide +kernel
  have runs : ∀ history ∈ [[HostAction.step, .tick], [.step, .step]],
      ∀ action ∈ history, action = .step ∨ action.IsInput := by decide
  obtain ⟨-, first, -⟩ := calls_match_returns sized [0x22, 0x04, 0x00, 0xEE, 0x00, 0xEE]
    (runs [.step, .tick] (by simp))
  obtain ⟨-, second, -⟩ := calls_match_returns sized [0x22, 0x04, 0x00, 0xEE, 0x00, 0xEE]
    (runs [.step, .step] (by simp))
  refine ⟨?_, ?_⟩
  · have back := (first fetches.1).2.1 0x200 (congrArg List.getLast? calls.1)
    unfold start
    rw [back.2]
    decide
  · exact (second fetches.2).1.mpr calls.2

end Machine
end Chip8
