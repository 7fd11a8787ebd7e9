import Chip8.Machine.Host
import Chip8.Proofs.Effects

/-!
# Histories up to an error

`Machine.after` goes on behind an action that fails. Here a history is cut at the first one, and the
runs and ticks by which a frame drives a machine are brought down to histories: a run takes all its
steps, or ends with the first that faults (`Machine.run_cases`).
-/

namespace Chip8.Machine

variable (m : Machine)

/-- Why the first action of a history that is refused or fails does so. -/
def firstError? (m : Machine) : List HostAction → Option HostError
  | [] => none
  | action :: rest =>
    match (m.perform action).2 with
    | some e => some e
    | none => firstError? (m.perform action).1 rest

/-- A history up to and including its first action that is refused or fails. -/
def upToError (m : Machine) : List HostAction → List HostAction
  | [] => []
  | action :: rest =>
    match (m.perform action).2 with
    | some _ => [action]
    | none => action :: upToError (m.perform action).1 rest

/-- How many steps of a history find the machine suspended on a key. -/
def polls (m : Machine) : List HostAction → Nat
  | [] => 0
  | action :: rest =>
    (if action = .step ∧ m.waiting.isSome then 1 else 0) + polls (m.perform action).1 rest

variable {m}

theorem after_cons (action : HostAction) (rest : List HostAction) :
    m.after (action :: rest) = (m.perform action).1.after rest := rfl

theorem firstError?_append (first second : List HostAction) :
    m.firstError? (first ++ second) =
      (m.firstError? first).or ((m.after first).firstError? second) := by
  induction first generalizing m with
  | nil => rfl
  | cons action rest ih =>
    rw [List.cons_append, firstError?, firstError?, after_cons, ih]
    cases (m.perform action).2 <;> rfl

theorem upToError_of_none {history : List HostAction} (h : m.firstError? history = none) :
    m.upToError history = history := by
  induction history generalizing m with
  | nil => rfl
  | cons action rest ih =>
    rw [firstError?] at h
    rw [upToError]
    cases he : (m.perform action).2 with
    | some e =>
      rw [he] at h
      exact absurd h (by simp)
    | none =>
      rw [he] at h
      exact congrArg _ (ih h)

theorem upToError_append_of_none {first : List HostAction} (h : m.firstError? first = none)
    (second : List HostAction) :
    m.upToError (first ++ second) = first ++ (m.after first).upToError second := by
  induction first generalizing m with
  | nil => rfl
  | cons action rest ih =>
    rw [firstError?] at h
    rw [List.cons_append, upToError, after_cons]
    cases he : (m.perform action).2 with
    | some e =>
      rw [he] at h
      exact absurd h (by simp)
    | none =>
      rw [he] at h
      exact congrArg _ (ih h)

theorem upToError_append_of_some {first : List HostAction} {e : HostError}
    (h : m.firstError? first = some e) (second : List HostAction) :
    m.upToError (first ++ second) = m.upToError first := by
  induction first generalizing m with
  | nil => exact absurd h (by simp [firstError?])
  | cons action rest ih =>
    rw [firstError?] at h
    rw [List.cons_append, upToError, upToError]
    cases he : (m.perform action).2 with
    | some e => rfl
    | none =>
      rw [he] at h
      exact congrArg _ (ih h)

theorem upToError_prefix (m : Machine) (history : List HostAction) :
    m.upToError history <+: history := by
  induction history generalizing m with
  | nil => exact List.prefix_refl []
  | cons action rest ih =>
    rw [upToError]
    cases (m.perform action).2 with
    | some e => exact (List.prefix_cons_inj action).mpr List.nil_prefix
    | none => exact (List.prefix_cons_inj action).mpr (ih _)

theorem polls_append (first second : List HostAction) :
    m.polls (first ++ second) = m.polls first + (m.after first).polls second := by
  induction first generalizing m with
  | nil => simp [polls, after]
  | cons action rest ih =>
    rw [List.cons_append, polls, polls, ih, after_cons, Nat.add_assoc]

/-! ## Ticks -/

theorem ticks_eq_after (n : Nat) : ticks n m = m.after (List.replicate n .tick) := by
  induction n generalizing m with
  | zero => rfl
  | succ n ih =>
    rw [ticks, ih, List.replicate_succ, after_cons]
    rfl

theorem firstError?_ticks (n : Nat) : m.firstError? (List.replicate n .tick) = none := by
  induction n generalizing m with
  | zero => rfl
  | succ n ih => exact ih

theorem polls_ticks (n : Nat) : m.polls (List.replicate n .tick) = 0 := by
  induction n generalizing m with
  | zero => rfl
  | succ n ih =>
    rw [List.replicate_succ, polls, ih]
    simp

/-! ## Runs -/

theorem perform_step : m.perform .step = (m.step.1, m.step.2.map .fault) := rfl

theorem firstError?_step (rest : List HostAction) :
    m.firstError? (.step :: rest) =
      (m.step.2.map .fault).or (m.step.1.firstError? rest) := by
  rw [firstError?, perform_step]
  cases m.step.2 <;> rfl

theorem run_of_fault {f : Fault} (h : m.step.2 = some f) (count : Nat) :
    run (count + 1) m = ⟨m.step.1, 0, some f⟩ := by
  rw [run, runFrom]
  rcases hs : m.step with ⟨next, f?⟩
  rw [hs] at h
  subst h
  rfl

theorem run_of_success (h : m.step.2 = none) (count : Nat) :
    run (count + 1) m =
      ⟨(run count m.step.1).machine, (run count m.step.1).steps + 1,
        (run count m.step.1).fault⟩ := by
  rw [run, runFrom]
  rcases hs : m.step with ⟨next, f?⟩
  rw [hs] at h
  subst h
  simp only [runFrom_eq (0 + 1), Nat.zero_add, Nat.add_comm 1]

/-- A run takes all its steps, or ends with the first one that faults. -/
theorem run_cases (count : Nat) (m : Machine) :
    (m.firstError? (List.replicate count .step) = none ∧
      run count m = ⟨m.after (List.replicate count .step), count, none⟩) ∨
    ∃ done f, done < count ∧ m.firstError? (List.replicate done .step) = none ∧
      (m.after (List.replicate done .step)).step.2 = some f ∧
      run count m = ⟨(m.after (List.replicate done .step)).step.1, done, some f⟩ := by
  induction count generalizing m with
  | zero => exact .inl ⟨rfl, rfl⟩
  | succ count ih =>
    cases hs : m.step.2 with
    | some f => exact .inr ⟨0, f, Nat.succ_pos count, rfl, hs, run_of_fault hs count⟩
    | none =>
      have passes : ∀ n, m.firstError? (List.replicate (n + 1) .step) =
          m.step.1.firstError? (List.replicate n .step) := by
        intro n
        rw [List.replicate_succ, firstError?_step, hs]
        rfl
      rw [run_of_success hs]
      rcases ih m.step.1 with ⟨clean, all⟩ | ⟨done, f, hd, clean, faults, some⟩
      · refine .inl ⟨(passes count).trans clean, ?_⟩
        rw [all]
        rfl
      · refine .inr ⟨done + 1, f, Nat.succ_lt_succ hd, (passes done).trans clean, faults, ?_⟩
        rw [some]
        rfl

/-- Steps are cut behind the first one that faults. -/
theorem steps_cut {done count : Nat} {f : Fault} (hd : done < count)
    (clean : m.firstError? (List.replicate done .step) = none)
    (faults : (m.after (List.replicate done .step)).step.2 = some f) :
    m.upToError (List.replicate count .step) = List.replicate (done + 1) .step ∧
      m.firstError? (List.replicate count .step) = some (.fault f) := by
  obtain ⟨rest, rfl⟩ : ∃ rest, count = done + (rest + 1) := ⟨count - done - 1, by omega⟩
  rw [← List.replicate_append_replicate, List.replicate_succ, List.replicate_succ',
    upToError_append_of_none clean, firstError?_append, clean, upToError, firstError?_step,
    perform_step, faults]
  exact ⟨rfl, rfl⟩

theorem run_machine (count : Nat) (m : Machine) :
    (run count m).machine = m.after (m.upToError (List.replicate count .step)) := by
  rcases run_cases count m with ⟨clean, all⟩ | ⟨done, f, hd, clean, faults, some⟩
  · rw [all, upToError_of_none clean]
  · rw [some, (steps_cut hd clean faults).1, List.replicate_succ', after_append]
    rfl

theorem run_error (count : Nat) (m : Machine) :
    m.firstError? (List.replicate count .step) = (run count m).fault.map .fault := by
  rcases run_cases count m with ⟨clean, all⟩ | ⟨done, f, hd, clean, faults, some⟩
  · rw [all, clean]
    rfl
  · rw [some, (steps_cut hd clean faults).2]
    rfl

theorem run_steps {count : Nat} (h : (run count m).fault = none) :
    (run count m).steps = count := by
  rcases run_cases count m with ⟨clean, all⟩ | ⟨done, f, hd, clean, faults, some⟩
  · rw [all]
  · rw [some] at h
    exact absurd h (by simp)

theorem run_cut {count : Nat} (h : (run count m).fault ≠ none) :
    (run count m).steps < count ∧
      m.upToError (List.replicate count .step) = List.replicate ((run count m).steps + 1) .step := by
  rcases run_cases count m with ⟨clean, all⟩ | ⟨done, f, hd, clean, faults, some⟩
  · rw [all] at h
    exact absurd rfl h
  · rw [some]
    exact ⟨hd, (steps_cut hd clean faults).1⟩

/-- The cycles of a run are its steps, but for those that looked at the keypad. -/
theorem run_cycles (count : Nat) (m : Machine) :
    (run count m).machine.cycles + m.polls (m.upToError (List.replicate count .step)) =
      m.cycles + (run count m).steps := by
  induction count generalizing m with
  | zero => rfl
  | succ count ih =>
    rw [List.replicate_succ, upToError, perform_step]
    cases hs : m.step.2 with
    | some f =>
      obtain ⟨awake, pc, moved⟩ := m.step_fault_frame hs
      rw [run_of_fault hs, moved]
      simp [polls, awake]
    | none =>
      have counted := m.step_cycles hs
      have rest := ih m.step.1
      have polled : m.polls (.step :: m.step.1.upToError (List.replicate count .step)) =
          (if m.waiting.isSome then 1 else 0) +
            m.step.1.polls (m.step.1.upToError (List.replicate count .step)) := by
        simp [polls, perform_step]
      rw [run_of_success hs]
      simp only [Option.map_none, polled]
      cases hw : m.waiting.isSome <;> simp only [hw] at counted ⊢ <;> simp at counted ⊢ <;> omega

end Chip8.Machine
