import Chip8.Proofs.Clock
import Chip8.Proofs.History
import Chip8.Proofs.KeyWait
import Chip8.Session.Frames

/-!
# A session is a machine run up to its first fault

The frames of a session drive its machine through one history, the script of their keys, ticks and
steps, and no further than to the first step that faults (`Session.frames_run`).
-/

-- the empty sum is the zero of the number type itself
attribute [local instance (high)] Zero.ofOfNat0

namespace Chip8

open Machine (HostAction HostError)

theorem Keypad.ofList_of_length {states : List Bool} (h : states.length = 16) :
    Keypad.ofList states = .ok ⟨states.toArray, by simpa using h⟩ :=
  dif_pos h

namespace FrameCall

variable {call : FrameCall} {m : Machine}

theorem firstError?_opening (hk : call.keys.length = 16) (ticks : Int) :
    m.firstError? (call.opening ticks) = none := by
  rw [opening, Machine.firstError?, Machine.perform, Keypad.ofList_of_length hk]
  exact Machine.firstError?_ticks _

theorem opening_inputs (ticks : Int) : ∀ action ∈ call.opening ticks, action.IsInput := by
  intro action mem
  rcases List.mem_cons.mp mem with rfl | mem
  · trivial
  · rw [List.eq_of_mem_replicate mem]
    trivial

theorem polls_opening (ticks : Int) : m.polls (call.opening ticks) = 0 := by
  rw [opening, Machine.polls, Machine.polls_ticks]
  simp

theorem mem_actions {counts : Int × Int} {action : HostAction} (h : action ∈ call.actions counts) :
    action = .setKeys call.keys ∨ action = .tick ∨ action = .step := by
  rcases List.mem_append.mp h with opens | steps
  · rcases List.mem_cons.mp opens with keys | ticks
    · exact .inl keys
    · exact .inr (.inl (List.eq_of_mem_replicate ticks))
  · exact .inr (.inr (List.eq_of_mem_replicate steps))

end FrameCall

namespace Session

variable {s : Session} {call : FrameCall}

/-! ## Loading -/

/-- A program that is accepted starts the session anew. -/
theorem load_accepted {s₀ : Session} {program : List UInt8} (h : s₀.load program = (s, none)) :
    s.machine = (s₀.machine.load program).1 ∧ s.program = program ∧ s.fault = none ∧
      s.frames = 0 := by
  rw [load] at h
  rcases hl : s₀.machine.load program with ⟨m, f?⟩
  rw [hl] at h
  cases f? with
  | some f =>
    simp only [Prod.mk.injEq] at h
    exact absurd h.2 (by simp)
  | none =>
    simp only [Prod.mk.injEq, and_true] at h
    subst h
    exact ⟨rfl, rfl, rfl, rfl⟩

theorem load_machine (s₀ : Session) (program : List UInt8) :
    (s₀.load program).1.machine = (s₀.machine.load program).1 := by
  rw [load]
  rcases s₀.machine.load program with ⟨m, _ | f⟩ <;> rfl

theorem load_cycles (m : Machine) (program : List UInt8) : (m.load program).1.cycles = 0 := by
  unfold Machine.load
  split <;> rfl

/-! ## One frame -/

theorem runFrame_of_halted {f : Fault} (h : s.fault = some f) (keys : List Bool)
    (elapsed : Option Binary64) : s.runFrame keys elapsed = (s, .ok .empty) := by
  have halted : s.halted = true := by rw [Session.halted, h]; rfl
  rw [runFrame, if_pos halted]

theorem not_halted (h : s.fault = none) : ¬ s.halted = true := by
  rw [Session.halted, h]
  simp

/-- The keys of a wrong number are refused after the clock has moved on. -/
theorem runFrame_of_wrong_keys (h : s.fault = none) {keys : List Bool} (hk : keys.length ≠ 16)
    {elapsed : Option Binary64} {clock : FrameClock Binary64} {counts : Int × Int}
    (hg : s.grant elapsed = (clock, .ok counts)) :
    s.runFrame keys elapsed = ({ s with clock := clock }, .error (.keys ⟨keys.length⟩)) := by
  have refused : Keypad.ofList keys = .error ⟨keys.length⟩ := dif_neg hk
  rw [runFrame, if_neg (not_halted h), hg]
  simp only [refused]

theorem grant_forward (h : s.clock.Forward) (elapsed : Option Binary64) :
    FrameClock.GrantsForward (s.grant elapsed) := by
  cases elapsed with
  | none => exact h.frame
  | some e => exact h.advance e

theorem runFrame_forward (h : s.clock.Forward) (keys : List Bool) (elapsed : Option Binary64) :
    (s.runFrame keys elapsed).1.clock.Forward := by
  have granted := (grant_forward h elapsed).1
  unfold runFrame
  split
  · exact h
  · rcases hg : s.grant elapsed with ⟨clock, _ | ⟨steps, ticks⟩⟩ <;> rw [hg] at granted
    · exact granted
    · cases Keypad.ofList keys <;> exact granted

theorem runFrame_clock (h : s.fault = none) (keys : List Bool) (elapsed : Option Binary64) :
    (s.runFrame keys elapsed).1.clock = (s.grant elapsed).1 := by
  rw [runFrame, if_neg (not_halted h)]
  rcases s.grant elapsed with ⟨clock, _ | ⟨steps, ticks⟩⟩
  · rfl
  · cases Keypad.ofList keys <;> rfl

/-- Sixteen key states are refused only by the clock. -/
theorem grant_of_refused (h : s.fault = none) {keys : List Bool} (hk : keys.length = 16)
    {elapsed : Option Binary64} {e : FrameError} (refused : (s.runFrame keys elapsed).2 = .error e) :
    ∃ cause, e = .clock cause ∧ (s.grant elapsed).2 = .error cause := by
  rw [runFrame, if_neg (not_halted h)] at refused
  rcases hg : s.grant elapsed with ⟨clock, cause | ⟨steps, ticks⟩⟩ <;> rw [hg] at refused
  · exact ⟨cause, (Except.error.inj refused).symm, rfl⟩
  · simp only [Keypad.ofList_of_length hk] at refused
    exact absurd refused (by simp)

/-- A frame that runs is counted. -/
theorem runFrame_frames (h : s.fault = none) {keys : List Bool} {elapsed : Option Binary64}
    {report : FrameReport} (answered : (s.runFrame keys elapsed).2 = .ok report) :
    (s.runFrame keys elapsed).1.frames = s.frames + 1 := by
  rw [runFrame, if_neg (not_halted h)] at answered ⊢
  rcases hg : s.grant elapsed with ⟨clock, cause | ⟨steps, ticks⟩⟩ <;> rw [hg] at answered
  · exact absurd answered (by simp)
  · cases hk : Keypad.ofList keys with
    | error cause =>
      simp only [hk] at answered
      exact absurd answered (by simp)
    | ok states => rfl

/-- A frame that runs takes its steps behind its opening. -/
theorem runFrame_eq (h : s.fault = none) (hk : call.keys.length = 16)
    {clock : FrameClock Binary64} {counts : Int × Int}
    (hg : s.grant call.elapsed = (clock, .ok counts)) :
    let progress := Machine.run counts.1.toNat (s.machine.after (call.opening counts.2))
    s.runFrame call.keys call.elapsed =
      ({ s with
          machine := progress.machine
          clock := clock
          fault := progress.fault
          frames := s.frames + 1 },
        .ok
          { steps := progress.steps
            ticks := counts.2
            fault := progress.fault
            soundStarted := progress.machine.soundActive && !s.machine.soundActive }) := by
  intro progress
  have opened : s.machine.after (call.opening counts.2) =
      Machine.ticks counts.2.toNat
        { s.machine with keys := ⟨call.keys.toArray, by simpa using hk⟩ } := by
    rw [FrameCall.opening, Machine.after_cons, Machine.ticks_eq_after, Machine.perform,
      Keypad.ofList_of_length hk]
  rw [runFrame, if_neg (not_halted h), hg]
  simp only [Keypad.ofList_of_length hk, runGranted, ← opened]
  rfl

/-- A frame finds the session halted, or is refused, or runs. -/
theorem runFrame_cases (s : Session) (call : FrameCall) :
    (s.fault ≠ none ∧ s.runFrame call.keys call.elapsed = (s, .ok .empty)) ∨
    (∃ clock e, s.runFrame call.keys call.elapsed = ({ s with clock := clock }, .error e)) ∨
    (s.fault = none ∧ call.keys.length = 16 ∧
      ∃ clock counts, s.grant call.elapsed = (clock, .ok counts)) := by
  by_cases hf : s.fault = none
  · refine .inr ?_
    rcases hg : s.grant call.elapsed with ⟨clock, e | counts⟩
    · refine .inl ⟨clock, .clock e, ?_⟩
      rw [runFrame, if_neg (not_halted hf), hg]
    · by_cases hk : call.keys.length = 16
      · exact .inr ⟨hf, hk, clock, counts, rfl⟩
      · exact .inl ⟨clock, _, runFrame_of_wrong_keys hf hk hg⟩
  · obtain ⟨f, halted⟩ := Option.ne_none_iff_exists'.mp hf
    exact .inl ⟨hf, runFrame_of_halted halted _ _⟩

/-- What a frame comes to: its actions up to the first step that faults, with a report of the steps
before it. -/
structure FrameRuns (s : Session) (call : FrameCall) (counts : Int × Int) (s' : Session)
    (report : FrameReport) : Prop where
  machine_eq : s'.machine = s.machine.after (s.machine.upToError (call.actions counts))
  error_eq : s.machine.firstError? (call.actions counts) = s'.fault.map HostError.fault
  fault_eq : report.fault = s'.fault
  steps_eq : s'.fault = none → report.steps = counts.1.toNat
  steps_lt : s'.fault ≠ none → report.steps < counts.1.toNat
  cut_eq : s'.fault ≠ none →
    s.machine.upToError (call.actions counts) = call.actions (report.steps + 1, counts.2)
  cycles_eq : s'.machine.cycles + s.machine.polls (s.machine.upToError (call.actions counts)) =
    s.machine.cycles + report.steps

theorem frameRuns (h : s.fault = none) (hk : call.keys.length = 16)
    {counts : Int × Int} (hg : (s.grant call.elapsed).2 = .ok counts) :
    ∃ report, (s.runFrame call.keys call.elapsed).2 = .ok report ∧
      s.FrameRuns call counts (s.runFrame call.keys call.elapsed).1 report := by
  have granted : s.grant call.elapsed = ((s.grant call.elapsed).1, .ok counts) := by rw [← hg]
  have clean : s.machine.firstError? (call.opening counts.2) = none :=
    FrameCall.firstError?_opening hk counts.2
  have cut : s.machine.upToError (call.actions counts) =
      call.opening counts.2 ++ (s.machine.after (call.opening counts.2)).upToError
        (List.replicate counts.1.toNat .step) :=
    Machine.upToError_append_of_none clean _
  obtain ⟨_, _, _, unstepped⟩ := s.machine.after_inputs (call.opening_inputs counts.2)
  have cycles : (s.machine.after (call.opening counts.2)).cycles = s.machine.cycles := by
    rw [unstepped]
  rw [runFrame_eq h hk granted]
  refine ⟨_, rfl, ?_⟩
  constructor
  case machine_eq => rw [cut, Machine.after_append, Machine.run_machine]
  case error_eq => rw [FrameCall.actions, Machine.firstError?_append, clean, Machine.run_error]; rfl
  case fault_eq => rfl
  case steps_eq => exact Machine.run_steps
  case steps_lt => exact fun faulted => (Machine.run_cut faulted).1
  case cut_eq =>
    intro faulted
    rw [cut, (Machine.run_cut faulted).2]
    rfl
  case cycles_eq =>
    rw [cut, Machine.polls_append, FrameCall.polls_opening, Nat.zero_add, Machine.run_cycles, cycles]

/-! ## Many frames -/

variable {calls : Nat → FrameCall} {counts : Nat → Int × Int} {n : Nat}

theorem stepsAt_eq {report : FrameReport} (h : s.answerAt calls n = .ok report) :
    s.stepsAt calls n = report.steps := by
  rw [stepsAt, h]

theorem afterFrames_forward (h : s.clock.Forward) (calls : Nat → FrameCall) (n : Nat) :
    (s.afterFrames calls n).clock.Forward := by
  induction n with
  | zero => exact h
  | succ n ih => exact runFrame_forward ih _ _

theorem afterFrames_of_halted {f : Fault} (halted : (s.afterFrames calls n).fault = some f)
    (later : Nat) : s.afterFrames calls (n + later) = s.afterFrames calls n := by
  induction later with
  | zero => rfl
  | succ later ih => rw [← Nat.add_assoc, afterFrames, ih, runFrame_of_halted halted]

theorem mem_script {action : HostAction} (h : action ∈ script calls counts n) :
    (∃ k < n, action = .setKeys (calls k).keys) ∨ action = .tick ∨ action = .step := by
  induction n with
  | zero => exact absurd h List.not_mem_nil
  | succ n ih =>
    rcases List.mem_append.mp h with before | now
    · rcases ih before with ⟨k, hk, keys⟩ | other
      · exact .inl ⟨k, Nat.lt_succ_of_lt hk, keys⟩
      · exact .inr other
    · rcases FrameCall.mem_actions now with keys | other
      · exact .inl ⟨n, Nat.lt_succ_self n, keys⟩
      · exact .inr other

/-- The first `n` frames have followed the script of their actions up to its first error. -/
structure Follows (s : Session) (calls : Nat → FrameCall) (counts : Nat → Int × Int) (n : Nat) :
    Prop where
  machine_eq : (s.afterFrames calls n).machine =
    s.machine.after (s.machine.upToError (script calls counts n))
  error_eq : s.machine.firstError? (script calls counts n) =
    (s.afterFrames calls n).fault.map HostError.fault
  cycles_eq : (s.afterFrames calls n).machine.cycles +
      s.machine.polls (s.machine.upToError (script calls counts n)) =
    s.machine.cycles + ((List.range n).map (s.stepsAt calls)).sum

theorem Follows.clean (h : s.Follows calls counts n) (running : (s.afterFrames calls n).fault = none) :
    s.machine.firstError? (script calls counts n) = none := by
  rw [h.error_eq, running]
  rfl

theorem Follows.machine_eq_script (h : s.Follows calls counts n)
    (running : (s.afterFrames calls n).fault = none) :
    (s.afterFrames calls n).machine = s.machine.after (script calls counts n) := by
  rw [h.machine_eq, Machine.upToError_of_none (h.clean running)]

/-- A halted session stands still. -/
theorem Follows.succ_of_halted (h : s.Follows calls counts n) {f : Fault}
    (halted : (s.afterFrames calls n).fault = some f) : s.Follows calls counts (n + 1) := by
  have same : s.afterFrames calls (n + 1) = s.afterFrames calls n :=
    afterFrames_of_halted halted 1
  have none_taken : s.stepsAt calls n = 0 := by
    rw [stepsAt, answerAt, runFrame_of_halted halted]
    rfl
  have error : s.machine.firstError? (script calls counts n) = some (.fault f) := by
    rw [h.error_eq, halted]
    rfl
  have cut : s.machine.upToError (script calls counts (n + 1)) =
      s.machine.upToError (script calls counts n) :=
    Machine.upToError_append_of_some error _
  refine ⟨?_, ?_, ?_⟩
  · rw [same, cut, h.machine_eq]
  · rw [same, ← h.error_eq, script, Machine.firstError?_append, error]
    rfl
  · rw [same, cut, h.cycles_eq, List.range_succ, List.map_append, List.sum_append]
    simp [none_taken]

theorem Follows.succ_of_running (h : s.Follows calls counts n)
    (running : (s.afterFrames calls n).fault = none) {report : FrameReport}
    (answered : s.answerAt calls n = .ok report)
    (frame : (s.afterFrames calls n).FrameRuns (calls n) (counts n) (s.afterFrames calls (n + 1))
      report) :
    s.Follows calls counts (n + 1) := by
  have clean := h.clean running
  have before := h.machine_eq_script running
  have cut : s.machine.upToError (script calls counts (n + 1)) = script calls counts n ++
      (s.afterFrames calls n).machine.upToError ((calls n).actions (counts n)) := by
    rw [before]
    exact Machine.upToError_append_of_none clean _
  refine ⟨?_, ?_, ?_⟩
  · rw [cut, Machine.after_append, ← before, frame.machine_eq]
  · rw [script, Machine.firstError?_append, clean, ← before, frame.error_eq]
    rfl
  · have earlier := h.cycles_eq
    have now := frame.cycles_eq
    rw [Machine.upToError_of_none clean] at earlier
    rw [cut, Machine.polls_append, ← before, List.range_succ, List.map_append, List.sum_append]
    simp only [List.map_cons, List.map_nil, List.sum_cons, List.sum_nil, stepsAt_eq answered]
    omega

theorem follows (fresh : s.fault = none) (masks : ∀ n, (calls n).keys.length = 16)
    (granted : ∀ n, (s.afterFrames calls n).fault = none →
      ((s.afterFrames calls n).grant (calls n).elapsed).2 = .ok (counts n)) (n : Nat) :
    s.Follows calls counts n := by
  induction n with
  | zero => exact ⟨rfl, by rw [afterFrames, fresh]; rfl, rfl⟩
  | succ n ih =>
    -- a frame adds its actions to the script, and a halted session cuts them off again
    cases hf : (s.afterFrames calls n).fault with
    | some f => exact ih.succ_of_halted hf
    | none =>
      obtain ⟨report, answered, frame⟩ := frameRuns hf (masks n) (granted n hf)
      exact ih.succ_of_running hf answered frame

/-- **A session run is a machine run up to the first fault.** The frames of a session with a loaded
program take its machine through one history: of each frame in turn its keys, the timer ticks and
the steps that the clock grants, and no further than to the first step that faults. A frame that runs
reports all its steps, or those before the fault together with the fault. The cycles are the steps
reported, but for those that found the machine suspended. Once halted the session answers every frame
with an empty report and changes nothing. Keys of a wrong number are refused, and only the clock has
moved on. No count is below zero if the clock runs forward, as it does when it was created with a
limit that is not below zero. -/
theorem frames_run {s₀ s : Session} {program : List UInt8} (loaded : s₀.load program = (s, none))
    {calls : Nat → FrameCall} (masks : ∀ n, (calls n).keys.length = 16)
    {counts : Nat → Int × Int}
    (granted : ∀ n, (s.afterFrames calls n).fault = none →
      ((s.afterFrames calls n).grant (calls n).elapsed).2 = .ok (counts n)) :
    let start := (s₀.machine.load program).1
    let done n := start.upToError (script calls counts n)
    (∀ n, (s.afterFrames calls n).machine = start.after (done n) ∧
      start.firstError? (script calls counts n) =
        (s.afterFrames calls n).fault.map HostError.fault) ∧
    (∀ n, (s.afterFrames calls n).fault = none → ∃ report,
      s.answerAt calls n = .ok report ∧ report.fault = (s.afterFrames calls (n + 1)).fault ∧
      (report.fault = none → report.steps = (counts n).1.toNat) ∧
      (report.fault ≠ none → report.steps < (counts n).1.toNat ∧
        done (n + 1) = script calls counts n ++ (calls n).actions (report.steps + 1, (counts n).2))) ∧
    (∀ n, (s.afterFrames calls n).machine.cycles + start.polls (done n) =
      ((List.range n).map (s.stepsAt calls)).sum) ∧
    (∀ n, (s.afterFrames calls n).fault ≠ none → ∀ keys elapsed,
      (s.afterFrames calls n).runFrame keys elapsed = (s.afterFrames calls n, .ok .empty)) ∧
    (∀ n, (s.afterFrames calls n).fault = none → ∀ keys elapsed clock counts, keys.length ≠ 16 →
      (s.afterFrames calls n).grant elapsed = (clock, .ok counts) →
      (s.afterFrames calls n).runFrame keys elapsed =
        ({ s.afterFrames calls n with clock := clock }, .error (.keys ⟨keys.length⟩))) ∧
    (s.clock.Forward → ∀ n, (s.afterFrames calls n).fault = none →
      0 ≤ (counts n).1 ∧ 0 ≤ (counts n).2) := by
  obtain ⟨machine, -, fresh, -⟩ := load_accepted loaded
  have unused : s.machine.cycles = 0 := by rw [machine, load_cycles]
  have follows := follows fresh masks granted
  rw [← machine]
  intro start done
  refine ⟨?_, ?_, ?_, ?_, ?_, ?_⟩
  · intro n
    exact ⟨(follows n).machine_eq, (follows n).error_eq⟩
  · intro n running
    obtain ⟨report, answered, frame⟩ := frameRuns running (masks n) (granted n running)
    have fault : report.fault = (s.afterFrames calls (n + 1)).fault := frame.fault_eq
    refine ⟨report, answered, fault, ?_, ?_⟩
    · intro succeeded
      rw [fault] at succeeded
      exact frame.steps_eq succeeded
    · intro faulted
      rw [fault] at faulted
      refine ⟨frame.steps_lt faulted, ?_⟩
      have cut := frame.cut_eq faulted
      rw [(follows n).machine_eq_script running] at cut
      rw [← cut]
      exact Machine.upToError_append_of_none ((follows n).clean running) _
  · intro n
    rw [(follows n).cycles_eq, unused, Nat.zero_add]
  · intro n halted keys elapsed
    obtain ⟨f, hf⟩ := Option.ne_none_iff_exists'.mp halted
    exact runFrame_of_halted hf keys elapsed
  · intro n running keys elapsed clock counts wrong grant
    exact runFrame_of_wrong_keys running wrong grant
  · intro forward n running
    exact (grant_forward (afterFrames_forward forward calls n) _).2 _ (granted n running)

/-- The first of two frames of two steps begins a key wait and looks at the keypad in vain. The second
sees a key go down, and then a return without a call halts the session for good. -/
theorem frames_run_return_behind_wait :
    let clock : FrameClock Binary64 := ⟨120, 60, FrameClock.defaultMaxElapsed, .zero, .zero⟩
    let s₀ := start (Machine.powerOn .modern .zero) clock
    let s := (s₀.load [0xF1, 0x0A, 0x00, 0xEE]).1
    let calls : Nat → FrameCall := fun n => ⟨(List.replicate 16 false).set 12 (n == 1), none⟩
    (∃ report, s.answerAt calls 0 = .ok report ∧ report.steps = 2) ∧
      (s.afterFrames calls 2).fault = some .stackUnderflow ∧
      (s.afterFrames calls 2).machine.cycles = 1 ∧
      (s.afterFrames calls 2).runFrame [] none = (s.afterFrames calls 2, .ok .empty) := by
  intro clock s₀ s calls
  let counts : Nat → Int × Int := fun _ => (2, 1)
  have loaded : s₀.load [0xF1, 0x0A, 0x00, 0xEE] = (s, none) := rfl
  have masks : ∀ n, (calls n).keys.length = 16 := by
    intro n
    simp [calls]
  have faults : (s.afterFrames calls 0).fault = none ∧ (s.afterFrames calls 1).fault = none ∧
      (s.afterFrames calls 2).fault = some .stackUnderflow := by decide +kernel
  have of_toOption : ∀ {x : Except NumberError (Int × Int)} {c : Int × Int},
      x.toOption = some c → x = .ok c := by
    intro x c h
    cases x with
    | error e => exact absurd h (by simp [Except.toOption])
    | ok c' => exact congrArg _ (Option.some.inj h)
  have grants : ∀ n < 2, ((s.afterFrames calls n).grant (calls n).elapsed).2.toOption =
      some (counts n) := by decide +kernel
  have granted : ∀ n, (s.afterFrames calls n).fault = none →
      ((s.afterFrames calls n).grant (calls n).elapsed).2 = .ok (counts n) := by
    intro n running
    rcases Nat.lt_or_ge n 2 with early | late
    · exact of_toOption (grants n early)
    · obtain ⟨later, rfl⟩ := Nat.exists_eq_add_of_le late
      rw [afterFrames_of_halted faults.2.2] at running
      exact absurd (running.symm.trans faults.2.2) (by simp)
  obtain ⟨-, reports, cycles, halted, -, -⟩ := frames_run loaded masks granted
  obtain ⟨report, answered, fault, all, -⟩ := reports 0 faults.1
  have taken := cycles 2
  have polled : (s₀.machine.load [0xF1, 0x0A, 0x00, 0xEE]).1.polls
      ((s₀.machine.load [0xF1, 0x0A, 0x00, 0xEE]).1.upToError (script calls counts 2)) = 2 ∧
      ((List.range 2).map (s.stepsAt calls)).sum = 3 := by decide +kernel
  rw [polled.1, polled.2] at taken
  refine ⟨⟨report, answered, all (fault.trans faults.2.1)⟩, faults.2.2, by omega, ?_⟩
  exact halted 2 (by rw [faults.2.2]; simp) [] none

end Session
end Chip8
