import Chip8.Proofs.SessionRun

/-!
# One press of a key ends one wait

The keys of a session change only from one frame to the next, so a wait can end at the first step of a
frame only, and only with a key that was up in the last frame that took a step
(`Session.press_ends_one_wait`). The invariant between the frames is that a suspended machine has seen
the keys of that frame (`Session.seen_of_waiting`).
-/

namespace Chip8

theorem Keypad.getElem?_of_ofList {states : List Bool} {keys : Keypad}
    (h : Keypad.ofList states = .ok keys) (k : Fin 16) : states[k.val]? = some (keys.get k) := by
  unfold ofList at h
  split at h
  · obtain rfl := Except.ok.inj h
    simp [Vector.get]
  · exact absurd h (by simp)

namespace Machine

variable {m : Machine}

/-- A step that ends a wait has seen a key go down, which the register names. -/
theorem pressed_of_wait_ended {r : Fin 16} (h : m.waiting = some r) (ended : m.step.1.waiting = none) :
    ∃ k : Fin 16, m.step.1.registers.value r = k ∧ Keypad.Pressed m.keysSeen m.keys k := by
  rw [step_of_waiting h] at ended ⊢
  cases hk : Keypad.firstPressed? m.keysSeen m.keys with
  | none =>
    rw [pollKey, hk] at ended
    exact absurd (h.symm.trans ended) (by simp)
  | some k =>
    have first := Keypad.firstPressed?_eq_some_iff.mp hk
    refine ⟨k, ?_, first.1⟩
    rw [pollKey_of_firstPressed first]
    have key := k.isLt
    rw [Registers.value_write, if_pos rfl]
    omega

/-- A machine that has seen its keys goes on waiting. -/
theorem waiting_step_of_seen {r : Fin 16} (h : m.waiting = some r) (seen : m.keysSeen = m.keys) :
    m.step.1.waiting = some r := by
  have quiet : ∀ k, ¬ Keypad.Pressed m.keysSeen m.keys k := by
    intro k pressed
    rw [Keypad.Pressed, seen] at pressed
    exact absurd (pressed.1.symm.trans pressed.2) (by simp)
  rw [step_of_waiting h, pollKey_of_not_pressed quiet]
  exact h

theorem ticks_keys (n : Nat) : (ticks n m).keys = m.keys := by
  induction n generalizing m with
  | zero => rfl
  | succ n ih => exact ih

end Machine

namespace Session

variable {s : Session} {calls : Nat → FrameCall} {f j : Nat}

/-! ## The steps of a frame -/

theorem machineAt_zero : s.machineAt calls f 0 =
    (s.afterFrames calls f).machine.after ((calls f).opening (s.ticksAt calls f)) := by
  rw [machineAt, FrameCall.actions]
  exact congrArg _ (List.append_nil _)

theorem machineAt_eq : s.machineAt calls f j =
    (s.machineAt calls f 0).after (List.replicate j .step) := by
  rw [machineAt_zero, machineAt, FrameCall.actions, Machine.after_append]
  rfl

theorem machineAt_succ : s.machineAt calls f (j + 1) = (s.machineAt calls f j).step.1 := by
  rw [machineAt_eq, machineAt_eq (j := j), List.replicate_succ', Machine.after_append]
  rfl

/-- The opening of a frame keeps a wait, and the keys that it has seen. -/
theorem machineAt_zero_waits :
    (s.machineAt calls f 0).waiting = (s.afterFrames calls f).machine.waiting ∧
      (s.machineAt calls f 0).keysSeen = (s.afterFrames calls f).machine.keysSeen := by
  obtain ⟨_, _, _, same⟩ := (s.afterFrames calls f).machine.after_inputs
    ((calls f).opening_inputs (s.ticksAt calls f))
  rw [machineAt_zero, same]
  exact ⟨rfl, rfl⟩

/-- All steps of a frame find its keys. -/
theorem machineAt_keys {keys : Keypad} (h : Keypad.ofList (calls f).keys = .ok keys) :
    (s.machineAt calls f j).keys = keys := by
  induction j with
  | zero =>
    rw [machineAt_zero, FrameCall.opening, Machine.after_cons, ← Machine.ticks_eq_after,
      Machine.ticks_keys, Machine.perform, h]
  | succ j ih => rw [machineAt_succ, Machine.step_keys, ih]

/-- A frame leaves the machine alone, or takes it through the steps that it reports, and at most one
more, which faults. -/
theorem frame_cases (s : Session) (calls : Nat → FrameCall) (f : Nat) :
    (s.stepsAt calls f = 0 ∧
      (s.afterFrames calls (f + 1)).machine = (s.afterFrames calls f).machine) ∨
    ∃ keys, Keypad.ofList (calls f).keys = .ok keys ∧
      ((s.afterFrames calls (f + 1)).machine = s.machineAt calls f (s.stepsAt calls f) ∨
        (s.machineAt calls f (s.stepsAt calls f)).step.2 ≠ none ∧
          (s.afterFrames calls (f + 1)).machine =
            (s.machineAt calls f (s.stepsAt calls f)).step.1) := by
  rcases (s.afterFrames calls f).runFrame_cases (calls f) with
    ⟨-, still⟩ | ⟨clock, e, refused⟩ | ⟨running, hk, clock, counts, granted⟩
  · refine .inl ⟨?_, ?_⟩
    · rw [stepsAt, answerAt, still]
      rfl
    · rw [afterFrames, still]
  · refine .inl ⟨?_, ?_⟩
    · rw [stepsAt, answerAt, refused]
    · rw [afterFrames, refused]
  · refine .inr ⟨_, Keypad.ofList_of_length hk, ?_⟩
    have frame := runFrame_eq running hk granted
    have ticks : s.ticksAt calls f = counts.2 := by rw [ticksAt, answerAt, frame]
    have start : s.machineAt calls f 0 =
        (s.afterFrames calls f).machine.after ((calls f).opening counts.2) := by
      rw [machineAt_zero, ticks]
    rw [← start] at frame
    have steps : s.stepsAt calls f = (Machine.run counts.1.toNat (s.machineAt calls f 0)).steps := by
      rw [stepsAt, answerAt, frame]
    have machine : (s.afterFrames calls (f + 1)).machine =
        (Machine.run counts.1.toNat (s.machineAt calls f 0)).machine := by
      rw [afterFrames, frame]
    rw [steps, machine]
    rcases Machine.run_cases counts.1.toNat (s.machineAt calls f 0) with
      ⟨-, all⟩ | ⟨done, fault, -, -, faulted, some⟩
    · rw [all]
      exact .inl machineAt_eq.symm
    · rw [← machineAt_eq] at faulted some
      rw [some, faulted]
      exact .inr ⟨by simp, rfl⟩

theorem keys_of_steps (h : 0 < s.stepsAt calls f) :
    ∃ keys, Keypad.ofList (calls f).keys = .ok keys := by
  rcases s.frame_cases calls f with ⟨none_taken, -⟩ | ⟨keys, ok, -⟩
  · omega
  · exact ⟨keys, ok⟩

/-- Behind the first step of a frame a wait goes on. -/
theorem waiting_succ (stepping : 0 < s.stepsAt calls f) {r : Fin 16}
    (h : (s.machineAt calls f (j + 1)).waiting = some r) :
    (s.machineAt calls f (j + 2)).waiting = some r := by
  obtain ⟨keys, ok⟩ := keys_of_steps stepping
  -- the step before has seen the keys that this one finds
  have seen : (s.machineAt calls f (j + 1)).keysSeen = (s.machineAt calls f (j + 1)).keys := by
    rw [machineAt_keys ok, ← machineAt_keys ok (s := s) (j := j)]
    rw [machineAt_succ] at h ⊢
    exact Machine.step_sees _ h
  rw [machineAt_succ]
  exact Machine.waiting_step_of_seen h seen

/-- A wait that begins in a frame lasts as long as the frame. -/
theorem waiting_of_fetches (stepping : 0 < s.stepsAt calls f) {i : Nat} {x : Fin 16}
    (h : (s.machineAt calls f i).Fetches (0xF00A + 256 * x)) (hj : i < j) :
    (s.machineAt calls f j).waiting = some x := by
  obtain ⟨later, rfl⟩ := Nat.exists_eq_add_of_lt hj
  induction later with
  | zero =>
    rw [Nat.add_zero, machineAt_succ]
    exact h.waits.waiting_eq
  | succ later ih => exact waiting_succ stepping (ih (by omega))

/-! ## From frame to frame -/

variable {g : Nat}

theorem LastStepping.succ (h : s.LastStepping calls f g) (still : s.stepsAt calls f = 0) :
    s.LastStepping calls (f + 1) g := by
  obtain ⟨earlier, stepping, between⟩ := h
  refine ⟨Nat.lt_succ_of_lt earlier, stepping, ?_⟩
  intro h hg hf
  rcases Nat.lt_succ_iff_lt_or_eq.mp hf with before | rfl
  · exact between h hg before
  · exact still

theorem LastStepping.self (stepping : 0 < s.stepsAt calls f) : s.LastStepping calls (f + 1) f :=
  ⟨Nat.lt_succ_self f, stepping, fun _ hg hf => by omega⟩

/-- A machine that is suspended between two frames has seen the keys of the last frame that took a
step. -/
theorem seen_of_waiting (awake : s.machine.waiting = none) {r : Fin 16}
    (h : (s.afterFrames calls f).machine.waiting = some r) :
    ∃ g, s.LastStepping calls f g ∧
      Keypad.ofList (calls g).keys = .ok (s.afterFrames calls f).machine.keysSeen := by
  induction f with
  | zero => exact absurd (awake.symm.trans h) (by simp)
  | succ f ih =>
    -- a frame without a step leaves the wait to an earlier one
    have stand : ∀ next : Machine, s.stepsAt calls f = 0 →
        next.waiting = (s.afterFrames calls f).machine.waiting →
        next.keysSeen = (s.afterFrames calls f).machine.keysSeen → next.waiting = some r →
        ∃ g, s.LastStepping calls (f + 1) g ∧ Keypad.ofList (calls g).keys = .ok next.keysSeen := by
      intro next still waits sees waiting
      obtain ⟨g, last, seen⟩ := ih (waits.symm.trans waiting)
      exact ⟨g, last.succ still, by rw [sees, seen]⟩
    rcases s.frame_cases calls f with ⟨still, same⟩ | ⟨keys, ok, all | ⟨faulted, some⟩⟩
    · rw [same] at h ⊢
      exact stand _ still rfl rfl h
    · rw [all] at h ⊢
      cases hn : s.stepsAt calls f with
      | zero =>
        rw [hn] at h
        exact stand _ hn machineAt_zero_waits.1 machineAt_zero_waits.2 h
      | succ n =>
        rw [hn, machineAt_succ] at h
        refine ⟨f, LastStepping.self (by omega), ?_⟩
        rw [machineAt_succ, Machine.step_sees _ h, machineAt_keys ok, ok]
    · -- a machine that faults is awake, and the fault leaves it so
      obtain ⟨fault, hf⟩ := Option.ne_none_iff_exists'.mp faulted
      obtain ⟨awake, pc, moved⟩ := Machine.step_fault_frame _ hf
      rw [some, moved] at h
      exact absurd (awake.symm.trans h) (by simp)

/-- A wait ends with a key that is down, and was up in the last frame that took a step. -/
theorem EndsWait.pressed (awake : s.machine.waiting = none) {k : Fin 16} (h : s.EndsWait calls f k) :
    (calls f).keys[k.val]? = some true ∧
      ∃ g, s.LastStepping calls f g ∧ (calls g).keys[k.val]? = some false := by
  obtain ⟨stepping, r, waiting, ended, named⟩ := h
  obtain ⟨keys, ok⟩ := keys_of_steps stepping
  rw [machineAt_succ] at ended named
  obtain ⟨k', named', down, up⟩ := Machine.pressed_of_wait_ended waiting ended
  obtain rfl : k' = k := Fin.ext (by omega)
  rw [machineAt_keys ok] at down
  rw [machineAt_zero_waits.1] at waiting
  rw [machineAt_zero_waits.2] at up
  obtain ⟨g, last, seen⟩ := seen_of_waiting awake waiting
  refine ⟨?_, g, last, ?_⟩
  · rw [Keypad.getElem?_of_ofList ok]
    exact congrArg some down
  · rw [Keypad.getElem?_of_ofList seen]
    exact congrArg some up

/-- **One press of a key ends at most one wait.** Whatever program is loaded, and whatever keys and
times a host gives to the frames:

* a step that ends a wait is the first of its frame, so that a frame ends at most one wait;
* a machine that begins a wait in a frame is suspended until the end of the frame;
* a wait ends with a key that is down in its frame, and up in the last frame before that took a step;
* two waits that end with the same key have a frame between them that takes a step with the key up. -/
theorem press_ends_one_wait (s₀ : Session) (program : List UInt8) (calls : Nat → FrameCall) :
    let s := (s₀.load program).1
    (∀ f j, j < s.stepsAt calls f → (s.machineAt calls f j).waiting ≠ none →
      (s.machineAt calls f (j + 1)).waiting = none → j = 0 ∧ ∃ k, s.EndsWait calls f k) ∧
    (∀ f i (x : Fin 16), i < s.stepsAt calls f → (s.machineAt calls f i).Fetches (0xF00A + 256 * x) →
      ∀ j, i < j → j ≤ s.stepsAt calls f → (s.machineAt calls f j).waiting = some x) ∧
    (∀ f k, s.EndsWait calls f k → (calls f).keys[k.val]? = some true ∧
      ∃ g, s.LastStepping calls f g ∧ (calls g).keys[k.val]? = some false) ∧
    ∀ f f' k, f < f' → s.EndsWait calls f k → s.EndsWait calls f' k →
      ∃ g, f < g ∧ g < f' ∧ 0 < s.stepsAt calls g ∧ (calls g).keys[k.val]? = some false := by
  intro s
  have awake : s.machine.waiting = none := by
    rw [load_machine, Machine.load]
    split <;> rfl
  refine ⟨?_, ?_, ?_, ?_⟩
  · intro f j hj waiting ended
    obtain ⟨r, suspended⟩ := Option.ne_none_iff_exists'.mp waiting
    cases j with
    | zero =>
      have ends := ended
      rw [machineAt_succ] at ends
      obtain ⟨k, named, -⟩ := Machine.pressed_of_wait_ended suspended ends
      rw [← machineAt_succ] at named
      exact ⟨rfl, k, hj, r, suspended, ended, named⟩
    | succ j =>
      have goes_on := waiting_succ (Nat.lt_of_le_of_lt (Nat.zero_le _) hj) suspended
      exact absurd (ended.symm.trans goes_on) (by simp)
  · intro f i x hi fetched j hj _
    exact waiting_of_fetches (Nat.lt_of_le_of_lt (Nat.zero_le i) hi) fetched hj
  · intro f k ends
    exact ends.pressed awake
  · intro f f' k before first second
    obtain ⟨down, -⟩ := first.pressed awake
    obtain ⟨-, g, ⟨earlier, stepping, between⟩, up⟩ := second.pressed awake
    refine ⟨g, ?_, earlier, stepping, up⟩
    rcases Nat.lt_trichotomy g f with sooner | rfl | later
    · -- the frame of the first wait took a step, so it is not before the last one that did
      have none_taken := between f sooner before
      have taken := first.1
      omega
    · exact absurd (up.symm.trans down) (by simp)
    · exact later

/-- A key that is held over the beginning of a second wait does not end it. It does so when it was up
for a frame. -/
theorem press_ends_one_wait_held_key :
    let clock : FrameClock Binary64 := ⟨120, 60, FrameClock.defaultMaxElapsed, .zero, .zero⟩
    let s₀ := start (Machine.powerOn .modern .zero) clock
    let s := (s₀.load [0xF1, 0x0A, 0xF2, 0x0A, 0x12, 0x04]).1
    let calls : Nat → FrameCall :=
      fun n => ⟨(List.replicate 16 false).set 12 (n == 1 || n == 2 || n == 4), none⟩
    s.EndsWait calls 1 12 ∧ s.EndsWait calls 4 12 ∧ (s.machineAt calls 2 2).waiting = some 2 ∧
      ∃ g, 1 < g ∧ g < 4 ∧ 0 < s.stepsAt calls g ∧ (calls g).keys[12]? = some false := by
  intro clock s₀ s calls
  have first : s.EndsWait calls 1 12 := by
    have parts : 0 < s.stepsAt calls 1 ∧ (s.machineAt calls 1 0).waiting = some 1 ∧
        (s.machineAt calls 1 1).waiting = none ∧
        (s.machineAt calls 1 1).registers.value (1 : Fin 16) = (12 : Fin 16) := by decide +kernel
    exact ⟨parts.1, 1, parts.2⟩
  have second : s.EndsWait calls 4 12 := by
    have parts : 0 < s.stepsAt calls 4 ∧ (s.machineAt calls 4 0).waiting = some 2 ∧
        (s.machineAt calls 4 1).waiting = none ∧
        (s.machineAt calls 4 1).registers.value (2 : Fin 16) = (12 : Fin 16) := by decide +kernel
    exact ⟨parts.1, 2, parts.2⟩
  obtain ⟨-, -, -, between⟩ := press_ends_one_wait s₀ [0xF1, 0x0A, 0xF2, 0x0A, 0x12, 0x04] calls
  exact ⟨first, second, by decide +kernel, between 1 4 12 (by decide) first second⟩

end Session
end Chip8
