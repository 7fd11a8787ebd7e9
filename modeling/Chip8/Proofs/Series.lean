import Chip8.Keypad.Held
import Chip8.Proofs.Overflow
import Chip8.Proofs.SessionRun

/-!
# Frames in a row

A series of frames can be divided anywhere, also into two calls (`Session.runFrames_compose`). Without
input it comes to what the single calls come to, and counts those that found the session running
(`Session.runFrames_idle`).
-/

namespace Chip8

namespace KeySource

/-- The source tells the states of 16 keys, whatever state it is in itself. -/
def Sized {σ : Type} (keys : KeySource σ) : Prop := ∀ source, (keys.poll source).1.length = 16

theorem sized_idle : idle.Sized := fun _ => rfl

theorem sized_heldKeys : HeldKeys.source.Sized := fun _ => Vector.length_toList

/-- The source with a count of how often it was polled. -/
def counted {σ : Type} (keys : KeySource σ) : KeySource (σ × Nat) where
  poll source := ((keys.poll source.1).1, (keys.poll source.1).2, source.2 + 1)

end KeySource

namespace Session

namespace Series

variable {σ : Type} {keys : KeySource σ} {r : Series σ}

theorem extend_of_ended (h : r.ended = true) (count : Nat) : r.extend keys count = r := by
  cases count with
  | zero => rfl
  | succ count => rw [extend, if_pos h]

theorem extend_add (first second : Nat) :
    r.extend keys (first + second) = (r.extend keys first).extend keys second := by
  induction first generalizing r with
  | zero => rw [Nat.zero_add, extend]
  | succ first ih =>
    rw [Nat.succ_add, extend, extend]
    by_cases h : r.ended = true
    · rw [if_pos h, if_pos h, extend_of_ended h]
    · rw [if_neg h, if_neg h, ih]

theorem extend_succ (count : Nat) :
    r.extend keys (count + 1) =
      if (r.extend keys count).ended then r.extend keys count
      else (r.extend keys count).next keys := by
  rw [extend_add, extend]
  rfl

theorem next_of_ok {report : FrameReport}
    (h : (r.session.runFrame (keys.poll r.source).1 none).2 = .ok report) :
    r.next keys =
      { r with
        session := (r.session.runFrame (keys.poll r.source).1 none).1
        source := (keys.poll r.source).2
        ran := r.ran + 1 } := by
  simp only [next, h]

theorem next_of_error {e : FrameError}
    (h : (r.session.runFrame (keys.poll r.source).1 none).2 = .error e) :
    r.next keys =
      { r with
        session := (r.session.runFrame (keys.poll r.source).1 none).1
        source := (keys.poll r.source).2
        error := some e } := by
  simp only [next, h]

/-- The series as part of a longer one, with the frames counted that ran before. -/
def behind (before : Nat) (r : Series σ) : Series σ := { r with ran := before + r.ran }

/-- The series with the polls of its source counted. -/
def withPolls (polls : Nat) (r : Series σ) : Series (σ × Nat) :=
  ⟨r.session, (r.source, polls), r.ran, r.error⟩

theorem next_behind (before : Nat) : (r.behind before).next keys = (r.next keys).behind before := by
  simp only [next, behind]
  cases (r.session.runFrame (keys.poll r.source).1 none).2 <;> rfl

theorem next_withPolls (polls : Nat) :
    (r.withPolls polls).next keys.counted = (r.next keys).withPolls (polls + 1) := by
  simp only [next, withPolls, KeySource.counted]
  cases (r.session.runFrame (keys.poll r.source).1 none).2 <;> rfl

/-- Frames that ran before change the count, and nothing else. -/
theorem extend_behind (before count : Nat) :
    (r.behind before).extend keys count = (r.extend keys count).behind before := by
  have ended : (r.behind before).ended = r.ended := rfl
  induction count generalizing r with
  | zero => rfl
  | succ count ih =>
    rw [extend, extend, ended]
    split
    · rfl
    · rw [next_behind, ih rfl]

/-- A further call behind a series, with the frames of both counted. None is made if the series failed. -/
def continued (keys : KeySource σ) (count : Nat) (r : Series σ) : Series σ :=
  if r.error.isSome then r else (runFrames keys count r.session r.source).behind r.ran

theorem extend_eq_continued (count : Nat) : r.extend keys count = r.continued keys count := by
  rw [continued]
  split
  · rename_i failed
    exact extend_of_ended (by rw [ended, failed, Bool.or_true]) count
  · rename_i clean
    have resumed : r = behind r.ran ⟨r.session, r.source, 0, none⟩ := by
      rw [Option.not_isSome_iff_eq_none] at clean
      rw [behind, ← clean]
      rfl
    rw [runFrames, ← extend_behind, ← resumed]

end Series

/-! ## Two calls -/

section Calls

variable {σ : Type} {keys : KeySource σ} {s : Session} {source : σ} {count : Nat}

theorem runFrames_succ : runFrames keys (count + 1) s source =
    if (runFrames keys count s source).ended then runFrames keys count s source
    else (runFrames keys count s source).next keys :=
  Series.extend_succ count

/-- One frame more is not run behind the end of a series. Otherwise the session runs, and so does the
frame, or it is refused. -/
theorem runFrames_step (keys : KeySource σ) (s : Session) (source : σ) (count : Nat) :
    let r := runFrames keys count s source
    let answer := (r.session.runFrame (keys.poll r.source).1 none).2
    r.ended = true ∧ runFrames keys (count + 1) s source = r ∨
    r.session.fault = none ∧ r.error = none ∧ runFrames keys (count + 1) s source = r.next keys ∧
      ((∃ report, answer = .ok report) ∨ ∃ e, answer = .error e) := by
  intro r answer
  by_cases ended : r.ended = true
  · exact .inl ⟨ended, by rw [runFrames_succ, if_pos ended]⟩
  · obtain ⟨running, clean⟩ : r.session.fault = none ∧ r.error = none := by
      simpa [Series.ended, Session.halted] using ended
    refine .inr ⟨running, clean, by rw [runFrames_succ, if_neg ended], ?_⟩
    cases answer with
    | ok report => exact .inl ⟨report, rfl⟩
    | error e => exact .inr ⟨e, rfl⟩

theorem runFrames_of_halted (h : s.halted = true) : runFrames keys count s source = ⟨s, source, 0, none⟩ :=
  Series.extend_of_ended (by rw [Series.ended, h, Bool.true_or]) count

/-- What a call for a number of frames comes to if it does not fail: the frames that ran are those that
the session counts and for which the source was polled and the clock asked, and they are fewer than asked
for only if the session is halted. -/
structure Returns (keys : KeySource σ) (count : Nat) (s : Session) (source : σ) (r : Series σ) : Prop where
  frames_eq : r.session.frames = s.frames + r.ran
  polls_eq : ∀ polls, runFrames keys.counted count s (source, polls) = r.withPolls (polls + r.ran)
  clock_eq : r.session.clock = s.clock.framed r.ran
  ran_le : r.ran ≤ count
  halted_of_lt : r.ran < count → r.session.halted = true

/-- One more frame that runs. -/
theorem Returns.next {r : Series σ} {report : FrameReport} (h : Returns keys count s source r)
    (running : r.session.fault = none) (clean : r.error = none)
    (answered : (r.session.runFrame (keys.poll r.source).1 none).2 = .ok report) :
    Returns keys (count + 1) s source (r.next keys) := by
  have next := Series.next_of_ok answered
  -- a session that runs has run all the frames asked for
  have all : r.ran = count := by
    refine Nat.le_antisymm h.ran_le (Nat.not_lt.mp ?_)
    intro fewer
    exact not_halted running (h.halted_of_lt fewer)
  constructor
  case frames_eq =>
    rw [next, runFrame_frames running answered, h.frames_eq, Nat.add_assoc]
  case polls_eq =>
    intro polls
    have goes_on : ¬ (r.withPolls (polls + r.ran)).ended = true := by
      simp [Series.withPolls, Series.ended, Session.halted, running, clean]
    rw [runFrames_succ, h.polls_eq, if_neg goes_on, Series.next_withPolls, next, Nat.add_assoc]
  case clock_eq =>
    rw [next, runFrame_clock running, FrameClock.framed, ← h.clock_eq]
    rfl
  case ran_le =>
    rw [next]
    exact Nat.succ_le_succ h.ran_le
  case halted_of_lt =>
    rw [next, all]
    exact fun fewer => absurd fewer (Nat.lt_irrefl _)

/-- No frame runs once the session is halted. -/
theorem Returns.halt {r : Series σ} (h : Returns keys count s source r) (halted : r.session.halted = true) :
    Returns keys (count + 1) s source r := by
  refine { h with polls_eq := ?_, ran_le := Nat.le_succ_of_le h.ran_le, halted_of_lt := fun _ => halted }
  intro polls
  have ended : (r.withPolls (polls + r.ran)).ended = true := by
    rw [Series.ended, Series.withPolls, halted, Bool.true_or]
  rw [runFrames_succ, h.polls_eq, if_pos ended]

theorem runFrames_returns (h : (runFrames keys count s source).error = none) :
    Returns keys count s source (runFrames keys count s source) := by
  induction count with
  | zero => exact ⟨rfl, fun _ => rfl, rfl, Nat.le_refl _, fun fewer => absurd fewer (Nat.not_lt_zero _)⟩
  | succ count ih =>
    rcases runFrames_step keys s source count with
      ⟨ended, same⟩ | ⟨running, clean, next, ⟨report, answered⟩ | ⟨e, refused⟩⟩
    · rw [same] at h ⊢
      refine (ih h).halt ?_
      simpa [Series.ended, h] using ended
    · rw [next]
      exact (ih clean).next running clean answered
    · rw [next, Series.next_of_error refused] at h
      exact absurd h (by simp)

/-- A call fails only if the clock cannot grant a frame. -/
theorem runFrames_fails (sized : keys.Sized) {e : FrameError}
    (h : (runFrames keys count s source).error = some e) :
    ∃ cause, e = .clock cause ∧
      (s.clock.framed (runFrames keys count s source).ran).frame.2 = .error cause := by
  induction count with
  | zero => exact absurd h (by simp [runFrames, Series.extend])
  | succ count ih =>
    rcases runFrames_step keys s source count with
      ⟨ended, same⟩ | ⟨running, clean, next, ⟨report, answered⟩ | ⟨refusal, refused⟩⟩
    · rw [same] at h ⊢
      exact ih h
    · rw [next, Series.next_of_ok answered, clean] at h
      exact absurd h (by simp)
    · rw [next, Series.next_of_error refused] at h ⊢
      obtain rfl := Option.some.inj h
      obtain ⟨cause, rfl, ungranted⟩ := grant_of_refused running (sized _) refused
      rw [grant, (runFrames_returns clean).clock_eq] at ungranted
      exact ⟨cause, rfl, ungranted⟩

/-- **Calls compose.** A call for `a` frames and one for `b` frames come to a single call for all of them,
with the counts added up; a call that fails is the last one. A call that does not fail returns how many
frames the session counted, and for how many of them the source was polled: all, unless the session is
halted. A halted session is left as it is, and so is the source. A call fails only if the clock cannot
grant a frame. -/
theorem runFrames_compose (sized : keys.Sized) (s : Session) (source : σ) (a b : Nat) :
    runFrames keys (a + b) s source = (runFrames keys a s source).continued keys b ∧
    ((runFrames keys a s source).error = none →
      Returns keys a s source (runFrames keys a s source)) ∧
    (s.halted = true → runFrames keys a s source = ⟨s, source, 0, none⟩) ∧
    (∀ e, (runFrames keys a s source).error = some e → ∃ cause, e = .clock cause ∧
      (s.clock.framed (runFrames keys a s source).ran).frame.2 = .error cause) := by
  refine ⟨?_, runFrames_returns, runFrames_of_halted, fun e => runFrames_fails sized⟩
  rw [runFrames, Series.extend_add, Series.extend_eq_continued]
  rfl

/-- With a key held, the second of three frames returns without a call, and one frame and two more come to
the same. With no key they do, too. -/
theorem runFrames_compose_fault :
    let s := ((start (Machine.powerOn .modern .zero)
      ⟨60, 60, FrameClock.defaultMaxElapsed, .zero, .zero⟩).load [0x60, 0x01, 0x00, 0xEE]).1
    let held := (HeldKeys.idle 2).type 'x'
    let r := runFrames HeldKeys.source 3 s held
    r = (runFrames HeldKeys.source 1 s held).continued HeldKeys.source 2 ∧ r.ran = 2 ∧
      r.session.halted = true ∧ r.session.frames = s.frames + 2 ∧
      runFrames HeldKeys.source.counted 3 s (held, 0) = r.withPolls 2 ∧
      runFrames KeySource.idle 3 s () =
        (runFrames KeySource.idle 1 s ()).continued KeySource.idle 2 := by
  intro s held r
  obtain ⟨composed, -⟩ := runFrames_compose KeySource.sized_heldKeys s held 1 2
  obtain ⟨-, returns, -⟩ := runFrames_compose KeySource.sized_heldKeys s held 3 0
  have clean : r.error = none ∧ r.ran = 2 := by decide +kernel
  have returns : Returns HeldKeys.source 3 s held r := returns clean.1
  have frames := returns.frames_eq
  have polls := returns.polls_eq 0
  have halted := returns.halted_of_lt
  rw [clean.2] at frames polls halted
  obtain ⟨idle, -⟩ := runFrames_compose KeySource.sized_idle s () 1 2
  exact ⟨composed, clean.2, halted (by decide), frames, polls, idle⟩

end Calls

/-- A call with no key down, for one timer period. -/
def idleCall : FrameCall := ⟨Keypad.released.toList, none⟩

variable {s : Session}

/-- How many of the first `n` frames found the session running. -/
def Ran (s : Session) (calls : Nat → FrameCall) (n ran : Nat) : Prop :=
  ((s.afterFrames calls n).fault = none → ran = n) ∧
  ((s.afterFrames calls n).fault ≠ none → ∃ k < n, ran = k + 1 ∧
    (s.afterFrames calls k).fault = none ∧ (s.afterFrames calls (k + 1)).fault ≠ none)

/-- Frames without input are those of the idle call. If the clock grants all of them, none is refused. -/
theorem runFrames_idle (fresh : s.fault = none)
    (granted : ∀ n, (s.afterFrames (fun _ => idleCall) n).fault = none →
      ∃ counts, ((s.afterFrames (fun _ => idleCall) n).grant none).2 = .ok counts) (n : Nat) :
    ∃ ran, runFrames KeySource.idle n s () = ⟨s.afterFrames (fun _ => idleCall) n, (), ran, none⟩ ∧
      s.Ran (fun _ => idleCall) n ran := by
  induction n with
  | zero => exact ⟨0, rfl, fun _ => rfl, fun halted => absurd fresh halted⟩
  | succ n ih =>
    obtain ⟨ran, reached, counted⟩ := ih
    rw [runFrames] at reached
    rw [runFrames, Series.extend_succ, reached]
    cases hf : (s.afterFrames (fun _ => idleCall) n).fault with
    | some f =>
      have halted : (s.afterFrames (fun _ => idleCall) n).fault ≠ none := by
        rw [hf]
        simp
      have ended : Series.ended
          (⟨s.afterFrames (fun _ => idleCall) n, (), ran, none⟩ : Series Unit) = true := by
        rw [Series.ended, Session.halted, hf]
        rfl
      have same := afterFrames_of_halted hf 1
      rw [if_pos ended, same]
      refine ⟨ran, rfl, ?_, ?_⟩
      · intro running
        exact absurd (same ▸ running) halted
      · intro _
        obtain ⟨k, hk, count, before, behind⟩ := counted.2 halted
        exact ⟨k, Nat.lt_succ_of_lt hk, count, before, behind⟩
    | none =>
      obtain ⟨counts, grant⟩ := granted n hf
      have ongoing : ¬ Series.ended
          (⟨s.afterFrames (fun _ => idleCall) n, (), ran, none⟩ : Series Unit) = true := by
        rw [Series.ended, Session.halted, hf]
        simp
      have mask : idleCall.keys.length = 16 := by simp [idleCall]
      obtain ⟨report, answered, -⟩ := @frameRuns _ idleCall hf mask counts grant
      rw [if_neg ongoing, Series.next_of_ok answered, counted.1 hf]
      exact ⟨n + 1, rfl, fun _ => rfl, fun stopped => ⟨n, Nat.lt_succ_self n, rfl, hf, stopped⟩⟩

end Session
end Chip8
