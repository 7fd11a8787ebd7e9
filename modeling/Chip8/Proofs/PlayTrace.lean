import Chip8.Play.Script
import Chip8.Proofs.Dashboard
import Chip8.Proofs.HeldKeys
import Chip8.Proofs.LongRuns

/-!
# The trace of a play

The loop runs a frame for each poll up to the first one that asks to quit, and draws after each. Every
drawing shows the session behind its frame, against the registers of the drawing before; so what is
highlighted, when the bell rings and that a fault freezes the picture follow from the frames of the
session alone (`Session.play_trace`).
-/

-- powers are those of `Nat` itself
attribute [local instance (high)] instPowNat

namespace Chip8

/-! ## One frame -/

namespace Session

variable {s : Session} {call : FrameCall}

/-- A frame that the clock grants is answered, and tells whether the sound came on in it. -/
theorem runFrame_answers (hk : call.keys.length = 16)
    (granted : s.fault = none → ∃ counts, (s.grant call.elapsed).2 = .ok counts) :
    ∃ s' report, s.runFrame call.keys call.elapsed = (s', .ok report) ∧
      report.soundStarted = (s'.machine.soundActive && !s.machine.soundActive) := by
  cases hf : s.fault with
  | some f =>
    refine ⟨s, .empty, runFrame_of_halted hf _ _, ?_⟩
    rw [Bool.and_not_self]
    rfl
  | none =>
    obtain ⟨counts, hg⟩ := granted hf
    have grant : s.grant call.elapsed = ((s.grant call.elapsed).1, .ok counts) := by rw [← hg]
    exact ⟨_, _, runFrame_eq hf hk grant, rfl⟩

theorem runFrame_cycles_le (s : Session) (call : FrameCall) :
    s.machine.cycles ≤ (s.runFrame call.keys call.elapsed).1.machine.cycles := by
  rcases s.runFrame_cases call with ⟨-, still⟩ | ⟨clock, e, refused⟩ | ⟨running, hk, clock, counts, hg⟩
  · rw [still]
  · rw [refused]
  · have granted : (s.grant call.elapsed).2 = .ok counts := by rw [hg]
    obtain ⟨report, -, frame⟩ := frameRuns running hk granted
    rw [frame.machine_eq, Machine.cycles_after]
    · exact Nat.le_add_right _ _
    · intro action mem
      exact (call.actions_driven counts action ((Machine.upToError_prefix _ _).subset mem)).2

theorem runFrame_frames_le (s : Session) (call : FrameCall) :
    s.frames ≤ (s.runFrame call.keys call.elapsed).1.frames := by
  rcases s.runFrame_cases call with ⟨-, still⟩ | ⟨clock, e, refused⟩ | ⟨running, hk, clock, counts, hg⟩
  · rw [still]
  · rw [refused]
  · rw [runFrame_eq running hk hg]
    exact Nat.le_succ _

variable {calls : Nat → FrameCall}

/-- Frames never count back, so what can be written behind some of them could be before. -/
theorem Writable.before {n k : Nat} (h : n ≤ k) (behind : (s.afterFrames calls k).Writable) :
    (s.afterFrames calls n).Writable := by
  induction h with
  | refl => exact behind
  | @step m _ ih =>
    rw [afterFrames] at behind
    have cycles := runFrame_cycles_le (s.afterFrames calls m) (calls m)
    have frames := runFrame_frames_le (s.afterFrames calls m) (calls m)
    exact ih ⟨Nat.lt_of_le_of_lt cycles behind.cycles_lt, Nat.lt_of_le_of_lt frames behind.frames_lt⟩

end Session

namespace Play

variable {s : Session} {readings : Readings} {typed : List (List Char)} {n : Nat}

/-! ## The script -/

/-- What a clock shows from reading `k` on. -/
def remaining (readings : Readings) (k : Nat) : Readings := readings.drop (min k (readings.length - 1))

theorem read_remaining (readings : Readings) (k : Nat) :
    read (remaining readings k) = (readingAt readings k, remaining readings (k + 1)) := by
  rcases Nat.lt_or_ge (k + 1) readings.length with inner | outer
  · -- another reading follows
    have here : remaining readings k = readings[k] :: readings[k + 1] :: readings.drop (k + 2) := by
      rw [remaining, Nat.min_eq_left (by omega), List.drop_eq_getElem_cons (by omega),
        List.drop_eq_getElem_cons inner]
    have next : remaining readings (k + 1) = readings[k + 1] :: readings.drop (k + 2) := by
      rw [remaining, Nat.min_eq_left (by omega), List.drop_eq_getElem_cons inner]
    have reading : readingAt readings k = readings[k] := by
      rw [readingAt, List.getD_eq_getElem _ _ (by omega)]
    rw [here, next, reading]
    rfl
  · -- the last reading stays
    have same : remaining readings (k + 1) = remaining readings k := by
      rw [remaining, remaining, Nat.min_eq_right (by omega), Nat.min_eq_right (by omega)]
    rw [same]
    rcases List.eq_nil_or_concat readings with rfl | ⟨front, last, rfl⟩
    · rw [remaining, List.drop_nil]
      rfl
    · rw [List.concat_eq_append, List.length_append, List.length_singleton] at outer
      rw [List.concat_eq_append]
      have ends : remaining (front ++ [last]) k = [last] := by
        rw [remaining, List.length_append, List.length_singleton, Nat.add_sub_cancel,
          Nat.min_eq_right (by omega), List.drop_left]
      have reading : readingAt (front ++ [last]) k = last := by
        rw [readingAt, List.getLast?_concat, Option.getD_some]
        rcases Nat.lt_or_eq_of_le (Nat.le_of_succ_le_succ outer) with beyond | rfl
        · exact List.getD_eq_default _ _ (by simp; omega)
        · simp
      rw [ends, reading]
      rfl

theorem keysAt_quitRequested (h : ∀ i < n, quits (typedAt typed i) = false) :
    (keysAt typed n).quitRequested = false := by
  induction n with
  | zero => rfl
  | succ n ih =>
    show ((keysAt typed n).feed (typedAt typed n)).quitRequested = false
    rw [HeldKeys.feed_quitRequested, ih fun i hi => h i (Nat.lt_succ_of_lt hi),
      ← quits, h n (Nat.lt_succ_self n)]
    rfl

/-! ## The loop -/

/-- The loop before frame `n`, with the session it has then. -/
def stateAt (session : Session) (readings : Readings) (typed : List (List Char)) (n : Nat) : State where
  session := session
  keys := keysAt typed n
  readings := remaining readings (2 * n + 1)
  last := readingAt readings (2 * n - 1)
  shown := session.machine.registers

/-- A drawing shows a session behind a frame, against what was there before the frame. -/
structure Shows (before after : Session) (d : Drawing) : Prop where
  dashboard : after.dashboard (some before.machine.registers) "" = .ok d.dashboard
  bell : d.bell = (after.machine.soundActive && !before.machine.soundActive)

namespace Shows

variable {before after : Session} {d : Drawing}

theorem highlights_iff (h : Shows before after d) {r : Nat} (hr : r < 16) :
    Panel.Highlights d.dashboard.registers.text r ↔
      after.machine.registers.read r ≠ before.machine.registers.read r := by
  rw [Session.dashboard_registers h.dashboard, Panel.highlights_iff _ _ hr]
  simp

theorem bell_iff (h : Shows before after d) (wellFormed : before.machine.WellFormed) :
    d.bell = true ↔ before.machine.soundTimer = 0 ∧ 0 < after.machine.soundTimer := by
  have low := wellFormed.sound_nonneg
  rw [h.bell, Bool.and_eq_true, Bool.not_eq_true', Machine.soundActive, Machine.soundActive,
    decide_eq_true_iff, decide_eq_false_iff_not]
  omega

/-- A session that stands still is drawn again without a highlight. -/
theorem frozen (h : Shows after after d) {d₀ : Drawing} {registers : Option Registers}
    (drawn : after.dashboard registers "" = .ok d₀.dashboard) :
    d.bell = false ∧ (∀ r < 16, ¬ Panel.Highlights d.dashboard.registers.text r) ∧
      d.dashboard = { d₀.dashboard with
        registers := ⟨"Registers", Panel.registerMarkup after.machine none⟩ } := by
  refine ⟨by rw [h.bell, Bool.and_not_self], ?_, ?_⟩
  · intro r hr highlighted
    exact (h.highlights_iff hr).mp highlighted rfl
  · have again := Session.dashboard_before drawn (some after.machine.registers)
    rw [h.dashboard, Panel.registerMarkup_same] at again
    exact Except.ok.inj again

end Shows

theorem frame_stateAt {before after : Session} {report : FrameReport} {d : Dashboard}
    (answered : before.runFrame (callAt readings typed n).keys (callAt readings typed n).elapsed =
      (after, .ok report))
    (drawn : after.dashboard (some before.machine.registers) "" = .ok d) :
    frame (stateAt before readings typed n) (typedAt typed n) =
      .ok (stateAt after readings typed (n + 1), ⟨d, report.soundStarted,
        spare (readingAt readings (2 * n + 1)) (readingAt readings (2 * n + 2))⟩) := by
  have last : 2 * (n + 1) - 1 = 2 * n + 1 := by omega
  have ahead : 2 * (n + 1) + 1 = 2 * n + 2 + 1 := by omega
  have asked : frame (stateAt before readings typed n) (typedAt typed n) =
      draw (stateAt before readings typed n) (readingAt readings (2 * n + 1)) (keysAt typed (n + 1))
        (remaining readings (2 * n + 2))
        (before.runFrame (callAt readings typed n).keys (callAt readings typed n).elapsed) := by
    rw [frame]
    simp only [stateAt, read_remaining, callAt, keysAt]
  rw [asked, answered, draw, stateAt, stateAt, last, ahead]
  simp only [read_remaining, drawn]

/-- Poll `last` is the first one whose input asks to quit. -/
structure QuitsAt (typed : List (List Char)) (last : Nat) : Prop where
  within : last ≤ typed.length
  before : ∀ i < last, quits (typedAt typed i) = false
  asks : quits (typedAt typed last) = true

theorem quitsAt_findIdx (typed : List (List Char)) :
    QuitsAt typed ((typed ++ [['\x1b']]).findIdx quits) := by
  have length : (typed ++ [['\x1b']]).length = typed.length + 1 := List.length_append
  have found : (typed ++ [['\x1b']]).findIdx quits < (typed ++ [['\x1b']]).length :=
    List.findIdx_lt_length_of_exists ⟨['\x1b'], by simp, rfl⟩
  have at_poll : ∀ (i : Nat) (hi : i < (typed ++ [['\x1b']]).length),
      typedAt typed i = (typed ++ [['\x1b']])[i] := by
    intro i hi
    rcases Nat.lt_or_eq_of_le (Nat.le_of_lt_succ (length ▸ hi)) with scripted | rfl
    · rw [typedAt, List.getD_eq_getElem _ _ scripted, List.getElem_append_left scripted]
    · rw [typedAt, List.getD_eq_default _ _ (Nat.le_refl _)]
      simp
  refine ⟨by omega, ?_, ?_⟩
  · intro i hi
    rw [at_poll i (Nat.lt_trans hi found)]
    exact List.not_of_lt_findIdx hi
  · rw [at_poll _ found]
    exact List.findIdx_getElem

section

variable {st st' : State} {d : Drawing} {input : List Char} {rest : List (List Char)}

theorem frames_escape (h : frame st ['\x1b'] = .ok (st', d)) : frames st [] = .ok (st', [d]) := by
  rw [frames, h]

theorem frames_quit (h : frame st input = .ok (st', d)) (asks : st'.keys.quitRequested = true) :
    frames st (input :: rest) = .ok (st', [d]) := by
  rw [frames, h]
  exact if_pos asks

theorem frames_next (h : frame st input = .ok (st', d)) (stays : st'.keys.quitRequested = false)
    {last : State} {drawings : List Drawing} (more : frames st' rest = .ok (last, drawings)) :
    frames st (input :: rest) = .ok (last, d :: drawings) := by
  rw [frames, h]
  simp only [stays, more]
  rfl

end

/-- The drawings of the frames from `n` to `last`, each with the sessions around its frame. -/
structure Traces (S : Nat → Session) (n last : Nat) (drawings : List Drawing) : Prop where
  length_eq : drawings.length = last + 1 - n
  shows : ∀ i, n ≤ i → i ≤ last → ∃ d, drawings[i - n]? = some d ∧ Shows (S i) (S (i + 1)) d

theorem Traces.single {S : Nat → Session} {d : Drawing} (h : Shows (S n) (S (n + 1)) d) :
    Traces S n n [d] := by
  refine ⟨by simp, ?_⟩
  intro i low high
  obtain rfl := Nat.le_antisymm high low
  exact ⟨d, by simp, h⟩

theorem Traces.cons {S : Nat → Session} {d : Drawing} {last : Nat} {drawings : List Drawing}
    (h : Shows (S n) (S (n + 1)) d) (later : Traces S (n + 1) last drawings) (hn : n < last) :
    Traces S n last (d :: drawings) := by
  have length := later.length_eq
  refine ⟨by rw [List.length_cons]; omega, ?_⟩
  intro i low high
  rcases Nat.lt_or_eq_of_le low with after | rfl
  · obtain ⟨d', found, shows⟩ := later.shows i after high
    have behind : i - n = i - (n + 1) + 1 := by omega
    exact ⟨d', by rw [behind, List.getElem?_cons_succ, found], shows⟩
  · exact ⟨d, by simp, h⟩

theorem drop_typed (h : n < typed.length) : typed.drop n = typedAt typed n :: typed.drop (n + 1) := by
  rw [List.drop_eq_getElem_cons h, typedAt, List.getD_eq_getElem _ _ h]

theorem QuitsAt.keysAt_succ {last : Nat} (h : QuitsAt typed last) (hn : n ≤ last) :
    (keysAt typed (n + 1)).quitRequested = quits (typedAt typed n) := by
  show ((keysAt typed n).feed (typedAt typed n)).quitRequested = _
  rw [HeldKeys.feed_quitRequested,
    keysAt_quitRequested fun i hi => h.before i (Nat.lt_of_lt_of_le hi hn), Bool.false_or,
    quits]

/-- The loop runs a frame for each poll until one asks to quit, if each of these frames can be run and
drawn. -/
theorem frames_traces {S : Nat → Session} {last : Nat} (quitting : QuitsAt typed last)
    (runs : ∀ i ≤ last, ∃ d, Shows (S i) (S (i + 1)) d ∧
      frame (stateAt (S i) readings typed i) (typedAt typed i) =
        .ok (stateAt (S (i + 1)) readings typed (i + 1), d)) (hn : n ≤ last) :
    ∃ drawings, Traces S n last drawings ∧
      frames (stateAt (S n) readings typed n) (typed.drop n) =
        .ok (stateAt (S (last + 1)) readings typed (last + 1), drawings) := by
  obtain ⟨left, hleft⟩ : ∃ left, last = n + left := ⟨last - n, by omega⟩
  have scripted := quitting.within
  -- on the polls that are left
  induction left generalizing n with
  | zero =>
    obtain rfl : last = n := hleft
    obtain ⟨d, shows, run⟩ := runs last hn
    refine ⟨[d], .single shows, ?_⟩
    rcases Nat.lt_or_eq_of_le scripted with inside | ends
    · rw [drop_typed inside]
      exact frames_quit run ((quitting.keysAt_succ hn).trans quitting.asks)
    · have escape : typedAt typed last = ['\x1b'] := List.getD_eq_default _ _ (by omega)
      rw [List.drop_eq_nil_of_le (by omega)]
      rw [escape] at run
      exact frames_escape run
  | succ left ih =>
    have ahead : n < last := by omega
    obtain ⟨d, shows, run⟩ := runs n hn
    obtain ⟨drawings, traces, more⟩ := ih ahead (by omega)
    refine ⟨d :: drawings, traces.cons shows ahead, ?_⟩
    rw [drop_typed (by omega)]
    exact frames_next run ((quitting.keysAt_succ hn).trans (quitting.before n ahead)) more

theorem play_eq {first : Dashboard} (drawn : s.dashboard none "" = .ok first) {st : State}
    {drawings : List Drawing}
    (looped : frames (stateAt s readings typed 0) typed = .ok (st, drawings)) :
    s.play readings typed = .ok (st.session, ⟨first, false, none⟩ :: drawings) := by
  have reading : read readings = (readingAt readings 0, remaining readings 1) := by
    rw [← read_remaining, remaining, Nat.zero_min, List.drop_zero]
  rw [stateAt, keysAt] at looped
  rw [Session.play, drawn, reading]
  simp only [looped]

end Play

namespace Session

/-- The frames of a session whose machine has agreeing counts can be drawn, as long as the clock grants
them and the counts can be written. -/
theorem frames_run_and_draw {s : Session} {start : Nat} (accounts : s.machine.Accounts start)
    {readings : Play.Readings} {typed : List (List Char)} {n : Nat}
    (granted : (s.afterFrames (Play.callAt readings typed) n).fault = none → ∃ counts,
      ((s.afterFrames (Play.callAt readings typed) n).grant
        (Play.callAt readings typed n).elapsed).2 = .ok counts)
    (writable : (s.afterFrames (Play.callAt readings typed) (n + 1)).Writable) :
    ∃ d, Play.Shows (s.afterFrames (Play.callAt readings typed) n)
        (s.afterFrames (Play.callAt readings typed) (n + 1)) d ∧
      Play.frame (Play.stateAt (s.afterFrames (Play.callAt readings typed) n) readings typed n)
          (Play.typedAt typed n) =
        .ok (Play.stateAt (s.afterFrames (Play.callAt readings typed) (n + 1)) readings typed (n + 1),
          d) := by
  have mask : (Play.callAt readings typed n).keys.length = 16 := Vector.length_toList
  obtain ⟨after, report, answered, sound⟩ := runFrame_answers mask granted
  have reached : s.afterFrames (Play.callAt readings typed) (n + 1) = after := by
    rw [afterFrames, answered]
  obtain ⟨_, counted⟩ := (s.afterFrames_drives (Play.callAt readings typed) (n + 1)).accounts accounts
  rw [reached] at counted writable ⊢
  obtain ⟨d, drawn⟩ := dashboard_ok counted writable
    (some (s.afterFrames (Play.callAt readings typed) n).machine.registers) ""
  exact ⟨_, ⟨drawn, sound⟩, Play.frame_stateAt answered drawn⟩

/-- **Trace law of the interactive loop.** A session that has loaded a program, and then been driven in
any way, is played with any readings of the clock and any texts typed before the polls. If the clock
grants each frame in which the session is not halted, and the cycles and frames can be written, then:

* as many frames run as there are polls up to and including the first one whose input asks to quit,
  and there is one drawing before the loop and one behind each frame;
* the first drawing highlights nothing, and each later one exactly those registers whose value differs
  from that at the drawing before;
* the bell rings in a frame exactly if the sound timer was zero when it began and above zero when it
  ended;
* once a session is halted, by whatever frame, nothing of it changes, the bell does not ring, and every
  drawing has the content of the one that first showed the fault, with nothing highlighted. -/
theorem play_trace {s₀ s : Session} (sized : s₀.machine.Sized) {program : List UInt8}
    {actions : List Action} (loaded : s = (s₀.load program).1.after actions)
    {readings : Play.Readings} {typed : List (List Char)}
    (granted : ∀ n < Play.pollCount typed,
      (s.afterFrames (Play.callAt readings typed) n).fault = none → ∃ counts,
        ((s.afterFrames (Play.callAt readings typed) n).grant
          (Play.callAt readings typed n).elapsed).2 = .ok counts)
    (writable : (s.afterFrames (Play.callAt readings typed) (Play.pollCount typed)).Writable) :
    let polls := Play.pollCount typed
    let S := s.afterFrames (Play.callAt readings typed)
    ∃ drawings, s.play readings typed = .ok (S polls, drawings) ∧ drawings.length = polls + 1 ∧
      (∃ d, drawings[0]? = some d ∧ s.dashboard none "" = .ok d.dashboard ∧ d.bell = false ∧
        ∀ r < 16, ¬ Panel.Highlights d.dashboard.registers.text r) ∧
      (∀ n < polls, ∃ d, drawings[n + 1]? = some d ∧
        (S (n + 1)).dashboard (some (S n).machine.registers) "" = .ok d.dashboard ∧
        (∀ r < 16, Panel.Highlights d.dashboard.registers.text r ↔
          (S (n + 1)).machine.registers.read (r : Nat) ≠ (S n).machine.registers.read (r : Nat)) ∧
        (d.bell = true ↔ (S n).machine.soundTimer = 0 ∧ 0 < (S (n + 1)).machine.soundTimer)) ∧
      ∀ k n d d', (S k).fault ≠ none → k ≤ n → n < polls →
        drawings[k]? = some d → drawings[n + 1]? = some d' →
        S (n + 1) = S k ∧ d'.bell = false ∧
          (∀ r < 16, ¬ Panel.Highlights d'.dashboard.registers.text r) ∧
          d'.dashboard = { d.dashboard with
            registers := ⟨"Registers", Panel.registerMarkup (S k).machine none⟩ } := by
  intro polls S
  have driven : Machine.Drives (s₀.machine.load program).1 s.machine := by
    rw [loaded, ← load_machine]
    exact after_drives _ actions
  have wellFormed : ∀ n, (S n).machine.WellFormed := fun n =>
    (driven.trans (s.afterFrames_drives _ n)).wellFormed (sized.load_wellFormed program)
  obtain ⟨start, accounts⟩ := driven.accounts (s₀.machine.load_accounts program)
  have short : ∀ n ≤ polls, (S n).Writable := fun n hn => writable.before hn
  obtain ⟨first, drawn⟩ := dashboard_ok accounts (short 0 (Nat.zero_le _)) none ""
  have quitting := Play.quitsAt_findIdx typed
  have runs : ∀ i ≤ (typed ++ [['\x1b']]).findIdx Play.quits, ∃ d, Play.Shows (S i) (S (i + 1)) d ∧
      Play.frame (Play.stateAt (S i) readings typed i) (Play.typedAt typed i) =
        .ok (Play.stateAt (S (i + 1)) readings typed (i + 1), d) := by
    intro i hi
    exact frames_run_and_draw accounts (granted i (Nat.lt_succ_of_le hi))
      (short (i + 1) (Nat.succ_le_succ hi))
  obtain ⟨drawings, traces, looped⟩ := Play.frames_traces quitting runs (Nat.zero_le _)
  have shows : ∀ n < polls, ∃ d, drawings[n]? = some d ∧ Play.Shows (S n) (S (n + 1)) d := fun n hn =>
    traces.shows n (Nat.zero_le n) (Nat.le_of_lt_succ hn)
  have length : drawings.length = polls := traces.length_eq
  refine ⟨_, Play.play_eq drawn looped, by rw [List.length_cons, length], ?_, ?_, ?_⟩
  · refine ⟨_, rfl, drawn, rfl, ?_⟩
    intro r hr
    rw [dashboard_registers drawn, Panel.highlights_iff _ _ hr]
    simp
  · intro n hn
    obtain ⟨d, found, shown⟩ := shows n hn
    exact ⟨d, found, shown.dashboard, fun r hr => shown.highlights_iff hr,
      shown.bell_iff (wellFormed n)⟩
  · intro k n d d' halted hk hn found found'
    obtain ⟨f, hf⟩ := Option.ne_none_iff_exists'.mp halted
    have still : ∀ later, S (k + later) = S k := afterFrames_of_halted hf
    have now : S n = S k := by rw [← still (n - k), Nat.add_sub_cancel' hk]
    have next : S (n + 1) = S k := by rw [← still (n + 1 - k), Nat.add_sub_cancel' (by omega)]
    obtain ⟨d₁, found₁, shown⟩ := shows n hn
    obtain rfl : d₁ = d' := Option.some.inj (found₁.symm.trans found')
    rw [now, next] at shown
    -- the drawing before the loop has no earlier registers, and any other one has
    obtain ⟨registers, drawn⟩ : ∃ registers, (S k).dashboard registers "" = .ok d.dashboard := by
      cases k with
      | zero =>
        obtain rfl := Option.some.inj found
        exact ⟨none, drawn⟩
      | succ k =>
        obtain ⟨d₂, found₂, shown⟩ := shows k (by omega)
        obtain rfl : d₂ = d := Option.some.inj (found₂.symm.trans found)
        exact ⟨_, shown.dashboard⟩
    exact ⟨next, shown.frozen drawn⟩

/-- The first of two frames sets a register and then faults, and the second one quits. The register is
highlighted behind the first frame only. -/
theorem play_trace_frozen :
    let clock : FrameClock Binary64 := ⟨60, 60, FrameClock.defaultMaxElapsed, .zero, .zero⟩
    let s := ((start (Machine.powerOn .modern .zero) clock).load [0x60, 0x05, 0x00, 0xEE]).1
    let readings : Play.Readings := [.zero, .finite false Binary64.unitsPerOne]
    ∃ last drawings d d', s.play readings [[], ['\x1b']] = .ok (last, drawings) ∧
      drawings.length = 3 ∧ drawings[1]? = some d ∧ drawings[2]? = some d' ∧
      Panel.Highlights d.dashboard.registers.text 0 ∧
      ¬ Panel.Highlights d'.dashboard.registers.text 0 := by
  intro clock s readings
  have sized := (Machine.powerOn_wellFormed .modern .zero).sized
  have polls : Play.pollCount [[], ['\x1b']] = 2 := rfl
  have grants : ∀ n < 2, ((s.afterFrames (Play.callAt readings [[], ['\x1b']]) n).grant
      (Play.callAt readings [[], ['\x1b']] n).elapsed).2.toOption.isSome := by decide +kernel
  have states : (s.afterFrames (Play.callAt readings [[], ['\x1b']]) 1).fault ≠ none ∧
      (s.afterFrames (Play.callAt readings [[], ['\x1b']]) (0 + 1)).machine.registers.read (0 : Nat) ≠
        (s.afterFrames (Play.callAt readings [[], ['\x1b']]) 0).machine.registers.read (0 : Nat) := by
    decide +kernel
  have writable : (s.afterFrames (Play.callAt readings [[], ['\x1b']]) 2).Writable :=
    ⟨by decide +kernel, by decide +kernel⟩
  have granted : ∀ n < 2, (s.afterFrames (Play.callAt readings [[], ['\x1b']]) n).fault = none →
      ∃ counts, ((s.afterFrames (Play.callAt readings [[], ['\x1b']]) n).grant
        (Play.callAt readings [[], ['\x1b']] n).elapsed).2 = .ok counts := by
    intro n hn _
    have some_counts := grants n hn
    generalize ((s.afterFrames (Play.callAt readings [[], ['\x1b']]) n).grant
      (Play.callAt readings [[], ['\x1b']] n).elapsed).2 = answer at some_counts ⊢
    cases answer with
    | error e => exact absurd some_counts (by simp [Except.toOption])
    | ok counts => exact ⟨counts, rfl⟩
  rw [← polls] at granted writable
  obtain ⟨drawings, played, length, -, later, frozen⟩ :=
    @play_trace (start (Machine.powerOn .modern .zero) clock) s sized [0x60, 0x05, 0x00, 0xEE] [] rfl
      readings [[], ['\x1b']] granted writable
  rw [polls] at later frozen
  obtain ⟨d, found, -, highlights, -⟩ := later 0 (by decide)
  obtain ⟨d', found', -⟩ := later 1 (by decide)
  obtain ⟨-, -, plain, -⟩ := frozen 1 1 d d' states.1 (by decide) (by decide) found found'
  have changed := (highlights 0 (by decide)).mpr states.2
  exact ⟨_, drawings, d, d', played, length, found, found', changed, plain 0 (by decide)⟩

theorem play_undrawn {s : Session} {e : Panel.DrawingError} (undrawn : s.dashboard none "" = .error e)
    (readings : Play.Readings) (typed : List (List Char)) :
    s.play readings typed = .error (.drawing e) := by
  rw [play, undrawn]

/-- A clock cannot multiply with a rate that is too large for the format, not even no time at all. -/
theorem play_of_large_rate :
    let clock : FrameClock Binary64 :=
      ⟨(2 ^ (1024 : Nat) : Nat), 60, FrameClock.defaultMaxElapsed, .zero, .zero⟩
    ((start (Machine.powerOn .modern .zero) clock).load [0x12, 0x00]).1.play [.zero] [] =
      .error (.frame (.clock .tooLarge)) := by
  intro clock
  have computed : (match
      ((start (Machine.powerOn .modern .zero) clock).load [0x12, 0x00]).1.play [.zero] [] with
      | .error e => some e
      | .ok _ => none) = some (.frame (.clock .tooLarge)) := by decide +kernel
  generalize ((start (Machine.powerOn .modern .zero) clock).load [0x12, 0x00]).1.play [.zero] [] =
    answer at computed ⊢
  cases answer with
  | error e => rw [Option.some.inj computed]
  | ok played => exact absurd computed (by simp)

/-- The loop breaks off where the clock or the drawing does. A single frame for which no time passes is
not run at a rate that is too large for the format, as the clock cannot multiply with it. And a session
is not drawn whose frames are too many to be written, or its cycles. -/
theorem play_breaks_off :
    let loaded (rate : Int) := ((start (.powerOn .modern .zero)
      ⟨rate, 60, FrameClock.defaultMaxElapsed, .zero, .zero⟩).load [0x12, 0x00]).1
    let limit := 10 ^ Numeral.decimalLimit
    let tenth := 10 ^ (Numeral.decimalLimit - 1)
    let still := (loaded 60).after
      (List.replicate limit (.frame ⟨Keypad.released.toList, some .zero⟩))
    let fast := (loaded 600).after (List.replicate tenth (.frame ⟨Keypad.released.toList, none⟩))
    (Play.pollCount [] = 1 ∧ (Play.callAt [.zero] [] 0).elapsed = some .zero ∧
      (loaded (2 ^ (1024 : Nat) : Nat)).play [.zero] [] = .error (.frame (.clock .tooLarge))) ∧
    (still.machine.cycles = 0 ∧ still.frames = limit ∧
      still.play [.zero] [] = .error (.drawing .unwritable)) ∧
    (fast.machine.cycles = limit ∧ fast.frames = tenth ∧
      fast.play [.zero] [] = .error (.drawing (.statistics .unwritable))) := by
  intro loaded limit tenth still fast
  have bound : 10 ^ Numeral.decimalLimit ≤ limit := Nat.le_refl _
  have tenfold : tenth * 10 = limit := Numeral.tenfold_limit
  -- from here on nothing may compute the counts
  clear_value limit tenth
  obtain ⟨unstepped, shown, unshown⟩ := still_undrawn bound none ""
  obtain ⟨cycles, frames, undrawn⟩ := fast_undrawn (tenfold ▸ bound) none ""
  exact ⟨⟨rfl, rfl, play_of_large_rate⟩, ⟨unstepped, shown, play_undrawn unshown _ _⟩,
    cycles.trans tenfold, frames, play_undrawn undrawn _ _⟩

end Session
end Chip8
