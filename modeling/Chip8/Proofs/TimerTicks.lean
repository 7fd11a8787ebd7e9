import Chip8.Proofs.Footprint
import Chip8.Proofs.Unobserved
import Mathlib.Data.List.Induction

/-!
# Ticks between steps

Only `Fx07`, `Fx15` and `Fx18` read or set a timer. Any other step does the same before a tick and
behind it (`Machine.tick_step`), so ticks can be given at any time between steps
(`Machine.ticks_interleave`).
-/

namespace Chip8.Machine

/-- The word reads or sets a timer: `Fx07`, `Fx15` and `Fx18`. -/
def UsesTimer (w : Nat) : Prop := w / 4096 = 0xF ∧ w % 256 ∈ [0x07, 0x15, 0x18]

instance : DecidablePred UsesTimer := fun _ => inferInstanceAs (Decidable (_ ∧ _))

variable {m : Machine} {w : Nat}

/-! ## One tick and one step -/

theorem unseen_tick : Unseen tick where
  waiting_eq _ := rfl
  memory_eq _ := rfl
  index_eq _ := rfl
  stack_eq _ := rfl
  counted _ _ _ _ := rfl

theorem ignores_tick {op : Operation} (hw : w < 65536) (admitted : op.encoding.admits w = true)
    (untimed : ¬ UsesTimer w) (m : Machine) : Ignores tick m (.ofWord op w) := by
  constructor
  · rfl
  · rw [effect_eq, effect_eq]
    cases op
    case readDelay | setDelay | setSound =>
      obtain ⟨first, low⟩ := (Encoding.admits_lowByte hw (by decide) (by decide)).mp admitted
      exact absurd ⟨first, by simp [low]⟩ untimed
    all_goals rfl

theorem pollKey_tick (m : Machine) (r : Fin 16) : m.tick.pollKey r = (m.pollKey r).tick := by
  have pressed : Keypad.firstPressed? m.tick.keysSeen m.tick.keys =
      Keypad.firstPressed? m.keysSeen m.keys := rfl
  simp only [pollKey, pressed]
  cases Keypad.firstPressed? m.keysSeen m.keys <;> rfl

/-- A tick and a step that executes no word with a timer commute, also when the step looks at the
keypad or faults. -/
theorem tick_step (untimed : ∀ w, m.Executes w → ¬ UsesTimer w) :
    m.tick.step = (m.step.1.tick, m.step.2) := by
  apply unseen_tick.step fun r _ => pollKey_tick m r
  intro w op executes admitted
  exact ignores_tick executes.word_lt admitted (untimed w executes) m.advanced

theorem ticks_step (n : Nat) (untimed : ∀ w, m.Executes w → ¬ UsesTimer w) :
    (ticks n m).step = (ticks n m.step.1, m.step.2) := by
  induction n generalizing m with
  | zero => rfl
  | succ n ih =>
    have later : ∀ w, m.tick.Executes w → ¬ UsesTimer w :=
      fun w executes => untimed w (unseen_tick.executes_iff.mp executes)
    show (ticks n m.tick).step = (ticks n m.step.1.tick, m.step.2)
    rw [ih later, tick_step untimed]

/-! ## Timers -/

theorem tickTimer_eq {t : Int} (h : 0 ≤ t) : tickTimer t = max 0 (t - 1) := by
  unfold tickTimer
  split <;> omega

theorem ticks_eq (n : Nat) (hd : 0 ≤ m.delayTimer) (hs : 0 ≤ m.soundTimer) :
    ticks n m =
      { m with
        delayTimer := max 0 (m.delayTimer - n)
        soundTimer := max 0 (m.soundTimer - n) } := by
  induction n generalizing m with
  | zero =>
    have whole : ∀ t : Int, 0 ≤ t → max 0 (t - (0 : Nat)) = t := by
      intro t ht
      omega
    rw [whole _ hd, whole _ hs]
    rfl
  | succ n ih =>
    have later : ∀ t : Int, 0 ≤ t → 0 ≤ tickTimer t ∧
        max 0 (tickTimer t - n) = max 0 (t - (n + 1 : Nat)) := by
      intro t ht
      rw [tickTimer_eq ht]
      omega
    show ticks n m.tick = _
    rw [ih (later _ hd).1 (later _ hs).1, ← (later _ hd).2, ← (later _ hs).2]
    rfl

theorem step_timers (untimed : ∀ w, m.Executes w → ¬ UsesTimer w) :
    m.step.1.delayTimer = m.delayTimer ∧ m.step.1.soundTimer = m.soundTimer := by
  by_cases executes : ∃ w, m.Executes w
  · obtain ⟨w, executes⟩ := executes
    have kept := executes.footprint
    have plain := untimed w executes
    constructor
    · by_contra changed
      obtain ⟨first, low⟩ := kept.delayTimer changed
      exact plain ⟨first, by simp [low]⟩
    · by_contra changed
      obtain ⟨first, low⟩ := kept.soundTimer changed
      exact plain ⟨first, by simp [low]⟩
  · obtain ⟨_, _, _, _, same⟩ := step_idle fun w hw => executes ⟨w, hw⟩
    rw [same]
    exact ⟨rfl, rfl⟩

theorem ticks_succ (n : Nat) (m : Machine) : ticks (n + 1) m = (ticks n m).tick := by
  induction n generalizing m with
  | zero => rfl
  | succ n ih => exact ih m.tick

/-! ## Histories -/

theorem after_steps_timers {count : Nat}
    (untimed : ∀ w ∈ m.executed (List.replicate count .step), ¬ UsesTimer w) :
    (m.after (List.replicate count .step)).delayTimer = m.delayTimer ∧
      (m.after (List.replicate count .step)).soundTimer = m.soundTimer := by
  induction count with
  | zero => exact ⟨rfl, rfl⟩
  | succ count ih =>
    rw [List.replicate_succ'] at untimed ⊢
    obtain ⟨before, last⟩ := executed_snoc untimed
    rw [after_append, ← (ih before).1, ← (ih before).2]
    exact step_timers last

/-- Ticks among steps come to as many ticks behind the steps. -/
theorem after_interleaving {history : List HostAction}
    (only : ∀ action ∈ history, action = .step ∨ action = .tick)
    (faultless : m.Faultless (List.replicate (history.count .step) .step))
    (untimed : ∀ w ∈ m.executed (List.replicate (history.count .step) .step), ¬ UsesTimer w) :
    m.Faultless history ∧
      m.after history =
        ticks (history.count .tick) (m.after (List.replicate (history.count .step) .step)) := by
  induction history using List.reverseRecOn with
  | nil => exact ⟨fun f hf => absurd hf (by simp [outcomes]), rfl⟩
  | append_singleton history action ih =>
    have earlier : ∀ action ∈ history, action = .step ∨ action = .tick :=
      fun a ha => only a (List.mem_append_left _ ha)
    rcases only action (List.mem_append_right _ List.mem_cons_self) with rfl | rfl
    · -- the last step goes before all ticks
      have steps : (history ++ [HostAction.step]).count .step = history.count .step + 1 := by simp
      have ticks_same : (history ++ [HostAction.step]).count .tick = history.count .tick := by simp
      rw [steps, List.replicate_succ'] at faultless untimed ⊢
      obtain ⟨before, last⟩ := executed_snoc untimed
      obtain ⟨clean, succeeds⟩ := faultless_snoc.mp faultless
      obtain ⟨inner, reached⟩ := ih earlier clean before
      have stepped := ticks_step (history.count .tick) last
      rw [← reached] at stepped
      rw [faultless_snoc, ticks_same, after_append, after_append]
      refine ⟨⟨inner, ?_⟩, ?_⟩
      · rw [stepped]
        exact succeeds
      · show (m.after history).step.1 = _
        rw [stepped]
        rfl
    · have steps : (history ++ [HostAction.tick]).count .step = history.count .step := by simp
      have ticked : (history ++ [HostAction.tick]).count .tick = history.count .tick + 1 := by simp
      rw [steps] at faultless untimed ⊢
      obtain ⟨inner, reached⟩ := ih earlier faultless untimed
      rw [ticked, ticks_succ, after_append, ← reached, faultless_append]
      refine ⟨⟨inner, ?_⟩, rfl⟩
      exact faultless_inputs (by simp [HostAction.IsInput])

/-- **Ticks and steps commute.** A tick before a step that executes none of `Fx07`, `Fx15` and `Fx18`
and a tick behind it leave the same machine, and the step the same fault. So any interleaving of steps
without a fault and without these words with ticks does not fault either, and comes to the steps with
the timers down by the number of ticks. -/
theorem ticks_interleave :
    (∀ m : Machine, (∀ w, m.Executes w → ¬ UsesTimer w) →
      m.tick.step = (m.step.1.tick, m.step.2)) ∧
    ∀ (m : Machine) (count n : Nat), 0 ≤ m.delayTimer → 0 ≤ m.soundTimer →
      m.Faultless (List.replicate count .step) →
      (∀ w ∈ m.executed (List.replicate count .step), ¬ UsesTimer w) →
      ∀ history : List HostAction,
        history.Perm (List.replicate count .step ++ List.replicate n .tick) →
        m.Faultless history ∧
          m.after history =
            { m.after (List.replicate count .step) with
              delayTimer := max 0 (m.delayTimer - n)
              soundTimer := max 0 (m.soundTimer - n) } := by
  refine ⟨fun m => tick_step, ?_⟩
  intro m count n delay_nonneg sound_nonneg faultless untimed history shuffled
  have only : ∀ action ∈ history, action = .step ∨ action = .tick := by
    intro action ha
    rcases List.mem_append.mp (shuffled.mem_iff.mp ha) with step | tick
    · exact .inl (List.eq_of_mem_replicate step)
    · exact .inr (List.eq_of_mem_replicate tick)
  have steps : history.count .step = count := by
    rw [shuffled.count_eq]
    simp [List.count_replicate]
  have ticked : history.count .tick = n := by
    rw [shuffled.count_eq]
    simp [List.count_replicate]
  subst steps ticked
  obtain ⟨clean, reached⟩ := after_interleaving only faultless untimed
  obtain ⟨delay, sound⟩ := after_steps_timers untimed
  refine ⟨clean, ?_⟩
  rw [reached, ticks_eq, delay, sound]
  · rwa [delay]
  · rwa [sound]

/-- Ticks go on among the looks of a key wait, and end at zero. -/
theorem ticks_interleave_wait :
    let program := [0x60, 0x02, 0xF0, 0x15, 0xFA, 0x0A]
    let start := ((powerOn .modern .zero).load program).1.after [.step, .step]
    start.delayTimer = 2 ∧ start.tick.step = (start.step.1.tick, start.step.2) ∧
      start.after [.tick, .step, .tick, .step, .tick] =
        { start.after [.step, .step] with delayTimer := 0, soundTimer := 0 } := by
  intro program start
  obtain ⟨commute, interleave⟩ := ticks_interleave
  have facts : (start.delayTimer = 2 ∧ start.soundTimer = 0) ∧
      ¬ UsesTimer start.currentWord.toNat ∧
      start.outcomes (List.replicate 2 .step) = [none, none] ∧
      ∀ w ∈ start.executed (List.replicate 2 .step), ¬ UsesTimer w := by
    decide +kernel
  obtain ⟨⟨delay, sound⟩, plain, passes, untimed⟩ := facts
  refine ⟨delay, ?_, ?_⟩
  · apply commute
    intro w executes
    rwa [← executes.word_eq]
  · have faultless : start.Faultless (List.replicate 2 .step) := by
      intro f
      rw [passes]
      simp
    have shuffled : [HostAction.tick, .step, .tick, .step, .tick].Perm
        (List.replicate 2 .step ++ List.replicate 3 .tick) := by
      decide
    obtain ⟨-, reached⟩ := interleave start 2 3 (by omega) (by omega) faultless untimed _ shuffled
    have two : List.replicate 2 HostAction.step = [.step, .step] := rfl
    have ended : max 0 ((2 : Int) - (3 : Nat)) = 0 ∧ max 0 ((0 : Int) - (3 : Nat)) = 0 := by decide
    rw [reached, delay, sound, two, ended.1, ended.2]

end Chip8.Machine
