import Chip8.Proofs.Dashboard
import Chip8.Proofs.Series
import Chip8.Proofs.SessionHistory

/-!
# Runs without end

A program that jumps to its own instruction never faults, so its session counts as far as its host drives
it: `n` frames add `n` to the frames, and to the cycles the steps that the clock grants for each
(`Session.spins_afterFrames`). With no time between them they add to the frames alone.
-/

-- powers are those of `Nat` itself
attribute [local instance (high)] instPowNat

namespace Chip8

namespace Machine

/-- The machine is about to jump to where it already is. -/
structure Spins (m : Machine) : Prop where
  pc_eq : m.pc = 0x200
  fetches : m.Fetches 0x1200

variable {m m' : Machine}

/-- Nothing else than these three parts of the machine is looked at. -/
theorem Spins.of_eq (h : m.Spins) (pc : m'.pc = m.pc) (waiting : m'.waiting = m.waiting)
    (memory : m'.memory = m.memory) : m'.Spins := by
  refine ⟨pc.trans h.pc_eq, waiting.trans h.fetches.awake, ?_, ?_⟩
  · rw [memory, pc]
    exact h.fetches.inBounds
  · rw [currentWord, memory, pc]
    exact h.fetches.word_eq

theorem Spins.step (h : m.Spins) :
    m.step.2 = none ∧ m.step.1.Spins ∧ m.step.1.cycles = m.cycles + 1 := by
  have jump : m.step = (m.advanced.execute (.ofWord .jump 0x1200), none) := by
    rw [h.fetches.step_eq]
    exact executeWord_of_admits (by decide) (by decide) rfl
  rw [jump]
  exact ⟨rfl, h.of_eq h.pc_eq.symm rfl rfl, rfl⟩

/-- A machine that jumps to where it is can take any number of steps. -/
theorem Spins.run (h : m.Spins) (count : Nat) :
    (run count m).fault = none ∧ (run count m).machine.Spins ∧
      (run count m).machine.cycles = m.cycles + count := by
  induction count generalizing m with
  | zero => exact ⟨rfl, h, rfl⟩
  | succ count ih =>
    obtain ⟨passes, spins, counted⟩ := h.step
    have stepped : m.step = (m.step.1, none) := by rw [← passes]
    obtain ⟨clean, still, cycles⟩ := ih spins
    rw [Machine.run, runFrom, stepped]
    simp only [runFrom_eq (0 + 1)]
    refine ⟨clean, still, ?_⟩
    rw [cycles, counted]
    omega

end Machine

theorem Numeral.tenfold_limit :
    10 ^ (Numeral.decimalLimit - 1) * 10 = 10 ^ Numeral.decimalLimit := by
  rw [← Nat.pow_succ, Nat.succ_eq_add_one, Nat.sub_add_cancel (by decide)]

namespace Session

variable {s : Session} {call : FrameCall}

/-- The session is not halted and its program jumps to where it is, and the clock, which the frames leave
as it is, grants each of them the same steps. -/
structure Spins (s : Session) (call : FrameCall) (steps : Nat) : Prop where
  running : s.fault = none
  machine : s.machine.Spins
  steady : ∃ ticks, s.grant call.elapsed = (s.clock, .ok ((steps : Int), ticks))

theorem Spins.runFrame {steps : Nat} (h : s.Spins call steps) (mask : call.keys.length = 16) :
    let s' := (s.runFrame call.keys call.elapsed).1
    s'.Spins call steps ∧ s'.machine.cycles = s.machine.cycles + steps ∧ s'.frames = s.frames + 1 := by
  intro s'
  obtain ⟨ticks, steady⟩ := h.steady
  obtain ⟨keys, delay, sound, opened⟩ := s.machine.after_inputs (call.opening_inputs ticks)
  have spins : (s.machine.after (call.opening ticks)).Spins := by
    rw [opened]
    exact h.machine.of_eq rfl rfl rfl
  obtain ⟨clean, still, cycles⟩ := spins.run steps
  have before : (s.machine.after (call.opening ticks)).cycles = s.machine.cycles := by rw [opened]
  rw [before] at cycles
  have frame := runFrame_eq h.running mask steady
  unfold s'
  rw [frame]
  exact ⟨⟨clean, still, ticks, steady⟩, cycles, rfl⟩

/-- Any number of frames can be run, and each counts as the one before it. -/
theorem spins_afterFrames {steps : Nat} (h : s.Spins call steps) (mask : call.keys.length = 16)
    (n : Nat) :
    let s' := s.afterFrames (fun _ => call) n
    s'.Spins call steps ∧ s'.machine.cycles = s.machine.cycles + n * steps ∧
      s'.frames = s.frames + n := by
  induction n with
  | zero => exact ⟨h, by simp [afterFrames], rfl⟩
  | succ n ih =>
    obtain ⟨spins, cycles, frames⟩ := ih
    obtain ⟨still, more, next⟩ := spins.runFrame mask
    refine ⟨still, ?_, ?_⟩
    · rw [afterFrames, more, cycles, Nat.succ_mul, Nat.add_assoc]
    · rw [afterFrames, next, frames, Nat.add_assoc]

theorem after_replicate (s : Session) (call : FrameCall) (n : Nat) :
    s.after (List.replicate n (.frame call)) = s.afterFrames (fun _ => call) n := by
  induction n with
  | zero => rfl
  | succ n ih =>
    rw [List.replicate_succ', after, List.foldl_append]
    show perform (s.after (List.replicate n (.frame call))) (.frame call) = _
    rw [ih]
    rfl

/-! ## Counting past what can be written -/

/-- A session that has loaded a program which jumps to its own instruction. -/
def spinner (rate : Int) : Session :=
  ((start (.powerOn .modern .zero)
    ⟨rate, 60, FrameClock.defaultMaxElapsed, .zero, .zero⟩).load [0x12, 0x00]).1

theorem spinner_machine (rate : Int) :
    (spinner rate).machine = ((Machine.powerOn .modern .zero).load [0x12, 0x00]).1 :=
  load_machine _ _

theorem spinner_cycles (rate : Int) : (spinner rate).machine.cycles = 0 := by
  rw [spinner_machine, load_cycles]

theorem spinner_frames (rate : Int) : (spinner rate).frames = 0 := rfl

/-- A frame without input for which no time passes. -/
def stillCall : FrameCall := ⟨Keypad.released.toList, some .zero⟩

theorem spinner_spins {rate : Int} {call : FrameCall} {steps : Nat}
    (steady : ∃ ticks, (spinner rate).grant call.elapsed =
      ((spinner rate).clock, .ok ((steps : Int), ticks))) : (spinner rate).Spins call steps := by
  refine ⟨rfl, ?_, steady⟩
  rw [spinner_machine]
  exact ⟨rfl, rfl, by decide +kernel, by decide +kernel⟩

/-- Without time, a frame has no steps. -/
theorem spinner_still : (spinner 60).Spins stillCall 0 := by
  have nothing : Duration.scale (FrameClock.clamp FrameClock.defaultMaxElapsed Binary64.zero) 60 =
      .ok Binary64.zero := by decide +kernel
  have none_due : Duration.whole (Duration.add Binary64.zero Binary64.zero) = .ok 0 := by
    decide +kernel
  have unpaid : Duration.subInt (Duration.add Binary64.zero Binary64.zero) 0 = Binary64.zero := by
    decide +kernel
  refine spinner_spins ⟨0, ?_⟩
  let clock : FrameClock Binary64 := ⟨60, 60, FrameClock.defaultMaxElapsed, .zero, .zero⟩
  show clock.advance .zero = (clock, .ok (0, 0))
  rw [FrameClock.advance_eq (c := clock) nothing nothing none_due none_due]
  show (({ clock with cpuDebt := _, timerDebt := _ } : FrameClock Binary64), _) = _
  rw [unpaid]

/-- At six hundred instructions per second, a frame has ten steps. -/
theorem spinner_fast : (spinner 600).Spins idleCall 10 := by
  obtain ⟨grant, quotient, due, unpaid⟩ : ∃ grant : Binary64, Duration.ratio 600 60 = .ok grant ∧
      Duration.whole (Duration.add Binary64.zero grant) = .ok 10 ∧
      Duration.subInt (Duration.add Binary64.zero grant) 10 = Binary64.zero :=
    ⟨.finite false (10 * Binary64.unitsPerOne), by decide +kernel⟩
  refine spinner_spins ⟨1, ?_⟩
  let clock : FrameClock Binary64 := ⟨600, 60, FrameClock.defaultMaxElapsed, .zero, .zero⟩
  show clock.frame = (clock, .ok (10, 1))
  rw [FrameClock.frame_eq (c := clock) quotient due]
  show (({ clock with cpuDebt := _ } : FrameClock Binary64), _) = _
  rw [unpaid]

theorem spinner_accounts (rate : Int) (call : FrameCall) (n : Nat) :
    ∃ start, ((spinner rate).afterFrames (fun _ => call) n).machine.Accounts start := by
  have loaded := (Machine.powerOn .modern .zero).load_accounts [0x12, 0x00]
  rw [← spinner_machine rate] at loaded
  exact ((spinner rate).afterFrames_drives _ n).accounts loaded

/-- As many frames without time as cannot be written are not drawn, though not one cycle has passed. -/
theorem still_undrawn {n : Nat} (long : 10 ^ Numeral.decimalLimit ≤ n) (before : Option Registers)
    (message : String) :
    let s := (spinner 60).after (List.replicate n (.frame stillCall))
    s.machine.cycles = 0 ∧ s.frames = n ∧ s.dashboard before message = .error .unwritable := by
  intro s
  have reached : s = (spinner 60).afterFrames (fun _ => stillCall) n := after_replicate _ _ n
  rw [reached]
  obtain ⟨-, cycles, frames⟩ := spins_afterFrames spinner_still rfl n
  rw [spinner_cycles, Nat.mul_zero] at cycles
  rw [spinner_frames, Nat.zero_add] at frames
  obtain ⟨_, accounts⟩ := spinner_accounts 60 stillCall n
  refine ⟨cycles, frames, dashboard_of_frames accounts ?_ ?_ before message⟩
  · rw [cycles]
    exact Nat.pow_pos (by decide)
  · rwa [frames]

/-- A tenth as many frames of ten steps are not drawn either, as their cycles cannot be written. -/
theorem fast_undrawn {n : Nat} (long : 10 ^ Numeral.decimalLimit ≤ n * 10) (before : Option Registers)
    (message : String) :
    let s := (spinner 600).after (List.replicate n (.frame idleCall))
    s.machine.cycles = n * 10 ∧ s.frames = n ∧
      s.dashboard before message = .error (.statistics .unwritable) := by
  intro s
  have reached : s = (spinner 600).afterFrames (fun _ => idleCall) n := after_replicate _ _ n
  rw [reached]
  obtain ⟨-, cycles, frames⟩ := spins_afterFrames spinner_fast rfl n
  rw [spinner_cycles, Nat.zero_add] at cycles
  rw [spinner_frames, Nat.zero_add] at frames
  obtain ⟨_, accounts⟩ := spinner_accounts 600 idleCall n
  exact ⟨cycles, frames, dashboard_of_cycles accounts (by rwa [cycles]) before message⟩

end Session
end Chip8
