import Chip8.Proofs.SessionHistory

/-!
# Restarting after a refused load

A load that is refused has wiped the machine and left the session's own fields alone, so machine and
session are of different programs. The session can still be restarted, and then nothing is left of the
refused load (`Session.refused_load_restarts`): the program kept for a restart always fits.
-/

namespace Chip8.Session

open Machine (Built programCapacity)

/-- The session can load its program again. -/
structure Restartable (s : Session) (dialect : Dialect) : Prop where
  built : s.machine.Built dialect
  fits : s.program.length ≤ programCapacity

variable {s : Session} {dialect : Dialect}

/-! ## Loads -/

/-- The session whose machine was switched on anew and has loaded a program. -/
def fresh (s : Session) (dialect : Dialect) (program : List UInt8) : Session where
  machine := ((Machine.powerOn dialect s.machine.random).load program).1
  clock := s.clock
  program := program
  fault := none
  frames := 0

theorem load_of_fits (built : s.machine.Built dialect) {program : List UInt8}
    (fits : program.length ≤ programCapacity) : s.load program = (s.fresh dialect program, none) := by
  have accepted := Machine.load_of_fits (Machine.powerOn dialect s.machine.random) fits
  rw [load, fresh, built.load_eq, accepted]

/-- The machine is wiped before the program is found too large, and nothing else is touched. -/
theorem load_of_large (built : s.machine.Built dialect) {program : List UInt8}
    (large : programCapacity < program.length) :
    s.load program =
      ({ s with machine := Machine.powerOn dialect s.machine.random },
        some (.programTooLarge program.length programCapacity)) := by
  have reset : s.machine.reset = Machine.powerOn dialect s.machine.random := by
    rw [built.reset_eq, built.dialect_eq]
  rw [load, Machine.load_of_large _ large, reset]

theorem load_keeps_fault {program : List UInt8} {m : Machine} {refusal : Option Fault}
    (h : s.load program = ({ s with machine := m }, refusal)) : (s.load program).1.fault = s.fault := by
  rw [h]

theorem Restartable.restart_eq (h : s.Restartable dialect) :
    s.restart = (s.fresh dialect s.program, none) :=
  load_of_fits h.built h.fits

/-! ## Histories -/

theorem runFrame_program (s : Session) (keys : List Bool) (elapsed : Option Binary64) :
    (s.runFrame keys elapsed).1.program = s.program := by
  unfold runFrame
  split
  · rfl
  · rcases s.grant elapsed with ⟨clock, _ | ⟨steps, ticks⟩⟩
    · rfl
    · cases Keypad.ofList keys <;> rfl

theorem Series.extend_program {σ : Type} (keys : KeySource σ) (count : Nat) (r : Series σ) :
    (r.extend keys count).session.program = r.session.program := by
  induction count generalizing r with
  | zero => rfl
  | succ count ih =>
    rw [Series.extend]
    split
    · rfl
    · rw [ih, Series.next_session, runFrame_program]

/-- Only a load that is accepted replaces the program, and what is accepted fits. -/
theorem Restartable.perform (h : s.Restartable dialect) (action : Action) :
    (s.perform action).Restartable dialect := by
  refine ⟨(s.perform_drives action).built h.built, ?_⟩
  cases action with
  | load program =>
    show (s.load program).1.program.length ≤ programCapacity
    rcases Nat.lt_or_ge programCapacity program.length with large | fits
    · rw [load_of_large h.built large]
      exact h.fits
    · rw [load_of_fits h.built fits]
      exact fits
  | restart =>
    show s.restart.1.program.length ≤ programCapacity
    rw [h.restart_eq]
    exact h.fits
  | frame call =>
    show (s.runFrame call.keys call.elapsed).1.program.length ≤ programCapacity
    rw [runFrame_program]
    exact h.fits
  | frames keys source count =>
    show (Series.extend keys count ⟨s, source, 0, none⟩).session.program.length ≤ programCapacity
    rw [Series.extend_program]
    exact h.fits

theorem Restartable.after (h : s.Restartable dialect) (actions : List Action) :
    (s.after actions).Restartable dialect := by
  induction actions generalizing s with
  | nil => exact h
  | cons action rest ih => exact ih (h.perform action)

/-- **A refused load leaves the session restartable.** After any loads, accepted or refused, restarts
and frames of a session that was built with the empty program:

* the kept program has at most 3584 bytes, so a restart is accepted, and gives a machine just switched
  on with that program, no fault and no frames;
* a load is refused exactly if the program has more than 3584 bytes. Then the program, the fault, the
  frames and the clock are as before, the machine is reset, and a restart gives the session that it
  gives without that load;
* a load that is accepted leaves no fault and no frames of the program before. -/
theorem refused_load_restarts {s₀ : Session} (sized : s₀.machine.Sized) (unloaded : s₀.program = [])
    (actions : List Action) :
    let s := s₀.after actions
    let reset := Machine.powerOn s₀.machine.dialect s.machine.random
    s.program.length ≤ 3584 ∧
    s.restart = (⟨(reset.load s.program).1, s.clock, s.program, none, 0⟩, none) ∧
    ∀ program : List UInt8,
      ((∃ f, (s.load program).2 = some f) ↔ 3584 < program.length) ∧
      (3584 < program.length →
        s.load program = ({ s with machine := reset }, some (.programTooLarge program.length 3584)) ∧
        (s.load program).1.restart = s.restart) ∧
      (program.length ≤ 3584 →
        s.load program = (⟨(reset.load program).1, s.clock, program, none, 0⟩, none)) := by
  intro s reset
  have start : s₀.Restartable s₀.machine.dialect :=
    ⟨{ sized with dialect_eq := rfl }, by rw [unloaded]; exact Nat.zero_le _⟩
  have h : s.Restartable s₀.machine.dialect := start.after actions
  refine ⟨h.fits, h.restart_eq, ?_⟩
  intro program
  have accepted : program.length ≤ 3584 → s.load program = (s.fresh _ program, none) :=
    load_of_fits h.built
  have refused : 3584 < program.length → s.load program =
      ({ s with machine := reset }, some (.programTooLarge program.length 3584)) :=
    load_of_large h.built
  refine ⟨⟨?_, ?_⟩, ?_, accepted⟩
  · rintro ⟨f, failed⟩
    by_contra fits
    rw [accepted (Nat.not_lt.mp fits)] at failed
    exact absurd failed (by simp)
  · intro large
    rw [refused large]
    exact ⟨_, rfl⟩
  · intro large
    refine ⟨refused large, ?_⟩
    -- what the refused load left of the machine is wiped once more, and the random bytes are the same
    have again : Restartable { s with machine := reset } s₀.machine.dialect :=
      ⟨Machine.powerOn_built _ _, h.fits⟩
    rw [refused large, again.restart_eq, h.restart_eq]
    rfl

/-- A program has faulted in its first frame, and then a program too large is refused. A restart goes
back to the program that has faulted. -/
theorem refused_load_restarts_faulted :
    let clock : FrameClock Binary64 := ⟨60, 60, FrameClock.defaultMaxElapsed, .zero, .zero⟩
    let s₀ := start (Machine.powerOn .modern .zero) clock
    let s := s₀.after [.load [0x00, 0xEE], .frames KeySource.idle () 3]
    let large := List.replicate 3585 0
    s.fault = some .stackUnderflow ∧ s.frames = 1 ∧
      (s.load large).2 = some (.programTooLarge 3585 3584) ∧
      (s.load large).1.fault = some .stackUnderflow ∧ (s.load large).1.restart = s.restart := by
  intro clock s₀ s large
  have halted : s.fault = some .stackUnderflow ∧ s.frames = 1 := by decide +kernel
  have sized := (Machine.powerOn_wellFormed .modern .zero).sized
  have count : large.length = 3585 := List.length_replicate
  obtain ⟨-, -, loads⟩ := @refused_load_restarts s₀ sized rfl
    [.load [0x00, 0xEE], .frames KeySource.idle () 3]
  obtain ⟨-, refused, -⟩ := loads large
  obtain ⟨refusal, restarted⟩ := refused (by omega)
  have kept := load_keeps_fault refusal
  refine ⟨halted.1, halted.2, ?_, ?_, restarted⟩
  · rw [refusal, count]
  · rw [kept]
    with_reducible exact halted.1

end Chip8.Session
