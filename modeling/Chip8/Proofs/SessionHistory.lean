import Chip8.Proofs.Bookkeeping
import Chip8.Proofs.SessionRun
import Chip8.Session.Actions

/-!
# What a session does to its machine

Whatever a host asks of a session, the machine goes through a history of loads, keys, ticks and steps
(`Session.after_machine`), so what such a history keeps of a machine, a session keeps of its own.
-/

namespace Chip8

namespace Machine

/-- A history in which the host leaves key waits to the program leads from one machine to another. -/
def Drives (m m' : Machine) : Prop :=
  ∃ history : List HostAction, (∀ action ∈ history, ¬ action.BeginsWait) ∧ m' = m.after history

namespace Drives

variable {a b c : Machine}

theorem refl (m : Machine) : Drives m m := ⟨[], by simp, rfl⟩

theorem trans (first : Drives a b) (second : Drives b c) : Drives a c := by
  obtain ⟨before, left, rfl⟩ := first
  obtain ⟨behind, right, rfl⟩ := second
  refine ⟨before ++ behind, ?_, (after_append ..).symm⟩
  intro action mem
  rcases List.mem_append.mp mem with mem | mem
  · exact left action mem
  · exact right action mem

theorem load (m : Machine) (program : List UInt8) : Drives m (m.load program).1 :=
  ⟨[.load program], by simp [HostAction.BeginsWait], rfl⟩

end Drives
end Machine

namespace FrameCall

theorem actions_driven (call : FrameCall) (counts : Int × Int) :
    ∀ action ∈ call.actions counts, ¬ action.BeginsWait ∧ ¬ action.Clears := by
  intro action mem
  rcases mem_actions mem with rfl | rfl | rfl <;> exact ⟨id, id⟩

end FrameCall

namespace Session

open Machine (Drives)

variable (s : Session)

theorem runFrame_drives (call : FrameCall) :
    Drives s.machine (s.runFrame call.keys call.elapsed).1.machine := by
  rcases s.runFrame_cases call with ⟨-, still⟩ | ⟨clock, e, refused⟩ | ⟨running, hk, clock, counts, hg⟩
  · rw [still]
    exact Drives.refl _
  · rw [refused]
    exact Drives.refl _
  · have granted : (s.grant call.elapsed).2 = .ok counts := by rw [hg]
    obtain ⟨report, -, frame⟩ := frameRuns running hk granted
    refine ⟨_, ?_, frame.machine_eq⟩
    intro action mem
    exact (call.actions_driven counts action ((Machine.upToError_prefix _ _).subset mem)).1

theorem afterFrames_drives (calls : Nat → FrameCall) (n : Nat) :
    Machine.Drives s.machine (s.afterFrames calls n).machine := by
  induction n with
  | zero => exact Machine.Drives.refl _
  | succ n ih =>
    rw [afterFrames]
    exact ih.trans (runFrame_drives _ (calls n))

theorem Series.next_drives {σ : Type} (keys : KeySource σ) (r : Series σ) :
    Drives r.session.machine (r.next keys).session.machine := by
  rw [Series.next_session]
  exact r.session.runFrame_drives ⟨(keys.poll r.source).1, none⟩

theorem Series.extend_drives {σ : Type} (keys : KeySource σ) (count : Nat) (r : Series σ) :
    Drives r.session.machine (r.extend keys count).session.machine := by
  induction count generalizing r with
  | zero => exact Drives.refl _
  | succ count ih =>
    rw [Series.extend]
    split
    · exact Drives.refl _
    · exact (r.next_drives keys).trans (ih _)

theorem perform_drives (action : Action) : Drives s.machine (s.perform action).machine := by
  cases action with
  | load program =>
    rw [perform, load_machine]
    exact Drives.load _ program
  | restart =>
    rw [perform, restart, load_machine]
    exact Drives.load _ s.program
  | frame call => exact s.runFrame_drives call
  | frames keys source count => exact Series.extend_drives keys count ⟨s, source, 0, none⟩

/-- The machine of a session only goes through histories in which key waits begin by themselves. -/
theorem after_drives (actions : List Action) : Drives s.machine (s.after actions).machine := by
  induction actions generalizing s with
  | nil => exact Drives.refl _
  | cons action rest ih => exact (s.perform_drives action).trans (ih (s.perform action))

end Session

namespace Machine.Drives

variable {m m' : Machine}

theorem built (h : Drives m m') {dialect : Dialect} (built : m.Built dialect) :
    m'.Built dialect := by
  obtain ⟨history, -, rfl⟩ := h
  exact built.after history

theorem wellFormed (h : Drives m m') (wellFormed : m.WellFormed) : m'.WellFormed := by
  obtain ⟨history, -, rfl⟩ := h
  exact wellFormed.after history

theorem accounts (h : Drives m m') {start : Nat} (accounts : m.Accounts start) :
    ∃ start', m'.Accounts start' := by
  obtain ⟨history, driven, rfl⟩ := h
  induction history generalizing m start with
  | nil => exact ⟨start, accounts⟩
  | cons action rest ih =>
    exact ih (accounts.perform (driven action List.mem_cons_self)) fun a ha =>
      driven a (List.mem_cons_of_mem action ha)

end Machine.Drives
end Chip8
