import Chip8.Panel.Dashboard
import Chip8.Proofs.Bookkeeping
import Chip8.Proofs.RegisterPanel
import Chip8.Proofs.StatisticsPanel

/-!
# Drawing a session

The counts of a machine agree, so its session can be drawn as long as they can be written
(`Session.dashboard_ok`). The register panel is the only part of a
drawing that tells of an earlier moment (`Session.dashboard_before`).
-/

-- powers are those of `Nat` itself
attribute [local instance (high)] instPowNat

-- the empty sum is the zero of the number type itself
attribute [local instance (high)] Zero.ofOfNat0

namespace Chip8

namespace Panel

theorem totalOf_entriesOf (t : Tally) : totalOf (entriesOf t) = t.total := by
  induction t with
  | nil => rfl
  | cons e rest ih =>
    have head : entriesOf (e :: rest) = (e.1.mnemonic, (e.2 : Int)) :: entriesOf rest := rfl
    have total : Tally.total (e :: rest) = e.2 + Tally.total rest := rfl
    rw [head, totalOf_cons, ih, total, Int.natCast_add]

/-- Statistics that cannot be written fail as such. -/
theorem statisticsText_unwritable {entries : List Entry} (limit : Int)
    (long : Numeral.isWritable (totalOf entries) = false) :
    statisticsText entries limit = .error .unwritable := by
  have some_entry : entries.isEmpty = false := by
    cases entries with
    | nil =>
      have short : Numeral.isWritable (0 : Nat) = true := by
        rw [Numeral.isWritable_natCast]
        exact decide_eq_true (Nat.pow_pos (by decide))
      exact absurd (long.symm.trans short) (by decide)
    | cons e rest => rfl
  have sum : countText 0 (totalOf entries) = .error .unwritable := by
    rw [countText, long]
    rfl
  simp only [statisticsText, statisticsLines, some_entry, sum]
  rfl

end Panel

/-- The counts that a session shows are short enough to be written: its cycles and its frames have no
more digits than a number is written with. -/
structure Session.Writable (s : Session) : Prop where
  cycles_lt : s.machine.cycles < 10 ^ Numeral.decimalLimit
  frames_lt : s.frames < 10 ^ Numeral.decimalLimit

namespace Panel

variable {s : Session}

theorem statusCount_of_lt {count : Nat} (h : count < 10 ^ Numeral.decimalLimit) :
    statusCount count = .ok (decimal count) := by
  rw [statusCount, Numeral.isWritable_of_lt h]
  rfl

theorem statusCount_of_le {count : Nat} (h : 10 ^ Numeral.decimalLimit ≤ count) :
    statusCount count = .error .unwritable := by
  rw [statusCount, Numeral.isWritable_of_not_lt (Nat.not_lt.mpr h)]
  rfl

theorem statusText_ok (h : s.Writable) (message : String) :
    ∃ text, statusText s message = .ok text := by
  rw [statusText, statusCount_of_lt h.cycles_lt, statusCount_of_lt h.frames_lt]
  exact ⟨_, rfl⟩

theorem statusText_of_frames (h : 10 ^ Numeral.decimalLimit ≤ s.frames) (message : String) :
    statusText s message = .error .unwritable := by
  rw [statusText, statusCount_of_le h]
  rcases Nat.lt_or_ge s.machine.cycles (10 ^ Numeral.decimalLimit) with short | long
  · rw [statusCount_of_lt short]
    rfl
  · rw [statusCount_of_le long]
    rfl

end Panel

namespace Session

variable {s : Session} {before : Option Registers} {message : String} {d : Dashboard}

/-- The statistics of a machine can be drawn whose cycles can be written. -/
theorem statisticsText_ok {start : Nat} (accounts : s.machine.Accounts start)
    (short : s.machine.cycles < 10 ^ Numeral.decimalLimit) :
    ∃ text, Panel.statisticsText (Panel.entriesOf s.machine.tally) Panel.dashboardLimit = .ok text := by
  have counts : ∀ e ∈ Panel.entriesOf s.machine.tally, 1 ≤ e.2 := by
    intro e he
    obtain ⟨entry, mem, rfl⟩ := List.mem_map.mp he
    have one := accounts.pos entry mem
    show (1 : Int) ≤ (entry.2 : Int)
    omega
  have written := Numeral.isWritable_of_lt short
  rw [accounts.cycles_eq, ← Panel.totalOf_entriesOf] at written
  exact Panel.statisticsText_ok counts written (by decide)

/-- A session can be drawn whose counts can be written. -/
theorem dashboard_ok {start : Nat} (accounts : s.machine.Accounts start) (writable : s.Writable)
    (before : Option Registers) (message : String) : ∃ d, s.dashboard before message = .ok d := by
  obtain ⟨statistics, counted⟩ := statisticsText_ok accounts writable.cycles_lt
  obtain ⟨status, told⟩ := Panel.statusText_ok writable message
  rw [dashboard, counted]
  simp only [told]
  exact ⟨_, rfl⟩

/-- More cycles than can be written leave a session without statistics. -/
theorem dashboard_of_cycles {start : Nat} (accounts : s.machine.Accounts start)
    (long : 10 ^ Numeral.decimalLimit ≤ s.machine.cycles) (before : Option Registers)
    (message : String) : s.dashboard before message = .error (.statistics .unwritable) := by
  have unwritten := Numeral.isWritable_of_not_lt (Nat.not_lt.mpr long)
  rw [accounts.cycles_eq, ← Panel.totalOf_entriesOf] at unwritten
  rw [dashboard, Panel.statisticsText_unwritable _ unwritten]

/-- More frames than can be written leave a session without a status, however few its cycles are. -/
theorem dashboard_of_frames {start : Nat} (accounts : s.machine.Accounts start)
    (short : s.machine.cycles < 10 ^ Numeral.decimalLimit)
    (long : 10 ^ Numeral.decimalLimit ≤ s.frames) (before : Option Registers) (message : String) :
    s.dashboard before message = .error .unwritable := by
  obtain ⟨statistics, counted⟩ := statisticsText_ok accounts short
  rw [dashboard, counted]
  simp only [Panel.statusText_of_frames long]

/-- A drawing has the panels of the machine and its display, whatever the other panels tell. -/
theorem dashboard_eq (h : s.dashboard before message = .ok d) :
    Panel.statisticsText (Panel.entriesOf s.machine.tally) Panel.dashboardLimit =
        .ok d.statistics.text ∧
      Panel.statusText s message = .ok d.status.text ∧
      d = ⟨⟨"CHIP-8", Panel.screenText s.machine.display.rows⟩,
        ⟨"Registers", Panel.registerMarkup s.machine before⟩,
        ⟨"Instruction Statistics", d.statistics.text⟩, ⟨"Status", d.status.text⟩⟩ := by
  unfold dashboard at h
  split at h
  · exact absurd h (by simp)
  · rename_i statistics counted
    split at h
    · exact absurd h (by simp)
    · rename_i status told
      obtain rfl := Except.ok.inj h
      exact ⟨counted, told, rfl⟩

theorem dashboard_registers (h : s.dashboard before message = .ok d) :
    d.registers = ⟨"Registers", Panel.registerMarkup s.machine before⟩ := by
  rw [(dashboard_eq h).2.2]

/-- Two drawings of a session differ in nothing but what the register panel highlights. -/
theorem dashboard_before (h : s.dashboard before message = .ok d) (before' : Option Registers) :
    s.dashboard before' message =
      .ok { d with registers := ⟨"Registers", Panel.registerMarkup s.machine before'⟩ } := by
  obtain ⟨counted, told, whole⟩ := dashboard_eq h
  rw [dashboard, counted]
  simp only [told]
  rw [whole]

end Session

namespace Panel

/-- Values that are still the same are shown as without earlier ones. -/
theorem registerMarkup_same (m : Machine) :
    registerMarkup m (some m.registers) = registerMarkup m none := by
  have span : ∀ r, registerSpan m.registers (some m.registers) r = registerSpan m.registers none r := by
    intro r
    exact if_pos rfl
  have line : registerLine m.registers (some m.registers) = registerLine m.registers none := by
    funext k
    rw [registerLine_eq, registerLine_eq]
    simp only [span]
  rw [registerMarkup, registerMarkup, registerLines, registerLines, line]

end Panel
end Chip8
