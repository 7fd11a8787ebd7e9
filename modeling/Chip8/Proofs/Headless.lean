import Chip8.Proofs.CommandLine
import Chip8.Proofs.Erasure
import Chip8.Proofs.LongRuns
import Chip8.Proofs.Overflow

/-!
# Outcome of a headless run

A headless run drives a machine that nobody touches: in each frame the timers tick once, and then the
machine takes the steps that the clock grants, up to the first step that faults
(`Session.idle_frames`). What a command line that asks for such a run prints and how it exits is told
from that machine alone (`Command.headless_outcome`).
-/

-- powers are those of `Nat` itself, whatever is imported, and a written exponent tells its type for that
attribute [local instance (high)] instPowNat

namespace Chip8

open Machine (HostAction HostError)

namespace Machine

/-- What `n` frames without input do to a machine, with the steps of each. -/
def idleRun (steps : Nat → Nat) : Nat → List HostAction
  | 0 => []
  | n + 1 => idleRun steps n ++ .tick :: List.replicate (steps n) .step

theorem mem_idleRun {steps : Nat → Nat} {n : Nat} {action : HostAction}
    (h : action ∈ idleRun steps n) : action = .tick ∨ action = .step := by
  induction n with
  | zero => exact absurd h List.not_mem_nil
  | succ n ih =>
    rcases List.mem_append.mp h with before | now
    · exact ih before
    · rcases List.mem_cons.mp now with tick | steps
      · exact .inl tick
      · exact .inr (List.eq_of_mem_replicate steps)

/-! ## Keys that stay up -/

/-- The action lets go of all keys. -/
abbrev letGo : HostAction := .setKeys Keypad.released.toList

variable {m : Machine}

theorem perform_letGo (up : m.keys = Keypad.released) : m.perform letGo = (m, none) := by
  have all : Keypad.ofList Keypad.released.toList = .ok Keypad.released := rfl
  rw [letGo, perform, all, ← up]

/-- Letting go of keys that are up can be left out of a history. -/
theorem leave_out_letGo (up : m.keys = Keypad.released) {history : List HostAction}
    (quiet : ∀ action ∈ history, action = letGo ∨ action = .tick ∨ action = .step) :
    let brief := history.filter (· ≠ letGo)
    m.firstError? brief = m.firstError? history ∧
      m.after (m.upToError brief) = m.after (m.upToError history) := by
  intro brief
  unfold brief
  clear brief
  induction history generalizing m with
  | nil => exact ⟨rfl, rfl⟩
  | cons action rest ih =>
    have later := fun a ha => quiet a (List.mem_cons_of_mem _ ha)
    by_cases letsGo : action = letGo
    · obtain ⟨error, machine⟩ := ih up later
      rw [List.filter_cons_of_neg (by simpa using letsGo), letsGo, firstError?, upToError,
        perform_letGo up, after_cons, perform_letGo up]
      exact ⟨error, machine⟩
    · have kept : (m.perform action).1.keys = Keypad.released := by
        rcases quiet action List.mem_cons_self with letting | rfl | rfl
        · exact absurd letting letsGo
        · exact up
        · rw [perform_step, step_keys, up]
      obtain ⟨error, machine⟩ := ih kept later
      rw [List.filter_cons_of_pos (by simpa using letsGo), firstError?, firstError?, upToError,
        upToError]
      cases (m.perform action).2 with
      | some e => exact ⟨rfl, rfl⟩
      | none => exact ⟨error, machine⟩

end Machine

namespace Session

variable {s : Session}

theorem mem_script_idle {counts : Nat → Int × Int} {n : Nat} {action : HostAction}
    (h : action ∈ script (fun _ => idleCall) counts n) :
    action = Machine.letGo ∨ action = .tick ∨ action = .step := by
  rcases mem_script h with ⟨-, -, letGo⟩ | other
  · exact .inl letGo
  · exact .inr other

theorem script_idle (steps : Nat → Nat) (n : Nat) :
    (script (fun _ => idleCall) (fun k => ((steps k : Int), 1)) n).filter (· ≠ Machine.letGo) =
      Machine.idleRun steps n := by
  have frame : ∀ k, idleCall.actions ((steps k : Int), 1) =
      Machine.letGo :: .tick :: List.replicate (steps k) .step := fun k => rfl
  induction n with
  | zero => rfl
  | succ n ih =>
    rw [script, frame, List.filter_append, ih, Machine.idleRun]
    simp

theorem running_before {calls : Nat → FrameCall} {n : Nat}
    (h : (s.afterFrames calls (n + 1)).fault = none) : (s.afterFrames calls n).fault = none := by
  by_contra halted
  obtain ⟨f, hf⟩ := Option.ne_none_iff_exists'.mp halted
  rw [afterFrames_of_halted hf] at h
  exact halted h

theorem afterFrames_clock {n : Nat} (h : (s.afterFrames (fun _ => idleCall) n).fault = none) :
    (s.afterFrames (fun _ => idleCall) n).clock = s.clock.framed n := by
  induction n with
  | zero => rfl
  | succ n ih =>
    have before := running_before h
    rw [afterFrames, runFrame_clock before, FrameClock.framed, ← ih before]
    rfl

/-- Frames without input are ticks and steps of the machine, up to the first step that faults. -/
theorem idle_frames (fresh : s.fault = none) (up : s.machine.keys = Keypad.released)
    {steps : Nat → Nat} (grants : ∀ n, (s.clock.framed n).frame.2 = .ok ((steps n : Int), 1)) (n : Nat) :
    let last := s.afterFrames (fun _ => idleCall) n
    let done := s.machine.upToError (Machine.idleRun steps n)
    last.machine = s.machine.after done ∧
    s.machine.firstError? (Machine.idleRun steps n) = last.fault.map HostError.fault ∧
    last.machine.cycles = s.machine.cycles + (s.machine.executed done).length := by
  intro last done
  have mask : ∀ k : Nat, idleCall.keys.length = 16 := by simp [idleCall]
  have granted : ∀ k, (s.afterFrames (fun _ => idleCall) k).fault = none →
      ((s.afterFrames (fun _ => idleCall) k).grant idleCall.elapsed).2 = .ok ((steps k : Int), 1) := by
    intro k running
    rw [← grants k, ← afterFrames_clock running]
    rfl
  obtain ⟨machine, error, -⟩ := follows fresh mask granted n
  obtain ⟨sameError, sameMachine⟩ := Machine.leave_out_letGo up
    fun action => @mem_script_idle (fun k => ((steps k : Int), 1)) n action
  rw [script_idle] at sameError sameMachine
  have reached : last.machine = s.machine.after done := by rw [machine, sameMachine]
  refine ⟨reached, sameError.trans error, ?_⟩
  rw [reached, Machine.cycles_after]
  intro action mem
  rcases Machine.mem_idleRun ((Machine.upToError_prefix _ _).subset mem) with rfl | rfl <;> exact id

end Session

namespace Command

theorem load_keys (m : Machine) (program : List UInt8) :
    (m.load program).1.keys = Keypad.released := by
  unfold Machine.load
  split <;> rfl

theorem sessionFor_eq (rate : Int) (dialect : Dialect) (random : RandomSource)
    {program : List UInt8} (fits : program.length ≤ Machine.programCapacity) :
    sessionFor rate dialect random program =
      .ok ⟨((Machine.powerOn dialect random).load program).1,
        ⟨rate, 60, FrameClock.defaultMaxElapsed, .zero, .zero⟩, program, none, 0⟩ := by
  have accepted := Machine.load_of_fits (Machine.powerOn dialect random) fits
  simp only [sessionFor, Session.load, Session.start, accepted]
  rfl

theorem sessionFor_of_large (rate : Int) (dialect : Dialect) (random : RandomSource)
    {program : List UInt8} (large : Machine.programCapacity < program.length) :
    sessionFor rate dialect random program =
      .error (.programTooLarge program.length Machine.programCapacity) := by
  have refused := Machine.load_of_large (Machine.powerOn dialect random) large
  simp only [sessionFor, Session.load, Session.start, refused]

/-! ## The report -/

/-- How the frames of a run without input end: all of them pass, or one of them is the first that
faults. They come to a number of frames, an exit code and error messages. -/
inductive Ends (error? : Nat → Option HostError) (count : Nat) : Nat → Nat → List String → Prop
  /-- No step faults. -/
  | passed : error? count = none → Ends error? count count 0 []
  /-- Frame `n` is the first that faults. -/
  | faulted {n : Nat} {f : Fault} : n < count → error? n = none → error? (n + 1) = some (.fault f) →
      error? count = some (.fault f) → Ends error? count (n + 1) 1 [errorLine f.message]

theorem report_of_lt {s : Session} {ran : Nat} (hr : ran < 10 ^ Numeral.decimalLimit)
    (hc : s.machine.cycles < 10 ^ Numeral.decimalLimit) :
    let line := "Ran " ++ decimal ran ++ " frames, " ++ decimal s.machine.cycles ++ " cycles."
    report s ran = .ok ⟨if s.halted then 1 else 0, finalState s.machine ++ [.markup line],
      (s.fault.map fun f => errorLine f.message).toList⟩ := by
  intro line
  have written : summary? ran s.machine.cycles = some line := by
    rw [summary?, Numeral.isWritable_of_lt hr, Numeral.isWritable_of_lt hc]
    rfl
  unfold report
  rw [written]

theorem report_of_not {s : Session} {ran : Nat}
    (h : ¬ (ran < 10 ^ Numeral.decimalLimit ∧ s.machine.cycles < 10 ^ Numeral.decimalLimit)) :
    report s ran = .error (.unwritable (finalState s.machine)) := by
  have unwritten : summary? ran s.machine.cycles = none := by
    by_cases hr : ran < 10 ^ Numeral.decimalLimit
    · rw [summary?, Numeral.isWritable_of_not_lt fun hc => h ⟨hr, hc⟩, Bool.and_false]
      rfl
    · rw [summary?, Numeral.isWritable_of_not_lt hr, Bool.false_and]
      rfl
  unfold report
  rw [unwritten]

theorem headless_eq {s : Session} (fresh : s.fault = none) {steps : Nat → Nat}
    (grants : ∀ n, (s.clock.framed n).frame.2 = .ok ((steps n : Int), 1)) (n : Nat) :
    let last := s.afterFrames (fun _ => Session.idleCall) n
    ∃ ran, s.Ran (fun _ => Session.idleCall) n ran ∧
      headless s n = report last ran := by
  intro last
  have granted : ∀ k, (s.afterFrames (fun _ => Session.idleCall) k).fault = none →
      ∃ counts, ((s.afterFrames (fun _ => Session.idleCall) k).grant none).2 = .ok counts := by
    intro k running
    refine ⟨((steps k : Int), 1), ?_⟩
    rw [← grants k, ← Session.afterFrames_clock running]
    rfl
  obtain ⟨ran, reached, counted⟩ := Session.runFrames_idle fresh granted n
  refine ⟨ran, counted, ?_⟩
  rw [headless, reached]

/-- A fault is told on a single line. -/
theorem errorLine_single (f : Fault) : '\n' ∉ (errorLine f.message).toList := by
  rw [errorLine, String.toList_append, List.mem_append, not_or]
  exact ⟨by decide, f.message_single_line⟩

/-- The count of the frames that ran, the exit code and the error messages are those of the frames'
end. -/
theorem ends_of_ran {s : Session} (fresh : s.fault = none) (up : s.machine.keys = Keypad.released)
    {steps : Nat → Nat} (grants : ∀ n, (s.clock.framed n).frame.2 = .ok ((steps n : Int), 1))
    {count ran : Nat} (counted : s.Ran (fun _ => Session.idleCall) count ran) :
    let last := s.afterFrames (fun _ => Session.idleCall) count
    Ends (fun n => s.machine.firstError? (Machine.idleRun steps n)) count ran
      (if last.halted then 1 else 0) (last.fault.map fun f => errorLine f.message).toList := by
  intro last
  have error (n : Nat) := (Session.idle_frames fresh up grants n).2.1
  cases hf : last.fault with
  | none =>
    rw [counted.1 hf, Session.halted, hf]
    exact .passed (by rw [error, hf]; rfl)
  | some f =>
    obtain ⟨n, hn, rfl, before, behind⟩ := counted.2 (by rw [hf]; simp)
    -- the session stood still behind the frame that faulted
    obtain ⟨g, hg⟩ := Option.ne_none_iff_exists'.mp behind
    obtain ⟨later, rfl⟩ := Nat.exists_eq_add_of_le hn
    have stopped := Session.afterFrames_of_halted hg later
    have same : g = f := by
      rw [← stopped] at hg
      exact Option.some.inj (hg.symm.trans hf)
    rw [Session.halted, hf]
    refine .faulted hn ?_ ?_ ?_
    · rw [error, before]
      rfl
    · rw [error, hg, same]
      rfl
    · rw [error, hf]
      rfl

/-- What a session without input comes to that has not executed anything yet, in terms of its machine. -/
theorem headless_ends {s : Session} (fresh : s.fault = none) (up : s.machine.keys = Keypad.released)
    (unused : s.machine.cycles = 0) {steps : Nat → Nat}
    (grants : ∀ n, (s.clock.framed n).frame.2 = .ok ((steps n : Int), 1)) (count : Nat) :
    let done := s.machine.upToError (Machine.idleRun steps count)
    let cycles := (s.machine.executed done).length
    let state := finalState (s.machine.after done)
    ∃ ran code errors,
      Ends (fun n => s.machine.firstError? (Machine.idleRun steps n)) count ran code errors ∧
      (∀ line ∈ errors, '\n' ∉ line.toList) ∧
      (ran < 10 ^ Numeral.decimalLimit ∧ cycles < 10 ^ Numeral.decimalLimit →
        headless s count = .ok ⟨code, state ++ [.markup
          ("Ran " ++ decimal ran ++ " frames, " ++ decimal cycles ++ " cycles.")], errors⟩) ∧
      (¬ (ran < 10 ^ Numeral.decimalLimit ∧ cycles < 10 ^ Numeral.decimalLimit) →
        headless s count = .error (.unwritable state)) := by
  intro done cycles state
  obtain ⟨ran, counted, run⟩ := headless_eq fresh grants count
  obtain ⟨machine, -, executed⟩ := Session.idle_frames fresh up grants count
  rw [unused, Nat.zero_add] at executed
  have shown : finalState (s.afterFrames (fun _ => Session.idleCall) count).machine = state := by
    rw [machine]
  rw [run]
  refine ⟨ran, _, _, ends_of_ran fresh up grants counted, ?_, ?_, ?_⟩
  · intro line mem
    obtain ⟨f, -, rfl⟩ := Option.map_eq_some_iff.mp (Option.mem_toList.mp mem)
    exact errorLine_single f
  · rintro ⟨few, short⟩
    rw [report_of_lt few (by rw [executed]; exact short), shown, executed]
  · intro long
    rw [report_of_not (by rw [executed]; exact long), shown]

/-! ## The request -/

theorem check_of_whole {r : Request} (whole : r.blank = []) (setting : Setting) :
    r.check setting = .ok () := by
  rw [Request.check, whole]
  exact if_neg List.not_mem_nil

section

variable {r : Request} (mode : r.mode = .headless) (whole : r.blank = []) (quiet : r.verbose = false)
  (random : RandomSource) {program : List UInt8}
include mode whole quiet

/-- A request that leaves nothing blank, with a program that fits, runs the session. -/
theorem carryOut_of_fits {s : Session} (loaded : sessionFor r.rate r.dialect random program = .ok s) :
    r.carryOut random (.ok program) = headless s r.frames.toNat := by
  have given : ∀ setting, r.check setting = .ok () := check_of_whole whole
  rw [Request.carryOut, given]
  show r.start random program = _
  rw [Request.start, given, given, loaded]
  simp only [quiet, mode]
  rw [given]
  rfl

omit mode quiet in
theorem carryOut_of_large {f : Fault} (refused : sessionFor r.rate r.dialect random program = .error f) :
    r.carryOut random (.ok program) = .error (.unloadable f) := by
  have given : ∀ setting, r.check setting = .ok () := check_of_whole whole
  rw [Request.carryOut, given]
  show r.start random program = _
  rw [Request.start, given, given, refused]
  rfl

end

/-! ## The file -/

theorem readRom_eq {files : FileSystem Id} {path : String} {size : UInt64} {content : List UInt8}
    (told : files.size (plainPath path) = .ok size) (read : files.content (plainPath path) = .ok content) :
    readRom files path =
      if 3584 < size.toNat then .error (.tooLarge (.programTooLarge size.toNat 3584))
      else .ok content := by
  have checked : checkSize size.toNat =
      if 3584 < size.toNat then .error (.tooLarge (.programTooLarge size.toNat 3584)) else .ok () := rfl
  unfold readRom
  simp only [bind, pure, told, read, checked]
  by_cases large : 3584 < size.toNat
  · rw [if_pos large, if_pos large]
  · rw [if_neg large, if_neg large]

/-- The command line of a headless run runs what it asks for. -/
theorem perform_headlessLine (files : FileSystem Id) (random : Option Int → Id RandomSource)
    {rom rateText framesText : String} {names : List String} {dialect : Dialect} {rate frames : Int}
    (plain : IsPlain rom) (known : Dialect.ofNames names = .ok dialect)
    (rateRead : readInteger? rateText = some rate) (rate_pos : 0 < rate)
    (framesRead : readInteger? framesText = some frames) (frames_pos : 0 < frames) :
    perform files random (headlessLine rom names rateText framesText) =
      Request.carryOut ⟨.headless, rom, rate, dialect, none, false, frames, []⟩ (random none)
        (readRom files rom) := by
  rw [perform, parse_headlessLine plain known rateRead rate_pos framesRead frames_pos]
  rfl

/-- **Headless run outcome.** A command line asks for a headless run of a program image that can be read,
in the dialect with the named switches on, with a positive rate whose sixtieth part is a finite number,
and a positive number of frames:

* an image of more than 3584 bytes is refused with one error line, and nothing is printed;
* any other image is accepted by the machine, and the clock grants the steps of every frame. The
  machine runs one timer tick and these steps, frame by frame, up to its first fault. The screen and
  the registers printed are those it then has, and the cycles are the instructions it has executed.
  Without a fault all frames are counted and the exit code is zero, without an error line. A fault
  counts the frames up to its own, which may be the last, and makes the exit code one, with one error
  line. If the frames or the cycles are too many to be written, the run breaks off behind the screen
  and the registers. -/
theorem headless_outcome {files : FileSystem Id} (random : Option Int → Id RandomSource)
    {rom rateText framesText : String} {names : List String} {content : List UInt8}
    {rate frames : Int} (plain : IsPlain rom) (held : files.Holds (plainPath rom) content)
    (known : ∀ name ∈ names, name ∈ ["shift-vy", "logic-vf", "memory-index"])
    (rateRead : readInteger? rateText = some rate) (rate_pos : 0 < rate)
    (finite : ∃ x, Binary64.ratio rate 60 = .ok x)
    (framesRead : readInteger? framesText = some frames) (frames_pos : 0 < frames) :
    let outcome := perform files random (headlessLine rom names rateText framesText)
    let clock : FrameClock Binary64 := ⟨rate, 60, FrameClock.defaultMaxElapsed, .zero, .zero⟩
    let dialect : Dialect :=
      ⟨"shift-vy" ∈ names, "logic-vf" ∈ names, "memory-index" ∈ names⟩
    let loaded := (Machine.powerOn dialect (random none)).load content
    let tooLarge := errorLine (Fault.programTooLarge content.length 3584).message
    (3584 < content.length → '\n' ∉ tooLarge.toList ∧ outcome = .ok ⟨1, [], [tooLarge]⟩) ∧
    (content.length ≤ 3584 → loaded.2 = none ∧
      ∃ steps : Nat → Nat, (∀ n, (clock.framed n).frame.2 = .ok ((steps n : Int), 1)) ∧
        let done := loaded.1.upToError (Machine.idleRun steps frames.toNat)
        let last := loaded.1.after done
        let cycles := (loaded.1.executed done).length
        let state := [.styled "bright_green" (Panel.screenText last.display.rows),
          .markup (Panel.registerMarkup last none)]
        ∃ ran code errors,
          Ends (fun n => loaded.1.firstError? (Machine.idleRun steps n)) frames.toNat ran code errors ∧
          (∀ line ∈ errors, '\n' ∉ line.toList) ∧
          (ran < 10 ^ Numeral.decimalLimit ∧ cycles < 10 ^ Numeral.decimalLimit →
            outcome = .ok ⟨code, state ++ [.markup
              ("Ran " ++ decimal ran ++ " frames, " ++ decimal cycles ++ " cycles.")], errors⟩) ∧
          (¬ (ran < 10 ^ Numeral.decimalLimit ∧ cycles < 10 ^ Numeral.decimalLimit) →
            outcome = .error (.unwritable state))) := by
  intro outcome clock dialect loaded tooLarge
  obtain ⟨size, told, bytes⟩ := held.size_eq
  have read := readRom_eq told held.content_eq
  have asked : outcome = _ :=
    perform_headlessLine files random plain (Dialect.ofNames_of_known known) rateRead rate_pos
      framesRead frames_pos
  constructor
  · intro large
    refine ⟨errorLine_single _, ?_⟩
    rw [asked, read, bytes, if_pos large]
    rfl
  · intro fits
    rw [asked, read, bytes, if_neg (Nat.not_lt.mpr fits)]
    have held : loaded.2 = none := by
      unfold loaded
      rw [Machine.load_of_fits _ fits]
    have steady : clock.Steady :=
      ⟨Int.le_of_lt rate_pos, Int.natCast_nonneg 60, finite, 0, Binary64.unitsPerOne_pos, rfl⟩
    obtain ⟨steps, grants⟩ := steady.grants
    let s : Session := ⟨loaded.1, clock, content, none, 0⟩
    have session : sessionFor rate dialect (random none) content = .ok s := sessionFor_eq _ _ _ fits
    have up : s.machine.keys = Keypad.released := load_keys _ content
    have unused : s.machine.cycles = 0 := Session.load_cycles _ content
    rw [carryOut_of_fits rfl rfl rfl _ session]
    exact ⟨held, steps, grants, headless_ends rfl up unused grants frames.toNat⟩

/-- A system that has the same file at every path, and the size it tells for it. -/
def oneFile (size : UInt64) (content : List UInt8) : FileSystem Id := ⟨fun _ => .ok size, fun _ => .ok content⟩

/-- The second of two frames, with one step each, returns without a call. -/
theorem headless_outcome_last_frame :
    ∃ state, perform (oneFile 4 [0x60, 0x01, 0x00, 0xEE]) (fun _ => RandomSource.zero)
        ["headless", "a", "--quirk", "shift-vy", "--hz", "60", "--frames", "2"] =
      .ok ⟨1, state ++ [.markup "Ran 2 frames, 1 cycles."],
        ["Error: Stack underflow: return with empty stack"]⟩ := by
  have held : (oneFile 4 [0x60, 0x01, 0x00, 0xEE]).Holds (plainPath "a") [0x60, 0x01, 0x00, 0xEE] :=
    ⟨⟨4, rfl, rfl⟩, rfl⟩
  have known : ∀ name ∈ ["shift-vy"], name ∈ ["shift-vy", "logic-vf", "memory-index"] := by decide
  have rateRead : readInteger? "60" = some 60 := by decide +kernel
  have framesRead : readInteger? "2" = some 2 := by decide +kernel
  have finite : ∃ x, Binary64.ratio 60 60 = .ok x :=
    ⟨.finite false Binary64.unitsPerOne, by decide +kernel⟩
  obtain ⟨-, fits⟩ := headless_outcome (fun _ => RandomSource.zero) (by decide : IsPlain "a") held known
    rateRead (by decide) finite framesRead (by decide)
  obtain ⟨-, steps, grants, ran, code, errors, ends, -, written, -⟩ := fits (by decide)
  have one : ∀ n < 2, steps n = 1 := by
    have computed : ∀ n < 2, ((⟨60, 60, FrameClock.defaultMaxElapsed, .zero, .zero⟩ :
        FrameClock Binary64).framed n).frame.2.toOption = some (1, 1) := by decide +kernel
    intro n hn
    have granted := computed n hn
    rw [grants n] at granted
    have same : (steps n : Int) = 1 := by simpa [Except.toOption] using granted
    omega
  have first : Machine.idleRun steps 1 = [.tick, .step] := by simp [Machine.idleRun, one]
  have both : Machine.idleRun steps 2 = [.tick, .step, .tick, .step] := by simp [Machine.idleRun, one]
  let m := ((Machine.powerOn ⟨true, false, false⟩ .zero).load [0x60, 0x01, 0x00, 0xEE]).1
  have passes : m.firstError? (Machine.idleRun steps 1) = none := by
    rw [first]
    decide +kernel
  have faults : m.firstError? (Machine.idleRun steps 2) = some (.fault .stackUnderflow) := by
    rw [both]
    decide +kernel
  have executed : (m.executed (m.upToError (Machine.idleRun steps 2))).length = 1 := by
    rw [both]
    decide +kernel
  have limit : 2 < 10 ^ Numeral.decimalLimit := by decide +kernel
  cases ends with
  | passed clean => exact absurd (faults.symm.trans clean) (by simp)
  | @faulted n f hn before there ended =>
    obtain rfl : f = .stackUnderflow := by
      have same := ended.symm.trans faults
      simpa using same
    obtain rfl : n = 1 := by
      have later : n ≠ 0 := by
        rintro rfl
        exact absurd (there.symm.trans passes) (by simp)
      have bound : n < 2 := hn
      omega
    have outcome := written ⟨limit, Nat.lt_of_le_of_lt (Nat.le_of_eq executed) (Nat.lt_trans (by decide) limit)⟩
    have line : "Ran " ++ decimal (2 : Nat) ++ " frames, " ++ decimal (1 : Nat) ++ " cycles." =
        "Ran 2 frames, 1 cycles." := by decide +kernel
    change _ = Except.ok (Outcome.mk 1 (_ ++ [.markup ("Ran " ++ decimal (2 : Nat) ++ " frames, " ++
      decimal (m.executed (m.upToError (Machine.idleRun steps 2))).length ++ " cycles.")]) _) at outcome
    rw [executed, line] at outcome
    exact ⟨_, outcome⟩

theorem readRom_oneFile (size : UInt64) (content : List UInt8) (path : String) :
    readRom (oneFile size content) path =
      if 3584 < size.toNat then .error (.tooLarge (.programTooLarge size.toNat 3584))
      else .ok content :=
  readRom_eq rfl rfl

/-! ## Where a run breaks off -/

/-- A session that counts past what can be written has no summary. -/
theorem headless_spinner {n : Nat} (long : 10 ^ Numeral.decimalLimit ≤ n * 10) :
    ∃ state, headless (Session.spinner 600) n = .error (.unwritable state) := by
  have steady : (Session.spinner 600).clock.Steady :=
    ⟨by decide, by decide, ⟨.finite false (10 * Binary64.unitsPerOne), by decide +kernel⟩, 0,
      Binary64.unitsPerOne_pos, rfl⟩
  obtain ⟨steps, grants⟩ := steady.grants
  obtain ⟨ran, -, run⟩ := headless_eq rfl grants n
  obtain ⟨-, cycles, -⟩ := Session.spins_afterFrames Session.spinner_fast rfl n
  rw [Session.spinner_cycles, Nat.zero_add] at cycles
  refine ⟨_, run.trans (report_of_not ?_)⟩
  rintro ⟨-, short⟩
  rw [cycles] at short
  exact Nat.not_lt.mpr long short

/-- A number of frames in decimal is refused that has more digits than are read. -/
theorem perform_of_many_frames (files : FileSystem Id) (random : Option Int → Id RandomSource) {n : Nat}
    (long : 10 ^ Numeral.decimalLimit ≤ n) :
    ∃ message, perform files random (headlessLine "a" [] "60" (decimal n)) = .ok ⟨2, [], [message]⟩ := by
  have positive : (0 : Int) < n :=
    Int.natCast_pos.mpr (Nat.lt_of_lt_of_le (Nat.pow_pos (by decide)) long)
  have known : Dialect.ofNames [] = .ok .modern := rfl
  have rateRead : readInteger? "60" = some 60 := by decide +kernel
  have unread : readInteger? (decimal n) = none := by
    rw [readInteger?_decimal positive, Numeral.isWritable_of_not_lt (Nat.not_lt.mpr long)]
    rfl
  have refused := parse_unread_frames (by decide : IsPlain "a") known rateRead (by decide) unread
    (plain_decimal (Int.le_of_lt positive))
  rw [perform, refused]
  exact ⟨_, rfl⟩

theorem perform_of_many_cycles {n : Nat} (short : n < 10 ^ Numeral.decimalLimit)
    (long : 10 ^ Numeral.decimalLimit ≤ n * 10) :
    ∃ state, perform (oneFile 2 [0x12, 0x00]) (fun _ => RandomSource.zero)
      (headlessLine "a" [] "600" (decimal n)) = .error (.unwritable state) := by
  have positive : (0 : Int) < n := by
    refine Int.natCast_pos.mpr (Nat.pos_of_ne_zero ?_)
    rintro rfl
    exact absurd (Nat.pow_pos (by decide)) (Nat.not_lt.mpr long)
  have known : Dialect.ofNames [] = .ok .modern := rfl
  have rateRead : readInteger? "600" = some 600 := by decide +kernel
  have framesRead : readInteger? (decimal n) = some n := by
    rw [readInteger?_decimal positive, Numeral.isWritable_of_lt short]
    rfl
  have session : sessionFor 600 .modern .zero [0x12, 0x00] = .ok (Session.spinner 600) := rfl
  rw [perform_headlessLine _ _ (by decide) known rateRead (by decide) framesRead positive,
    readRom_oneFile, if_neg (by decide), carryOut_of_fits rfl rfl rfl _ session, Int.toNat_natCast]
  exact headless_spinner long

/-- The size that a system tells is trusted until the program is loaded. -/
theorem perform_of_small_size {program : List UInt8} (large : 3584 < program.length) :
    perform (oneFile 0 program) (fun _ => RandomSource.zero) (headlessLine "a" [] "60" "1") =
      .error (.unloadable (.programTooLarge program.length 3584)) := by
  have known : Dialect.ofNames [] = .ok .modern := rfl
  have rateRead : readInteger? "60" = some 60 := by decide +kernel
  have framesRead : readInteger? "1" = some 1 := by decide +kernel
  have refused := sessionFor_of_large 60 .modern .zero large
  rw [perform_headlessLine _ _ (by decide) known rateRead (by decide) framesRead (by decide),
    readRom_oneFile, if_neg (by decide), carryOut_of_large rfl _ refused]
  rfl

/-- A headless run breaks off in three ways. A number of frames in decimal is refused that has more
digits than are read. A tenth as many frames, at six hundred instructions per second, have more cycles
than can be written. And a program can be read that is too large to be loaded, if the system tells less
than its size. -/
theorem headless_breaks_off :
    let run (size : UInt64) (program : List UInt8) (rate : String) (frames : Nat) :=
      perform (oneFile size program) (fun _ => RandomSource.zero)
        ["headless", "a", "--hz", rate, "--frames", decimal frames]
    (∃ message, run 2 [0x00, 0xEE] "60" (10 ^ Numeral.decimalLimit) = .ok ⟨2, [], [message]⟩) ∧
    (∃ state, run 2 [0x12, 0x00] "600" (10 ^ (Numeral.decimalLimit - 1)) =
      .error (.unwritable state)) ∧
    run 0 (List.replicate 3585 0) "60" 1 = .error (.unloadable (.programTooLarge 3585 3584)) := by
  intro run
  refine ⟨perform_of_many_frames _ _ (Nat.le_refl _), ?_, ?_⟩
  · refine perform_of_many_cycles ?_ (Nat.le_of_eq Numeral.tenfold_limit.symm)
    exact Nat.pow_lt_pow_right (by decide) (by decide)
  · have line : decimal (1 : Nat) = "1" := by decide +kernel
    have large : 3584 < (List.replicate 3585 (0 : UInt8)).length := by
      rw [List.length_replicate]
      decide
    have refused := perform_of_small_size large
    rw [List.length_replicate] at refused
    unfold run
    rw [line]
    exact refused

end Command
end Chip8
