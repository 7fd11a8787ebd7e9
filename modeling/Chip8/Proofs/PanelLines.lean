import Chip8.Proofs.Dashboard
import Chip8.Proofs.Drawing
import Chip8.Proofs.GridRows
import Chip8.Proofs.LongRuns

/-!
# The lines of the panels

A panel's text is read back line by line: no line that goes into it has a line end of its own
(`lines_intercalate`). So the lines of the screen are those of the display, the registers have one more
in a key wait, and every count of the statistics is of an operation with a category. The dashboard of a
session has these shapes whatever the session went through (`Session.dashboard_after`).
-/

-- powers and the empty sum are those of the number types themselves
attribute [local instance (high)] instPowNat
attribute [local instance (high)] Zero.ofOfNat0

namespace Chip8

/-- The lines of a text. -/
def lines (text : String) : List (List Char) := text.toList.splitOn '\n'

/-- The text is of one line. -/
def SingleLine (text : String) : Prop := '\n' ∉ text.toList

instance (text : String) : Decidable (SingleLine text) :=
  inferInstanceAs (Decidable (¬ _))

theorem singleLine_append {a b : String} : SingleLine (a ++ b) ↔ SingleLine a ∧ SingleLine b := by
  rw [SingleLine, String.toList_append, List.mem_append, not_or]
  rfl

/-- Single lines that are joined by line ends are the lines of the text. -/
theorem lines_intercalate {parts : List String} (single : ∀ part ∈ parts, SingleLine part)
    (some_part : parts ≠ []) : lines ("\n".intercalate parts) = parts.map String.toList := by
  rw [lines, String.toList_intercalate]
  refine List.splitOn_intercalate '\n' ?_ (by simpa using some_part)
  intro line mem
  obtain ⟨part, hp, rfl⟩ := List.mem_map.mp mem
  exact single part hp

/-- The panels of a dashboard have these lines: the screen sixteen of sixty-four characters, the
registers seven, or eight in a key wait, and the statistics none for operations without a category. -/
structure Dashboard.Shaped (d : Dashboard) (m : Machine) : Prop where
  screen : (lines d.screen.text).length = 16
  columns : ∀ line ∈ lines d.screen.text, line.length = 64
  registers : (lines d.registers.text).length = if m.waiting.isSome then 8 else 7
  statistics : ∀ line ∈ lines d.statistics.text, ¬ Category.other.label.toList <+: line

/-! ## The screen -/

namespace Panel

theorem length_screenLines (rows : List (List Bool)) :
    (screenLines rows).length = (rows.length + 1) / 2 := by
  induction rows using screenLines.induct with
  | case1 => rfl
  | case2 top => simp [screenLines]
  | case3 top bottom rest ih =>
    simp only [screenLines, List.length_cons, ih]
    omega

theorem lineEnd_notMem_halfBlockLine (top bottom : List Bool) : '\n' ∉ halfBlockLine top bottom := by
  have block : ∀ a b, '\n' ≠ halfBlock a b := by decide
  unfold halfBlockLine
  induction top generalizing bottom with
  | nil => simp
  | cons a top ih =>
    cases bottom with
    | nil => simp
    | cons b bottom => simp [block, ih bottom]

/-- Rows of one length are shown in lines of that length. -/
theorem length_of_mem_screenLines {rows : List (List Bool)} {width : Nat}
    (h : ∀ row ∈ rows, row.length = width) {line : List Char} (mem : line ∈ screenLines rows) :
    line.length = width ∧ ∃ top bottom, line = halfBlockLine top bottom := by
  induction rows using screenLines.induct with
  | case1 => exact absurd mem List.not_mem_nil
  | case2 top =>
    rw [screenLines, List.mem_singleton] at mem
    subst mem
    have wide := h top List.mem_cons_self
    exact ⟨by simp [halfBlockLine, wide], _, _, rfl⟩
  | case3 top bottom rest ih =>
    rw [screenLines, List.mem_cons] at mem
    rcases mem with rfl | later
    · have wide := h top List.mem_cons_self
      have below := h bottom (by simp)
      exact ⟨by simp [halfBlockLine, wide, below], _, _, rfl⟩
    · exact ih (fun row hr => h row (by simp [hr])) later

/-- The lines of the screen's text are those that it was made of. -/
theorem lines_screenText_of_rows {rows : List (List Bool)} {width : Nat}
    (h : ∀ row ∈ rows, row.length = width) (some_row : rows ≠ []) :
    lines (screenText rows) = screenLines rows := by
  rw [screenText, lines_intercalate]
  · rw [List.map_map]
    simp [Function.comp_def]
  · intro part mem
    obtain ⟨line, hl, rfl⟩ := List.mem_map.mp mem
    obtain ⟨-, top, bottom, rfl⟩ := length_of_mem_screenLines h hl
    rw [SingleLine, String.toList_ofList]
    exact lineEnd_notMem_halfBlockLine top bottom
  · have count := length_screenLines rows
    have tall := List.length_pos_iff.mpr some_row
    rw [ne_eq, List.map_eq_nil_iff, ← List.length_eq_zero_iff, count]
    omega

/-- A grid of pixels is shown in lines as long as its rows, half as many as there are rows. -/
theorem lines_screenText {d : Display} (h : d.Solid) :
    (lines (screenText d.rows)).length = (d.height.toNat + 1) / 2 ∧
      ∀ line ∈ lines (screenText d.rows), line.length = d.width.toNat := by
  have count : d.rows.length = d.height.toNat := h.measures.length_rows
  have wide : ∀ row ∈ d.rows, row.length = d.width.toNat := fun _ => h.measures.length_of_mem_rows
  have some_row : d.rows ≠ [] := by
    have tall := h.rows
    rw [ne_eq, ← List.length_eq_zero_iff, count]
    omega
  rw [lines_screenText_of_rows wide some_row, length_screenLines, count]
  exact ⟨rfl, fun line mem => (length_of_mem_screenLines wide mem).1⟩

/-! ## The registers -/

theorem Regular.singleLine {x : Span} (h : Regular x) : SingleLine x.markup := by
  have text : SingleLine x.text := h.text.2
  unfold Span.markup
  split
  · exact text
  · rename_i style styled
    have tag : SingleLine style := by
      rcases h.style style styled with rfl | rfl <;> decide
    simp only [singleLine_append, text, tag, and_true]
    decide

theorem singleLine_registerLine {m : Machine} {before : Option Registers} {line : StyledLine}
    (mem : line ∈ registerLines m before) : SingleLine line.markup := by
  rw [SingleLine, StyledLine.markup, String.toList_join, List.mem_flatMap]
  rintro ⟨part, hp, written⟩
  obtain ⟨x, hx, rfl⟩ := List.mem_map.mp hp
  exact (regular_registerLines m before line mem x hx).singleLine written

theorem length_registerLines (m : Machine) (before : Option Registers) :
    (registerLines m before).length = if m.waiting.isSome then 8 else 7 := by
  have other : (waitingLines m).length = if m.waiting.isSome then 1 else 0 := by
    unfold waitingLines
    cases m.waiting <;> rfl
  simp only [registerLines, List.length_append, List.length_map, List.length_range,
    List.length_cons, List.length_nil, other]
  split <;> rfl

/-- The lines of the register panel's text are those it was made of. -/
theorem lines_registerMarkup (m : Machine) (before : Option Registers) :
    lines (registerMarkup m before) = (registerLines m before).map fun line => line.markup.toList := by
  have count := length_registerLines m before
  rw [registerMarkup, lines_intercalate, List.map_map]
  · rfl
  · intro part mem
    obtain ⟨line, hl, rfl⟩ := List.mem_map.mp mem
    exact singleLine_registerLine hl
  · rw [ne_eq, List.map_eq_nil_iff, ← List.length_eq_zero_iff, count]
    split <;> decide

theorem length_lines_registerMarkup (m : Machine) (before : Option Registers) :
    (lines (registerMarkup m before)).length = if m.waiting.isSome then 8 else 7 := by
  rw [lines_registerMarkup, List.length_map, length_registerLines]

/-! ## The statistics -/

/-- A text that begins a line of the statistics: it tells by its first two characters that the line is
not of the category of unknown operations. -/
def Heads (text : String) : Prop :=
  SingleLine text ∧ 2 ≤ text.toList.length ∧
    text.toList.take 2 ≠ Category.other.label.toList.take 2

instance (text : String) : Decidable (Heads text) :=
  inferInstanceAs (Decidable (_ ∧ _))

namespace Heads

variable {a b : String}

theorem append (h : Heads a) (rest : SingleLine b) : Heads (a ++ b) := by
  obtain ⟨single, long, known⟩ := h
  refine ⟨singleLine_append.mpr ⟨single, rest⟩, ?_, ?_⟩
  · rw [String.toList_append, List.length_append]
    omega
  · rw [String.toList_append, List.take_append_of_le_length long]
    exact known

theorem not_other (h : Heads a) : ¬ Category.other.label.toList <+: a.toList := by
  rintro ⟨rest, same⟩
  apply h.2.2
  rw [← same]
  exact List.take_append_of_le_length (by decide)

end Heads

theorem heads_mnemonic (op : Operation) : Heads op.mnemonic := by
  cases op with
  | alu op => cases op <;> decide
  | _ => decide

theorem heads_label {c : Category} (known : c ≠ .other) : Heads c.label := by
  cases c with
  | other => exact absurd rfl known
  | _ => decide

theorem ofOperation_ne_other (op : Operation) : Category.ofOperation op ≠ .other := by
  cases op <;> exact Category.noConfusion

/-- What is computed has a property, if anything is computed. -/
def Yields {ε α : Type} (x : Except ε α) (p : α → Prop) : Prop := ∀ a, x = .ok a → p a

section

variable {ε α β : Type} {x : Except ε α} {f : α → Except ε β} {p : α → Prop} {q : β → Prop}

theorem yields_ok {a : α} (h : p a) : Yields (.ok a : Except ε α) p := by
  rintro _ ⟨⟩
  exact h

theorem yields_error (e : ε) : Yields (.error e : Except ε α) p := by
  rintro _ ⟨⟩

theorem yields_bind (first : Yields x p) (second : ∀ a, p a → Yields (f a) q) :
    Yields (x >>= f) q := by
  cases x with
  | error e => exact yields_error e
  | ok a => exact second a (first a rfl)

theorem yields_bind_any (second : ∀ a, Yields (f a) q) : Yields (x >>= f) q := by
  cases x with
  | error e => exact yields_error e
  | ok a => exact second a

theorem yields_mapM {l : List α} (h : ∀ a ∈ l, Yields (f a) q) :
    Yields (l.mapM f) fun all => ∀ b ∈ all, q b := by
  induction l with
  | nil => exact yields_ok (by simp)
  | cons a rest ih =>
    rw [List.mapM_cons]
    refine yields_bind (h a List.mem_cons_self) fun b hb => ?_
    refine yields_bind (ih fun a' ha => h a' (List.mem_cons_of_mem a ha)) fun bs hbs => ?_
    exact yields_ok (List.forall_mem_cons.mpr ⟨hb, hbs⟩)

end

/-! ### Numbers are of one line -/

theorem lineEnd_notMem_figures : '\n' ∉ Numeral.figures := by decide

theorem singleLine_decimalGrouped (width : Nat) (v : Int) : SingleLine (decimalGrouped width v) := by
  intro written
  rcases decimalGrouped_figures written with blank | comma | figure
  · exact absurd blank (by decide)
  · exact absurd comma (by decide)
  · exact lineEnd_notMem_figures figure

theorem lineEnd_notMem_fixed (share : Binary64) (places : Nat) : '\n' ∉ share.fixed places := by
  have sign : ∀ negative : Bool, '\n' ∉ if negative then ['-'] else [] := by decide
  cases share with
  | nan =>
    show '\n' ∉ ['n', 'a', 'n']
    decide
  | infinite negative =>
    show '\n' ∉ (if negative then ['-'] else []) ++ ['i', 'n', 'f']
    cases negative <;> decide
  | finite negative units =>
    have figure {n : Int} : '\n' ∉ Numeral.zeroPadded 10 (places + 1) n := fun written =>
      lineEnd_notMem_figures (Numeral.zeroPadded_figures (by decide) (by decide) written)
    simp only [Binary64.fixed, List.mem_append, not_or]
    refine ⟨⟨sign negative, fun whole => figure (List.mem_of_mem_take whole)⟩, ?_⟩
    split
    · exact List.not_mem_nil
    · rw [List.mem_cons, not_or]
      exact ⟨by decide, fun fraction => figure (List.mem_of_mem_drop fraction)⟩

theorem yields_countText (width : Nat) (count : Int) : Yields (countText width count) SingleLine := by
  unfold countText
  split
  · exact yields_ok (singleLine_decimalGrouped width count)
  · exact yields_error _

/-! ### Lines -/

theorem yields_entryLine (width : Nat) (total : Int) {e : Entry} (name : Heads e.1) :
    Yields (entryLine width total e) Heads := by
  refine yields_bind_any fun share => ?_
  refine yields_bind (yields_countText 8 e.2) fun count hc => yields_ok ?_
  have padded : Heads (String.ofList (Numeral.padRight width e.1.toList)) := by
    have blanks : SingleLine (String.ofList (List.replicate (width - e.1.toList.length) ' ')) := by
      rw [SingleLine, String.toList_ofList]
      exact fun blank => absurd (List.eq_of_mem_replicate blank) (by decide)
    rw [Numeral.padRight, String.ofList_append, String.ofList_toList]
    exact name.append blanks
  have percent : SingleLine (String.ofList (Numeral.padLeft 5 (share.fixed 1))) := by
    intro written
    rw [String.toList_ofList] at written
    rcases Numeral.mem_padLeft written with blank | figure
    · exact absurd blank (by decide)
    · exact lineEnd_notMem_fixed share 1 figure
  exact ((((padded.append (by decide)).append hc).append (by decide)).append percent).append (by decide)

theorem yields_categoryLine (total : Int) {c : Category × Int} (known : c.1 ≠ .other) :
    Yields (categoryLine total c) Heads := by
  refine yields_bind_any fun share => ?_
  refine yields_bind (yields_countText 0 c.2) fun count hc => yields_ok ?_
  have percent : SingleLine (String.ofList (share.fixed 0)) := by
    rw [SingleLine, String.toList_ofList]
    exact lineEnd_notMem_fixed share 0
  exact (((((heads_label known).append (by decide)).append hc).append (by decide)).append
    percent).append (by decide)

/-- All entries are named by operations. -/
def Named (entries : List Entry) : Prop := ∀ e ∈ entries, ∃ op : Operation, e.1 = op.mnemonic

section

variable {entries : List Entry} (named : Named entries)
include named

theorem heads_of_listed {limit : Int} {e : Entry}
    (h : e ∈ (rankingOf entries limit).listed ++ restEntry entries limit) : Heads e.1 := by
  rcases List.mem_append.mp h with listed | rest
  · have mem := (List.mergeSort_perm entries _).mem_iff.mp (List.mem_of_mem_take listed)
    obtain ⟨op, name⟩ := named e mem
    rw [name]
    exact heads_mnemonic op
  · unfold restEntry at rest
    split at rest
    · rw [List.mem_singleton.mp rest]
      exact (by decide : Heads "...")
    · exact absurd rest List.not_mem_nil

theorem category_ne_other {c : Category × Int} (h : c ∈ categoryTotals entries) : c.1 ≠ .other := by
  obtain ⟨category, -, own⟩ := List.mem_filterMap.mp h
  split at own
  · exact absurd own (by simp)
  · rename_i filled
    obtain rfl := Option.some.inj own
    obtain ⟨e, mem⟩ := List.exists_mem_of_ne_nil _ filled
    obtain ⟨he, hc⟩ := List.mem_filter.mp mem
    obtain ⟨op, name⟩ := named e he
    have operation : Category.ofOperation op = category := by
      rw [name, Category.ofMnemonic, Operation.ofMnemonic?_mnemonic] at hc
      exact of_decide_eq_true hc
    rw [← operation]
    exact ofOperation_ne_other op

/-- There are lines in the statistics, and all but the empty one in their middle have heads. -/
theorem yields_statisticsLines (limit : Int) :
    Yields (statisticsLines entries limit) fun all =>
      all ≠ [] ∧ ∀ line ∈ all, line = "" ∨ Heads line := by
  unfold statisticsLines
  split
  · exact yields_ok ⟨by simp, by simp only [List.mem_singleton, forall_eq]; decide⟩
  · refine yields_bind (yields_countText 0 _) fun sum hs => ?_
    split
    · exact yields_error _
    · refine yields_bind (yields_mapM fun e he => yields_entryLine _ _ (heads_of_listed named he)) ?_
      intro top listed
      refine yields_bind (yields_mapM fun c hc => yields_categoryLine _ (category_ne_other named hc)) ?_
      intro bottom categories
      refine yields_ok ⟨List.cons_ne_nil _ _, List.forall_mem_cons.mpr ⟨.inr ?_, ?_⟩⟩
      · exact Heads.append (by decide) hs
      · refine List.forall_mem_append.mpr ⟨fun line hl => .inr (listed line hl), ?_⟩
        exact List.forall_mem_cons.mpr ⟨.inl rfl, fun line hl => .inr (categories line hl)⟩

/-- No line of the statistics is of the category of unknown operations. -/
theorem lines_statisticsText {limit : Int} {text : String}
    (h : statisticsText entries limit = .ok text) :
    ∀ line ∈ lines text, ¬ Category.other.label.toList <+: line := by
  unfold statisticsText at h
  split at h
  · exact absurd h (by simp)
  · rename_i all written
    obtain rfl := Except.ok.inj h
    obtain ⟨some_line, heads⟩ := yields_statisticsLines named limit all written
    rw [lines_intercalate _ some_line]
    · intro line mem
      obtain ⟨part, hp, rfl⟩ := List.mem_map.mp mem
      rcases heads part hp with rfl | head
      · decide
      · exact head.not_other
    · intro part hp
      rcases heads part hp with rfl | head
      · decide
      · exact head.1

end

theorem named_entriesOf (t : Tally) : Named (entriesOf t) := by
  intro e he
  obtain ⟨counted, -, rfl⟩ := List.mem_map.mp he
  exact ⟨counted.1, rfl⟩

end Panel

namespace Session

variable {s : Session} {before : Option Registers} {message : String} {d : Dashboard}

/-- A session on a well-formed machine is drawn with lines of these shapes. -/
theorem dashboard_shaped (h : s.machine.WellFormed) (drawn : s.dashboard before message = .ok d) :
    d.Shaped s.machine := by
  obtain ⟨counted, -, whole⟩ := dashboard_eq drawn
  obtain ⟨count, widths⟩ := Panel.lines_screenText h.solid
  rw [h.display_height] at count
  rw [h.display_width] at widths
  rw [whole]
  constructor <;> dsimp only
  case screen => exact count
  case columns => exact widths
  case registers => exact Panel.length_lines_registerMarkup s.machine before
  case statistics =>
    exact Panel.lines_statisticsText (Panel.named_entriesOf s.machine.tally) counted

/-- **Drawing does not fail.** A session that started from a machine just switched on can be drawn
whatever its host asked of it: programs loaded or refused, restarts, and frames with any keys and times,
run, refused or halted by a fault, as long as its cycles and its frames can be written. No count is
divided by a total of zero, and there is a longest name among those listed. The screen has sixteen lines
of sixty-four characters, the registers seven lines, or eight in a key wait, and no line of the
statistics is of the category of unknown operations. -/
theorem dashboard_after (dialect : Dialect) (random : RandomSource) (clock : FrameClock Binary64)
    (actions : List Action) (before : Option Registers) (message : String)
    (writable : ((start (.powerOn dialect random) clock).after actions).Writable) :
    let s := (start (.powerOn dialect random) clock).after actions
    ∃ d, s.dashboard before message = .ok d ∧ d.Shaped s.machine := by
  intro s
  have driven := (start (.powerOn dialect random) clock).after_drives actions
  have wellFormed : s.machine.WellFormed := driven.wellFormed (Machine.powerOn_wellFormed dialect random)
  obtain ⟨origin, accounts⟩ := driven.accounts (Machine.accounts_of_empty rfl rfl rfl rfl)
  obtain ⟨d, drawn⟩ := dashboard_ok accounts writable before message
  exact ⟨d, drawn, dashboard_shaped wellFormed drawn⟩

/-- A session that waits for a key is drawn with an eighth line of registers. -/
theorem dashboard_after_wait :
    let clock : FrameClock Binary64 := ⟨60, 60, FrameClock.defaultMaxElapsed, .zero, .zero⟩
    let s := (start (.powerOn .modern .zero) clock).after
      [.load [0xF0, 0x0A], .frame ⟨Keypad.released.toList, none⟩]
    s.Writable ∧ ∃ d, s.dashboard none "" = .ok d ∧ (lines d.registers.text).length = 8 := by
  intro clock s
  have writable : s.Writable := ⟨by decide +kernel, by decide +kernel⟩
  have waits : s.machine.waiting.isSome = true := by decide +kernel
  obtain ⟨d, drawn, shaped⟩ := dashboard_after .modern .zero clock
    [.load [0xF0, 0x0A], .frame ⟨Keypad.released.toList, none⟩] none "" writable
  exact ⟨writable, d, drawn, by rw [shaped.registers, if_pos waits]⟩

/-- A session cannot be drawn whose counts are too long to be written. Frames without time get there
without a single cycle, and at six hundred instructions per second the cycles get there first. -/
theorem dashboard_undrawn :
    let limit := 10 ^ Numeral.decimalLimit
    let tenth := 10 ^ (Numeral.decimalLimit - 1)
    let history (rate : Int) (call : FrameCall) (n : Nat) :=
      (start (.powerOn .modern .zero) ⟨rate, 60, FrameClock.defaultMaxElapsed, .zero, .zero⟩).after
        (.load [0x12, 0x00] :: List.replicate n (.frame call))
    let still := history 60 ⟨Keypad.released.toList, some .zero⟩ limit
    let fast := history 600 ⟨Keypad.released.toList, none⟩ tenth
    (still.machine.cycles = 0 ∧ still.frames = limit ∧
      still.dashboard none "" = .error .unwritable) ∧
    (fast.machine.cycles = limit ∧ fast.frames = tenth ∧
      fast.dashboard none "" = .error (.statistics .unwritable)) := by
  intro limit tenth history still fast
  have loaded (rate : Int) (call : FrameCall) (n : Nat) :
      history rate call n = (spinner rate).after (List.replicate n (.frame call)) := List.foldl_cons ..
  have bound : 10 ^ Numeral.decimalLimit ≤ limit := Nat.le_refl _
  have tenfold : tenth * 10 = limit := Numeral.tenfold_limit
  -- from here on nothing may compute the counts
  clear_value limit tenth
  obtain ⟨cycles, frames, undrawn⟩ := fast_undrawn (tenfold ▸ bound) none ""
  unfold still fast
  rw [loaded, loaded]
  exact ⟨still_undrawn bound none "", cycles.trans tenfold, frames, undrawn⟩

end Session
end Chip8
