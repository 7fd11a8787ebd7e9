import Chip8.Proofs.MarkupErasure
import Chip8.Proofs.Numerals
import Chip8.Proofs.PanelLines

/-!
# What the register panel tells

The text of the register panel tells all the values it shows: they can be read back from it, for none of
its numbers has a blank in it (`Panel.registerMarkup_faithful`). Each register has one place in the text,
and what is highlighted can be told from the text as well as left out of it.
-/

namespace Chip8

/-! ## Reading back -/

section

variable {α : Type} {c : α} {a b a' b' : List α}

/-- Two texts that are equal are so up to the first of a separator, and behind it. -/
theorem cut_eq (ha : c ∉ a) (ha' : c ∉ a') (h : a ++ c :: b = a' ++ c :: b') : a = a' ∧ b = b' := by
  have start : a ++ c :: b <+: a' ++ c :: b' := by rw [h]
  obtain ⟨rfl, -⟩ := cut_prefix ha ha' start
  exact ⟨rfl, by simpa using h⟩

end

theorem infix_intercalate {separator part : String} {parts : List String} (h : part ∈ parts) :
    part.toList <:+: (separator.intercalate parts).toList := by
  induction parts with
  | nil => exact absurd h List.not_mem_nil
  | cons first rest ih =>
    cases rest with
    | nil =>
      obtain rfl := List.mem_singleton.mp h
      simp
    | cons =>
      rw [String.intercalate_cons_cons, String.toList_append]
      rcases List.mem_cons.mp h with rfl | later
      · rw [String.toList_append, List.append_assoc]
        exact (List.prefix_append _ _).isInfix
      · exact (ih later).trans (List.suffix_append _ _).isInfix

theorem notMem_hex {c : Char} (h : c ∉ Numeral.figures) (width : Nat) (v : Int) :
    c ∉ (hex width v).toList := fun written => h (hex_figures written)

theorem hex_cut {width : Nat} {v v' : Int} {b b' : List Char}
    (h : (hex width v).toList ++ ' ' :: b = (hex width v').toList ++ ' ' :: b') : v = v' ∧ b = b' := by
  have blank : ' ' ∉ Numeral.figures := by decide
  obtain ⟨number, rest⟩ := cut_eq (notMem_hex blank width v) (notMem_hex blank width v') h
  exact ⟨hex_injective (String.toList_inj.mp number), rest⟩

namespace Panel

/-- Two machines have the same in all that the register panel shows. -/
structure SameValues (m m' : Machine) : Prop where
  registers : m.registers = m'.registers
  pc : m.pc = m'.pc
  index : m.index = m'.index
  pointer : m.stack.pointer = m'.stack.pointer
  live : m.stack.live = m'.stack.live
  delayTimer : m.delayTimer = m'.delayTimer
  soundTimer : m.soundTimer = m'.soundTimer
  waiting : m.waiting = m'.waiting

theorem markup_plain (text : String) : StyledLine.markup [.plain text] = text := by
  simp [StyledLine.markup, Span.plain, Span.markup]

theorem registerText_cut {r : Nat} {v v' : UInt8} {b b' : List Char}
    (h : (registerText r v).toList ++ ' ' :: b = (registerText r v').toList ++ ' ' :: b') :
    v = v' ∧ b = b' := by
  simp only [registerText, String.toList_append, List.append_assoc, List.append_cancel_left_eq] at h
  obtain ⟨value, rest⟩ := hex_cut h
  exact ⟨UInt8.toNat_inj.mp (Int.ofNat_inj.mp value), rest⟩

theorem registerText_injective {r : Nat} {v v' : UInt8} (h : registerText r v = registerText r v') :
    v = v' := by
  have ended : (registerText r v).toList ++ [' '] = (registerText r v').toList ++ [' '] := by rw [h]
  exact (registerText_cut ended).1

theorem markup_registerLine_eq (regs : Registers) (before : Option Registers) (k : Nat) :
    (registerLine regs before k).markup =
      "  ".intercalate ((registersOnLine k).map fun r => (registerSpan regs before r).markup) := by
  have columns : registersOnLine k = [k + 0 * 4, k + 1 * 4, k + 2 * 4, k + 3 * 4] := rfl
  rw [registerLine_eq, columns]
  simp only [StyledLine.markup, List.map_cons, List.map_nil, String.join_cons, String.join_nil,
    String.intercalate_cons_cons, String.intercalate_singleton, String.append_empty, String.append_assoc]
  rfl

theorem markup_registerLine (regs : Registers) (k : Nat) :
    (registerLine regs none k).markup.toList =
      (registerText (k + 0 * 4) (regs.read (k + 0 * 4 : Nat))).toList ++ ' ' :: ' ' ::
      ((registerText (k + 1 * 4) (regs.read (k + 1 * 4 : Nat))).toList ++ ' ' :: ' ' ::
      ((registerText (k + 2 * 4) (regs.read (k + 2 * 4 : Nat))).toList ++ ' ' :: ' ' ::
      (registerText (k + 3 * 4) (regs.read (k + 3 * 4 : Nat))).toList)) := by
  have columns : registersOnLine k = [k + 0 * 4, k + 1 * 4, k + 2 * 4, k + 3 * 4] := rfl
  rw [markup_registerLine_eq, columns]
  simp [Span.plain, Span.markup, registerSpan]

theorem mem_registersOnLine {r : Nat} (hr : r < 16) : r ∈ registersOnLine (r % 4) :=
  List.mem_map.mpr ⟨r / 4, List.mem_range.mpr (by omega), by omega⟩

/-- A line of registers tells the values of its four registers. -/
theorem read_of_registerLine {regs regs' : Registers} {k : Nat}
    (h : (registerLine regs none k).markup.toList = (registerLine regs' none k).markup.toList) :
    ∀ r ∈ registersOnLine k, regs.read r = regs'.read r := by
  rw [markup_registerLine, markup_registerLine] at h
  obtain ⟨first, h⟩ := registerText_cut h
  obtain ⟨second, h⟩ := registerText_cut (List.cons.inj h).2
  obtain ⟨third, h⟩ := registerText_cut (List.cons.inj h).2
  have fourth := registerText_injective (String.toList_inj.mp (List.cons.inj h).2)
  intro r mem
  obtain ⟨column, small, rfl⟩ := List.mem_map.mp mem
  have columns : column = 0 ∨ column = 1 ∨ column = 2 ∨ column = 3 := by
    have bound := List.mem_range.mp small
    omega
  rcases columns with rfl | rfl | rfl | rfl
  · exact first
  · exact second
  · exact third
  · exact fourth

theorem eq_of_addressLine {m m' : Machine}
    (h : (addressLine m).markup.toList = (addressLine m').markup.toList) :
    m.pc = m'.pc ∧ m.index = m'.index ∧ m.stack.pointer = m'.stack.pointer := by
  have text (m : Machine) : (addressLine m).markup.toList =
      "PC 0x".toList ++ ((hex 3 m.pc).toList ++ ' ' :: (" I 0x".toList ++
        ((hex 3 m.index).toList ++ ' ' :: (" SP ".toList ++ (decimal m.stack.pointer).toList)))) := by
    simp [addressLine, markup_plain]
  rw [text, text, List.append_cancel_left_eq] at h
  obtain ⟨pc, h⟩ := hex_cut h
  obtain ⟨index, h⟩ := hex_cut (List.append_cancel_left h)
  have pointer := decimal_injective (String.toList_inj.mp (List.append_cancel_left h))
  exact ⟨pc, index, Int.ofNat_inj.mp pointer⟩

theorem eq_of_timerLine {m m' : Machine}
    (h : (timerLine m).markup.toList = (timerLine m').markup.toList) :
    m.delayTimer = m'.delayTimer ∧ m.soundTimer = m'.soundTimer := by
  have text (m : Machine) : (timerLine m).markup.toList =
      "DT ".toList ++ (((decimalPadded 3 m.delayTimer).toList ++ "  ".toList) ++
        'S' :: ("T ".toList ++ (decimalPadded 3 m.soundTimer).toList)) := by
    simp [timerLine, markup_plain]
  -- a timer is filled with blanks, so it is the letter behind it that ends it
  have letter (v : Int) : 'S' ∉ (decimalPadded 3 v).toList ++ "  ".toList := by
    intro written
    rcases List.mem_append.mp written with timer | blank
    · exact absurd (decimalPadded_figures timer) (by decide)
    · exact absurd blank (by decide)
  rw [text, text, List.append_cancel_left_eq] at h
  obtain ⟨delay, sound⟩ := cut_eq (letter _) (letter _) h
  have delay := String.toList_inj.mp (List.append_cancel_right delay)
  have sound := String.toList_inj.mp (List.append_cancel_left sound)
  exact ⟨decimalPadded_injective delay, decimalPadded_injective sound⟩

/-- The words that tell of the open calls. -/
def callWords (live : List UInt16) : List String :=
  if live = [] then ["empty"] else live.map fun a => hex 3 a.toNat

theorem stackLine_eq (m : Machine) :
    stackLine m = [.plain ("Stack: " ++ " ".intercalate (callWords m.stack.live))] := by
  unfold stackLine callWords
  cases m.stack.live <;> simp

theorem callWords_ne_nil (live : List UInt16) : callWords live ≠ [] := by
  unfold callWords
  split
  · exact List.cons_ne_nil _ _
  · simpa

theorem mem_callWords {live : List UInt16} {word : String} (h : word ∈ callWords live) {c : Char}
    (hc : c ∈ word.toList) : c ∈ "empty".toList ++ Numeral.figures := by
  unfold callWords at h
  split at h
  · obtain rfl := List.mem_singleton.mp h
    exact List.mem_append_left _ hc
  · obtain ⟨a, -, rfl⟩ := List.mem_map.mp h
    exact List.mem_append_right _ (hex_figures hc)

theorem blank_notMem_callWords (live : List UInt16) :
    ∀ word ∈ (callWords live).map String.toList, ' ' ∉ word := by
  simp only [List.forall_mem_map]
  exact fun _ mem written => absurd (mem_callWords mem written) (by decide)

theorem callWords_injective {live live' : List UInt16} (h : callWords live = callWords live') :
    live = live' := by
  have numbers : Function.Injective fun a : UInt16 => hex 3 a.toNat := fun _ _ same =>
    UInt16.toNat_inj.mp (Int.ofNat_inj.mp (hex_injective same))
  have word (live : List UInt16) : live.map (fun a => hex 3 a.toNat) ≠ ["empty"] := by
    intro same
    obtain ⟨a, -, empty⟩ := List.mem_map.mp (same ▸ List.mem_singleton_self "empty")
    have letter : 'y' ∈ (hex 3 a.toNat).toList := by
      rw [empty]
      decide
    exact notMem_hex (by decide) 3 a.toNat letter
  unfold callWords at h
  split at h <;> split at h
  · rename_i none_open none_open'
    rw [none_open, none_open']
  · exact absurd h.symm (word live')
  · exact absurd h (word live)
  · exact numbers.list_map h

theorem live_of_stackLine {m m' : Machine}
    (h : (stackLine m).markup.toList = (stackLine m').markup.toList) :
    m.stack.live = m'.stack.live := by
  have text (m : Machine) : (stackLine m).markup.toList =
      "Stack: ".toList ++ [' '].intercalate ((callWords m.stack.live).map String.toList) := by
    rw [stackLine_eq, markup_plain, String.toList_append, String.toList_intercalate]
    rfl
  have words (m : Machine) : List.splitOn ' '
      ([' '].intercalate ((callWords m.stack.live).map String.toList)) =
        (callWords m.stack.live).map String.toList :=
    List.splitOn_intercalate ' ' (blank_notMem_callWords _) (by simpa using callWords_ne_nil _)
  rw [text, text, List.append_cancel_left_eq] at h
  have same := congrArg (List.splitOn ' ') h
  rw [words, words] at same
  have distinct : Function.Injective String.toList := fun _ _ => String.toList_inj.mp
  exact callWords_injective (distinct.list_map same)

theorem markup_waitingLine (r : Fin 16) :
    (StyledLine.markup [.styled waitingStyle ("Waiting for key -> V" ++ hex 0 r.val)]).toList =
      "[bold cyan]Waiting for key -> ".toList ++
        'V' :: ((hex 0 r.val).toList ++ "[/bold cyan]".toList) := by
  simp [StyledLine.markup, Span.markup, Span.styled, waitingStyle]

theorem waiting_of_waitingLines {m m' : Machine}
    (h : (waitingLines m).map (fun line => line.markup.toList) =
      (waitingLines m').map fun line => line.markup.toList) :
    m.waiting = m'.waiting := by
  unfold waitingLines at h
  cases hw : m.waiting with
  | none => cases hw' : m'.waiting <;> simp [hw, hw'] at h ⊢
  | some r =>
    cases hw' : m'.waiting with
    | none => simp [hw, hw'] at h
    | some r' =>
      simp only [hw, hw', List.map_cons, List.map_nil, List.cons.injEq, and_true, true_and,
        markup_waitingLine, List.append_cancel_left_eq, List.append_cancel_right_eq] at h
      have number := Int.ofNat_inj.mp (hex_injective (String.toList_inj.mp h))
      rw [Fin.ext number]

theorem registerLines_eq (m : Machine) (before : Option Registers) :
    registerLines m before =
      registerLine m.registers before 0 :: registerLine m.registers before 1 ::
      registerLine m.registers before 2 :: registerLine m.registers before 3 ::
      addressLine m :: stackLine m :: timerLine m :: waitingLines m := rfl

theorem sameValues_of_registerMarkup {m m' : Machine}
    (h : registerMarkup m none = registerMarkup m' none) : SameValues m m' := by
  have text := congrArg lines h
  rw [lines_registerMarkup, lines_registerMarkup, registerLines_eq, registerLines_eq] at text
  simp only [List.map_cons, List.cons.injEq] at text
  obtain ⟨line0, line1, line2, line3, address, stack, timers, waiting⟩ := text
  obtain ⟨pc, index, pointer⟩ := eq_of_addressLine address
  obtain ⟨delay, sound⟩ := eq_of_timerLine timers
  have values : m.registers = m'.registers := by
    apply Registers.eq_of_value
    intro r
    have place := mem_registersOnLine r.isLt
    have line : r.val % 4 = 0 ∨ r.val % 4 = 1 ∨ r.val % 4 = 2 ∨ r.val % 4 = 3 := by omega
    have byte : m.registers.read r.val = m'.registers.read r.val := by
      rcases line with k | k | k | k <;> rw [k] at place
      · exact read_of_registerLine line0 _ place
      · exact read_of_registerLine line1 _ place
      · exact read_of_registerLine line2 _ place
      · exact read_of_registerLine line3 _ place
    rw [Registers.value, Registers.value, byte]
  exact ⟨values, pc, index, pointer, live_of_stackLine stack, delay, sound,
    waiting_of_waitingLines waiting⟩

theorem registerMarkup_of_sameValues {m m' : Machine} (h : SameValues m m')
    (before : Option Registers) : registerMarkup m before = registerMarkup m' before := by
  have address : addressLine m = addressLine m' := by
    rw [addressLine, addressLine, h.pc, h.index, h.pointer]
  have stack : stackLine m = stackLine m' := by rw [stackLine, stackLine, h.live]
  have timers : timerLine m = timerLine m' := by
    rw [timerLine, timerLine, h.delayTimer, h.soundTimer]
  have waiting : waitingLines m = waitingLines m' := by rw [waitingLines, waitingLines, h.waiting]
  rw [registerMarkup, registerMarkup, registerLines, registerLines, h.registers, address, stack, timers,
    waiting]

/-! ## Leaving out what is highlighted -/

theorem unstyled_registerSpan (regs : Registers) (before : Option Registers) (r : Nat) :
    (registerSpan regs before r).unstyled changedStyle = registerSpan regs none r := by
  unfold registerSpan
  cases before with
  | none => simp [Span.unstyled, Span.plain]
  | some old =>
    simp only
    split <;> simp [Span.unstyled, Span.plain, Span.styled]

theorem unstyled_registerLine (regs : Registers) (before : Option Registers) (k : Nat) :
    (registerLine regs before k).map (Span.unstyled changedStyle) = registerLine regs none k := by
  have blank : (Span.plain "  ").unstyled changedStyle = .plain "  " := by
    simp [Span.unstyled, Span.plain]
  rw [registerLine_eq, registerLine_eq]
  simp only [List.map_cons, List.map_nil, unstyled_registerSpan, blank]

theorem unstyled_of_unchanged {line : StyledLine} (h : Unchanged line) :
    line.map (Span.unstyled changedStyle) = line := by
  have kept : line.map (Span.unstyled changedStyle) = line.map id :=
    List.map_congr_left fun x hx => if_neg (h x hx).2
  rw [kept, List.map_id]

theorem unstyled_registerLines (m : Machine) (before : Option Registers) :
    (registerLines m before).map (·.map (Span.unstyled changedStyle)) = registerLines m none := by
  have other := List.map_congr_left fun line mem =>
    (unstyled_of_unchanged (unchanged_otherLines m line mem)).trans (id_eq line).symm
  rw [List.map_id] at other
  rw [registerLines, registerLines, List.append_assoc, List.append_assoc, List.map_append, List.map_map,
    other]
  congr 2
  funext k
  exact unstyled_registerLine m.registers before k

/-- The text without the two tags of a highlight. -/
def unhighlighted (text : String) : String :=
  String.ofList (eraseWord "[/bold yellow]".toList (eraseWord "[bold yellow]".toList text.toList))

theorem unhighlighted_registerMarkup (m : Machine) (before : Option Registers) :
    unhighlighted (registerMarkup m before) = registerMarkup m none := by
  have erased := StyledLine.erase_lines
    (fun line mem x hx => (regular_registerLines m before line mem x hx).tidy)
    (by decide : ']' ∉ changedStyle.toList) (by decide : changedStyle.toList.head? ≠ some '/')
  rw [unstyled_registerLines] at erased
  exact (congrArg String.ofList erased).trans (String.ofList_toList ..)

/-! ## The places of the registers -/

/-- How often a word stands in a text. -/
def occurrences (word text : List Char) : Nat := text.tails.countP (word <+: ·)

/-- A part of a text has a word so often, whatever follows it there. -/
def Has (word part : List Char) (n : Nat) : Prop :=
  ∀ rest, occurrences word (part ++ rest) = n + occurrences word rest

section

variable {c : Char} {word a b : List Char} {n n' : Nat}

theorem occurrences_cons (word : List Char) (c : Char) (rest : List Char) :
    occurrences word (c :: rest) =
      (if word <+: c :: rest then 1 else 0) + occurrences word rest := by
  rw [occurrences, List.tails_cons, List.countP_cons, Nat.add_comm]
  simp only [decide_eq_true_eq]
  rfl

theorem Has.occurrences (some_word : word ≠ []) (h : Has word a n) : occurrences word a = n := by
  have ended := h []
  rw [List.append_nil] at ended
  rw [ended]
  simp [Panel.occurrences, some_word]

theorem has_nil (word : List Char) : Has word [] 0 := fun _ => (Nat.zero_add _).symm

theorem Has.append (h : Has word a n) (h' : Has word b n') : Has word (a ++ b) (n + n') := by
  intro rest
  rw [List.append_assoc, h, h', Nat.add_assoc]

theorem has_of_notMem (h : c ∉ a) : Has (c :: word) a 0 := by
  intro rest
  induction a with
  | nil => exact (Nat.zero_add _).symm
  | cons x a ih =>
    rw [List.mem_cons, not_or] at h
    have other : ¬ c :: word <+: x :: (a ++ rest) := fun start => h.1 (List.cons_prefix_cons.mp start).1
    rw [List.cons_append, occurrences_cons, if_neg other, ih h.2, Nat.zero_add]

/-- Parts that are joined have a word as often as all of them together, if no separator begins one. -/
theorem has_intercalate {separator : String} {parts : List String} {counts : List Nat}
    (between : Has word separator.toList 0)
    (h : List.Forall₂ (fun part n => Has word part.toList n) parts counts) :
    Has word (separator.intercalate parts).toList counts.sum := by
  induction h with
  | nil => exact has_nil word
  | cons first rest ih =>
    cases rest with
    | nil => simpa using first
    | cons =>
      rw [String.intercalate_cons_cons, String.toList_append, String.toList_append, List.sum_cons]
      exact (first.append between).append ih

end

/-- What the entry of a register begins with. -/
def registerLabel (r : Nat) : String := "V" ++ hex 0 r ++ " 0x"

theorem registerText_eq (r : Nat) (v : UInt8) : registerText r v = registerLabel r ++ hex 2 v.toNat := by
  simp [registerText, registerLabel, String.append_assoc]

theorem registerLabel_eq {r : Nat} (hr : r < 16) :
    (registerLabel r).toList = 'V' :: Numeral.digitChar r :: " 0x".toList := by
  simp [registerLabel, hex_digit hr]

theorem registerLabel_ne_nil (r : Nat) : (registerLabel r).toList ≠ [] := by
  simp [registerLabel]

/-- Where there is no `V` there is no register. -/
theorem has_no_register {text : String} {r : Nat} (h : 'V' ∉ text.toList) :
    Has (registerLabel r).toList text.toList 0 := by
  have label : (registerLabel r).toList = 'V' :: ((hex 0 r).toList ++ " 0x".toList) := by
    simp [registerLabel]
  rw [label]
  exact has_of_notMem h

theorem v_notMem_hex (width : Nat) (v : Int) : 'V' ∉ (hex width v).toList :=
  notMem_hex (by decide) width v

/-- The entry of a register has the label of this register once, and that of no other. -/
theorem has_registerText {r r' : Nat} (hr : r < 16) (hr' : r' < 16) (v : UInt8) :
    Has (registerLabel r).toList (registerText r' v).toList (if r' = r then 1 else 0) := by
  have digit : ∀ r < 16, 'V' ≠ Numeral.digitChar r := by decide
  have body : 'V' ∉ Numeral.digitChar r' :: (" 0x".toList ++ (hex 2 v.toNat).toList) := by
    rw [List.mem_cons, List.mem_append, not_or, not_or]
    exact ⟨digit r' hr', by decide, v_notMem_hex 2 _⟩
  intro rest
  have begins : 'V' :: Numeral.digitChar r :: " 0x".toList <+:
      'V' :: (Numeral.digitChar r' :: (" 0x".toList ++ (hex 2 v.toNat).toList) ++ rest) ↔ r' = r := by
    rw [List.cons_append, List.append_assoc, List.cons_prefix_cons, List.cons_prefix_cons]
    constructor
    · rintro ⟨-, same, -⟩
      exact (digitChar_injective r hr r' hr' same).symm
    · rintro rfl
      exact ⟨rfl, rfl, List.prefix_append _ _⟩
  rw [registerText_eq, String.toList_append, registerLabel_eq hr', registerLabel_eq hr,
    List.cons_append, List.cons_append, List.cons_append, occurrences_cons, has_of_notMem body rest,
    Nat.zero_add]
  simp only [begins]

theorem has_registerSpan (regs : Registers) (before : Option Registers) {r r' : Nat} (hr : r < 16)
    (hr' : r' < 16) :
    Has (registerLabel r).toList (registerSpan regs before r').markup.toList
      (if r' = r then 1 else 0) := by
  have text := has_registerText hr hr' (regs.read r')
  unfold registerSpan
  split
  · split
    · exact text
    · have opening : 'V' ∉ ("[" ++ changedStyle ++ "]").toList := by decide
      have closing : 'V' ∉ ("[/" ++ changedStyle ++ "]").toList := by decide
      have whole := ((has_no_register opening).append text).append (has_no_register closing)
      simp only [Nat.zero_add, Nat.add_zero, ← String.toList_append] at whole
      have markup : (Span.styled changedStyle (registerText r' (regs.read r'))).markup =
          "[" ++ changedStyle ++ "]" ++ registerText r' (regs.read r') ++
            ("[/" ++ changedStyle ++ "]") := by
        simp [Span.styled, Span.markup, String.append_assoc]
      rw [markup]
      exact whole
  · exact text

/-- How often a register is on a line. -/
def columnsOf (r k : Nat) : Nat := ((registersOnLine k).map fun r' => if r' = r then 1 else 0).sum

theorem has_registerLine (regs : Registers) (before : Option Registers) {r k : Nat} (hr : r < 16)
    (hk : k < 4) :
    Has (registerLabel r).toList (registerLine regs before k).markup.toList (columnsOf r k) := by
  rw [markup_registerLine_eq]
  refine has_intercalate (has_no_register (by decide)) ?_
  rw [List.forall₂_map_left_iff, List.forall₂_map_right_iff, List.forall₂_same]
  intro r' mem
  obtain ⟨column, small, rfl⟩ := List.mem_map.mp mem
  have bound := List.mem_range.mp small
  exact has_registerSpan regs before hr (by omega)

/-- What names the register of a key wait is not the label of a register. -/
theorem has_waitingLine {m : Machine} {line : StyledLine} (waits : line ∈ waitingLines m) {r : Nat}
    (hr : r < 16) : Has (registerLabel r).toList line.markup.toList 0 := by
  unfold waitingLines at waits
  split at waits
  · rename_i r' _
    obtain rfl := List.mem_singleton.mp waits
    have digit : 'V' ∉ (hex 0 r'.val).toList ++ "[/bold cyan]".toList := by simp [v_notMem_hex]
    rw [markup_waitingLine, registerLabel_eq hr, ← Nat.zero_add 0]
    refine (has_of_notMem (by decide)).append fun rest => ?_
    have elsewhere : ¬ 'V' :: Numeral.digitChar r :: " 0x".toList <+:
        'V' :: ((hex 0 r'.val).toList ++ "[/bold cyan]".toList ++ rest) := by
      simp [hex_digit r'.isLt, List.cons_prefix_cons]
    rw [List.cons_append, occurrences_cons, if_neg elsewhere, Nat.zero_add, has_of_notMem digit]
  · exact absurd waits List.not_mem_nil

/-- The lines below the registers have no register. -/
theorem has_otherLines (m : Machine) {r : Nat} (hr : r < 16) :
    ∀ line ∈ [addressLine m, stackLine m, timerLine m] ++ waitingLines m,
      Has (registerLabel r).toList line.markup.toList 0 := by
  have decimals (v : Int) : 'V' ∉ (decimal v).toList := fun written =>
    absurd (decimal_figures written) (by decide)
  have padded (v : Int) : 'V' ∉ (decimalPadded 3 v).toList := fun written =>
    absurd (decimalPadded_figures written) (by decide)
  intro line mem
  rw [List.mem_append, List.mem_cons, List.mem_cons, List.mem_singleton] at mem
  rcases mem with (rfl | rfl | rfl) | waits
  · rw [addressLine, markup_plain]
    refine has_no_register ?_
    simp [v_notMem_hex, decimals]
  · rw [stackLine_eq, markup_plain]
    refine has_no_register ?_
    rw [String.toList_append, List.mem_append, not_or]
    refine ⟨by decide, fun written => ?_⟩
    rcases mem_intercalate written with blank | ⟨word, mem, there⟩
    · exact absurd blank (by decide)
    · exact absurd (mem_callWords mem there) (by decide)
  · rw [timerLine, markup_plain]
    refine has_no_register ?_
    simp [padded]
  · exact has_waitingLine waits hr

theorem has_register_lines (m : Machine) (before : Option Registers) {r : Nat} (hr : r < 16) :
    List.Forall₂ (fun part n => Has (registerLabel r).toList part.toList n)
      ((registerLines m before).map StyledLine.markup)
      ((List.range 4).map (columnsOf r) ++
        ([addressLine m, stackLine m, timerLine m] ++ waitingLines m).map fun _ => 0) := by
  rw [registerLines, List.append_assoc, List.map_append]
  apply List.rel_append
  · rw [List.map_map, List.forall₂_map_left_iff, List.forall₂_map_right_iff, List.forall₂_same]
    exact fun k mem => has_registerLine m.registers before hr (List.mem_range.mp mem)
  · rw [List.forall₂_map_left_iff, List.forall₂_map_right_iff, List.forall₂_same]
    exact has_otherLines m hr

/-- The text has the label of each register once. -/
theorem occurrences_registerLabel (m : Machine) (before : Option Registers) {r : Nat} (hr : r < 16) :
    occurrences (registerLabel r).toList (registerMarkup m before).toList = 1 := by
  have once : ∀ r < 16, ((List.range 4).map (columnsOf r)).sum = 1 := by decide
  have lineEnd : 'V' ∉ "\n".toList := by decide
  have whole := has_intercalate (has_no_register lineEnd) (has_register_lines m before hr)
  rw [registerMarkup, whole.occurrences (registerLabel_ne_nil r), List.sum_append, once r hr]
  simp

theorem infix_registerSpan (regs : Registers) (before : Option Registers) (r : Nat) :
    (registerText r (regs.read r)).toList <:+: (registerSpan regs before r).markup.toList := by
  have text : (registerSpan regs before r).text = registerText r (regs.read r) := by
    unfold registerSpan
    split
    · split <;> rfl
    · rfl
  rw [← text, Span.markup]
  split
  · exact List.infix_rfl
  · rename_i style _
    refine ⟨("[" ++ style ++ "]").toList, ("[/" ++ style ++ "]").toList, ?_⟩
    simp only [String.toList_append, List.append_assoc]

/-- The text has the entry of each register, with its value. -/
theorem infix_registerMarkup (m : Machine) (before : Option Registers) {r : Nat} (hr : r < 16) :
    (registerText r (m.registers.read r)).toList <:+: (registerMarkup m before).toList := by
  have place := mem_registersOnLine hr
  have line : registerLine m.registers before (r % 4) ∈ registerLines m before := by
    rw [registerLines, List.append_assoc]
    apply List.mem_append_left
    exact List.mem_map_of_mem (List.mem_range.mpr (by omega))
  have entry : (registerSpan m.registers before r).markup.toList <:+:
      (registerLine m.registers before (r % 4)).markup.toList := by
    rw [markup_registerLine_eq]
    exact infix_intercalate (List.mem_map_of_mem place)
  exact ((infix_registerSpan m.registers before r).trans entry).trans
    (infix_intercalate (List.mem_map_of_mem line))

/-- **The register panel is faithful.** Without earlier values the text is that of another machine only
if all values it shows are the same. With earlier values it highlights exactly the registers whose value
is another one, has each register once and with its value, and is the text without earlier values as soon
as the tags of the highlights are deleted. -/
theorem registerMarkup_faithful :
    (∀ m m' : Machine, registerMarkup m none = registerMarkup m' none ↔ SameValues m m') ∧
    ∀ (m : Machine) (before : Option Registers),
      (∀ r : Fin 16, Highlights (registerMarkup m before) r ↔
        ∃ old ∈ before, m.registers.read r ≠ old.read r) ∧
      (∀ r : Fin 16, occurrences (registerLabel r).toList (registerMarkup m before).toList = 1 ∧
        (registerText r (m.registers.read r)).toList <:+: (registerMarkup m before).toList) ∧
      unhighlighted (registerMarkup m before) = registerMarkup m none := by
  refine ⟨fun m m' => ⟨sameValues_of_registerMarkup, fun same => ?_⟩, fun m before => ⟨?_, ?_, ?_⟩⟩
  · exact registerMarkup_of_sameValues same none
  · exact fun r => highlights_iff m before r.isLt
  · exact fun r => ⟨occurrences_registerLabel m before r.isLt, infix_registerMarkup m before r.isLt⟩
  · exact unhighlighted_registerMarkup m before

end Panel
end Chip8
