import Chip8.Panel.Registers
import Chip8.Proofs.Figures
import Chip8.Proofs.Markup

/-!
# What the register panel highlights

The texts of the panel have no brackets and no line ends (`Panel.regular_registerLines`), so a register is
highlighted in the text of the panel exactly if its value is not the earlier one (`Panel.highlights_iff`).
-/

namespace Chip8

open Numeral (figures)

theorem mem_intercalate {separator : String} {parts : List String} {c : Char}
    (h : c ∈ (separator.intercalate parts).toList) :
    c ∈ separator.toList ∨ ∃ part ∈ parts, c ∈ part.toList := by
  induction parts with
  | nil => simp at h
  | cons part rest ih =>
    cases rest with
    | nil => exact .inr ⟨part, List.mem_cons_self, by simpa using h⟩
    | cons next rest =>
      simp only [String.intercalate_cons_cons, String.toList_append, List.mem_append] at h
      rcases h with (here | between) | later
      · exact .inr ⟨part, List.mem_cons_self, here⟩
      · exact .inl between
      · rcases ih later with between | ⟨other, mem, there⟩
        · exact .inl between
        · exact .inr ⟨other, List.mem_cons_of_mem part mem, there⟩

namespace Panel

/-- The text shows a register as one that changed. -/
def Highlights (text : String) (r : Nat) : Prop :=
  ∃ v : UInt8, (Span.styled changedStyle (registerText r v)).markup.toList <:+: text.toList

/-! ## What the panel is written with -/

/-- The text has no bracket and no line end. -/
def Clean (text : String) : Prop := '[' ∉ text.toList ∧ '\n' ∉ text.toList

theorem clean_append {a b : String} : Clean (a ++ b) ↔ Clean a ∧ Clean b := by
  simp only [Clean, String.toList_append, List.mem_append, not_or]
  exact and_and_and_comm

theorem clean_of_figures {text : String} (h : ∀ c ∈ text.toList, c = ' ' ∨ c ∈ figures) :
    Clean text := by
  have others : '[' ∉ ' ' :: figures ∧ '\n' ∉ ' ' :: figures := by decide
  constructor <;> intro written
  · exact others.1 (List.mem_cons.mpr (h _ written))
  · exact others.2 (List.mem_cons.mpr (h _ written))

theorem clean_hex (width : Nat) (v : Int) : Clean (hex width v) :=
  clean_of_figures fun _ written => .inr (hex_figures written)

theorem clean_decimal (v : Int) : Clean (decimal v) :=
  clean_of_figures fun _ written => .inr (decimal_figures written)

theorem clean_decimalPadded (width : Nat) (v : Int) : Clean (decimalPadded width v) :=
  clean_of_figures fun _ written => decimalPadded_figures written

theorem clean_intercalate {separator : String} {parts : List String} (between : Clean separator)
    (h : ∀ part ∈ parts, Clean part) : Clean (separator.intercalate parts) := by
  constructor <;> intro written <;> rcases mem_intercalate written with blank | ⟨part, mem, there⟩
  · exact between.1 blank
  · exact (h part mem).1 there
  · exact between.2 blank
  · exact (h part mem).2 there

/-- A span of the panel has a clean text, and one of the panel's two styles if any. -/
structure Regular (x : Span) : Prop where
  text : Clean x.text
  style : ∀ style ∈ x.style, style = changedStyle ∨ style = waitingStyle

namespace Regular

variable {x : Span}

/-- Brackets are found in tags only. -/
theorem tidy (h : Regular x) : x.Tidy where
  text := h.text.1
  style := by
    intro style styled
    rcases h.style style styled with rfl | rfl <;> simp [changedStyle, waitingStyle]

theorem plain {text : String} (h : Clean text) : Regular (.plain text) where
  text := h
  style := by simp [Span.plain]

theorem changed {text : String} (h : Clean text) : Regular (.styled changedStyle text) where
  text := h
  style := by simp [Span.styled]

theorem waiting {text : String} (h : Clean text) : Regular (.styled waitingStyle text) where
  text := h
  style := by simp [Span.styled]

end Regular

theorem clean_registerText (r : Nat) (v : UInt8) : Clean (registerText r v) := by
  simp only [registerText, clean_append, clean_hex, and_true]
  simp [Clean]

theorem regular_registerSpan (regs : Registers) (before : Option Registers) (r : Nat) :
    Regular (registerSpan regs before r) := by
  have text := clean_registerText r (regs.read r)
  unfold registerSpan
  split
  · split
    · exact .plain text
    · exact .changed text
  · exact .plain text

theorem registerLine_eq (regs : Registers) (before : Option Registers) (line : Nat) :
    registerLine regs before line =
      [registerSpan regs before (line + 0 * 4), .plain "  ",
        registerSpan regs before (line + 1 * 4), .plain "  ",
        registerSpan regs before (line + 2 * 4), .plain "  ",
        registerSpan regs before (line + 3 * 4)] := rfl

/-! ## The lines below the registers -/

/-- The line is of regular spans, and highlights nothing as changed. -/
def Unchanged (line : StyledLine) : Prop := ∀ x ∈ line, Regular x ∧ x.style ≠ some changedStyle

theorem unchanged_plain {text : String} (h : Clean text) : Unchanged [.plain text] := by
  intro x hx
  obtain rfl := List.mem_singleton.mp hx
  exact ⟨.plain h, by simp [Span.plain]⟩

theorem unchanged_addressLine (m : Machine) : Unchanged (addressLine m) := by
  apply unchanged_plain
  simp only [clean_append, clean_hex, clean_decimal, and_true]
  simp [Clean]

theorem unchanged_stackLine (m : Machine) : Unchanged (stackLine m) := by
  unfold stackLine
  split
  · exact unchanged_plain (by simp [Clean])
  · refine unchanged_plain (clean_append.mpr ⟨by simp [Clean], clean_intercalate (by simp [Clean]) ?_⟩)
    intro part frame
    obtain ⟨a, -, rfl⟩ := List.mem_map.mp frame
    exact clean_hex _ _

theorem unchanged_timerLine (m : Machine) : Unchanged (timerLine m) := by
  apply unchanged_plain
  simp only [clean_append, clean_decimalPadded, and_true]
  simp [Clean]

/-- The line of a key wait is styled, but in a style of its own. -/
theorem unchanged_waitingLines (m : Machine) : ∀ line ∈ waitingLines m, Unchanged line := by
  intro line waits
  unfold waitingLines at waits
  split at waits
  · obtain rfl := List.mem_singleton.mp waits
    intro x hx
    obtain rfl := List.mem_singleton.mp hx
    exact ⟨.waiting (clean_append.mpr ⟨by simp [Clean], clean_hex _ _⟩),
      by simp [Span.styled, waitingStyle, changedStyle]⟩
  · exact absurd waits List.not_mem_nil

theorem unchanged_otherLines (m : Machine) :
    ∀ line ∈ [addressLine m, stackLine m, timerLine m] ++ waitingLines m, Unchanged line := by
  intro line mem
  rcases List.mem_append.mp mem with fixed | waits
  · simp only [List.mem_cons, List.not_mem_nil, or_false] at fixed
    rcases fixed with rfl | rfl | rfl
    · exact unchanged_addressLine m
    · exact unchanged_stackLine m
    · exact unchanged_timerLine m
  · exact unchanged_waitingLines m line waits

theorem regular_registerLines (m : Machine) (before : Option Registers) :
    ∀ line ∈ registerLines m before, ∀ x ∈ line, Regular x := by
  have blank : Regular (.plain "  ") := .plain (by simp [Clean])
  intro line mem
  rw [registerLines, List.append_assoc] at mem
  rcases List.mem_append.mp mem with registers | other
  · obtain ⟨k, -, rfl⟩ := List.mem_map.mp registers
    rw [registerLine_eq]
    simp [regular_registerSpan, blank]
  · intro x hx
    exact (unchanged_otherLines m line other x hx).1

/-! ## Highlights -/

theorem hex_digit {r : Nat} (hr : r < 16) : (hex 0 r).toList = [Numeral.digitChar r] := by
  rw [hex, String.toList_ofList, Numeral.zeroPadded, Numeral.ofNat, Numeral.digits]
  simp [hr, Numeral.sign]

theorem digitChar_injective :
    ∀ r < 16, ∀ r' < 16, Numeral.digitChar r = Numeral.digitChar r' → r = r' := by decide

theorem eq_of_registerText {r r' : Nat} {v v' : UInt8} (hr : r < 16) (hr' : r' < 16)
    (h : registerText r v = registerText r' v') : r = r' := by
  have characters := congrArg String.toList h
  simp [registerText, String.toList_append, hex_digit hr, hex_digit hr'] at characters
  exact digitChar_injective r hr r' hr' characters.1

theorem mem_registerLine {regs : Registers} {before : Option Registers} {s : Span}
    (styled : s.style = some changedStyle) {k : Nat} :
    s ∈ registerLine regs before k ↔ ∃ column < 4, s = registerSpan regs before (k + column * 4) := by
  have coloured : s ≠ .plain "  " := by
    rintro rfl
    exact absurd styled (by simp [Span.plain])
  rw [registerLine_eq]
  constructor
  · intro mem
    simp only [List.mem_cons, coloured, false_or, List.not_mem_nil, or_false] at mem
    rcases mem with h | h | h | h
    · exact ⟨0, by decide, h⟩
    · exact ⟨1, by decide, h⟩
    · exact ⟨2, by decide, h⟩
    · exact ⟨3, by decide, h⟩
  · rintro ⟨column, small, rfl⟩
    obtain rfl | rfl | rfl | rfl : column = 0 ∨ column = 1 ∨ column = 2 ∨ column = 3 := by omega
    all_goals simp

theorem changed_of_registerSpan {regs : Registers} {before : Option Registers} {r r' : Nat} {v : UInt8}
    (hr : r < 16) (hr' : r' < 16)
    (h : Span.styled changedStyle (registerText r v) = registerSpan regs before r') :
    ∃ old ∈ before, regs.read r ≠ old.read r := by
  have style := congrArg Span.style h
  unfold registerSpan at h style
  cases before with
  | none => exact absurd style (by simp [Span.styled, Span.plain])
  | some old =>
    simp only at h style
    split at h
    · rename_i same
      rw [if_pos same] at style
      exact absurd style (by simp [Span.styled, Span.plain])
    · rename_i changed
      obtain rfl := eq_of_registerText hr hr' (congrArg Span.text h)
      exact ⟨old, rfl, changed⟩

theorem registerSpan_of_changed {regs : Registers} {before : Option Registers} {r : Nat}
    (h : ∃ old ∈ before, regs.read r ≠ old.read r) :
    registerSpan regs before r = .styled changedStyle (registerText r (regs.read r)) := by
  obtain ⟨old, rfl, changed⟩ := h
  exact if_neg changed

/-- A register is highlighted exactly if there is an earlier value and its value is another. -/
theorem highlights_iff (m : Machine) (before : Option Registers) {r : Nat} (hr : r < 16) :
    Highlights (registerMarkup m before) r ↔
      ∃ old ∈ before, m.registers.read r ≠ old.read r := by
  have found : ∀ v : UInt8,
      (Span.styled changedStyle (registerText r v)).markup.toList <:+: (registerMarkup m before).toList ↔
        ∃ line ∈ registerLines m before, Span.styled changedStyle (registerText r v) ∈ line :=
    fun v => StyledLine.lines_infix_iff
      (fun line mem x hx => (regular_registerLines m before line mem x hx).tidy)
      (Regular.changed (clean_registerText r v)).tidy rfl
  constructor
  · rintro ⟨v, occurs⟩
    obtain ⟨line, mem, hs⟩ := (found v).mp occurs
    rw [registerLines, List.append_assoc] at mem
    rcases List.mem_append.mp mem with registers | other
    · obtain ⟨k, hk, rfl⟩ := List.mem_map.mp registers
      have low := List.mem_range.mp hk
      obtain ⟨column, small, same⟩ := (mem_registerLine rfl).mp hs
      exact changed_of_registerSpan hr (by omega) same
    · exact absurd rfl (unchanged_otherLines m line other _ hs).2
  · intro changed
    refine ⟨m.registers.read r, (found _).mpr ⟨registerLine m.registers before (r % 4), ?_, ?_⟩⟩
    · rw [registerLines, List.append_assoc]
      apply List.mem_append_left
      exact List.mem_map_of_mem (List.mem_range.mpr (Nat.mod_lt r (by decide)))
    · refine (mem_registerLine rfl).mpr ⟨r / 4, by omega, ?_⟩
      have place : r % 4 + r / 4 * 4 = r := by omega
      rw [place, registerSpan_of_changed changed]

end Panel
end Chip8
