import Chip8.Fault

/-!
# Figures

A written number consists of figures: a minus sign and digits (`Numeral.zeroPadded_figures`). So a
text made of numbers and fixed words has no line end in it, as that of a fault
(`Fault.message_single_line`).
-/

-- powers are those of the number types themselves
attribute [local instance (high)] instPowNat

namespace Chip8

namespace Numeral

/-- The characters that numbers are written with, in any base up to sixteen. -/
def figures : List Char :=
  ['-', '0', '1', '2', '3', '4', '5', '6', '7', '8', '9', 'A', 'B', 'C', 'D', 'E', 'F']

theorem lt_of_mem_digits {base n d : Nat} (hb : 2 ≤ base) (h : d ∈ digits base n) : d < base := by
  induction n using digits.induct base with
  | case1 n short =>
    rw [digits, if_pos short] at h
    obtain rfl := List.mem_singleton.mp h
    omega
  | case2 n long ih =>
    rw [digits, if_neg long] at h
    rcases List.mem_append.mp h with leading | last
    · exact ih leading
    · rw [List.mem_singleton.mp last]
      exact Nat.mod_lt n (by omega)

theorem digitChar_mem_figures : ∀ d < 16, digitChar d ∈ figures := by decide

theorem ofNat_figures {base : Nat} (low : 2 ≤ base) (high : base ≤ 16) {n : Nat} {c : Char}
    (h : c ∈ ofNat base n) : c ∈ figures := by
  obtain ⟨d, hd, rfl⟩ := List.mem_map.mp h
  exact digitChar_mem_figures d (Nat.lt_of_lt_of_le (lt_of_mem_digits low hd) high)

theorem sign_figures {v : Int} {c : Char} (h : c ∈ sign v) : c ∈ figures := by
  unfold sign at h
  split at h
  · rw [List.mem_singleton.mp h]
    decide
  · exact absurd h List.not_mem_nil

theorem zeroPadded_figures {base : Nat} (low : 2 ≤ base) (high : base ≤ 16) {width : Nat} {v : Int}
    {c : Char} (h : c ∈ zeroPadded base width v) : c ∈ figures := by
  unfold zeroPadded at h
  simp only [List.mem_append] at h
  rcases h with (signed | filled) | digit
  · exact sign_figures signed
  · rw [List.eq_of_mem_replicate filled]
    decide
  · exact ofNat_figures low high digit

theorem mem_groupReversed {text : List Char} {c : Char} (h : c ∈ groupReversed text) :
    c = ',' ∨ c ∈ text := by
  induction text using groupReversed.induct with
  | case1 x y z w rest ih =>
    simp only [groupReversed, List.mem_cons] at h ih ⊢
    grind
  | case2 text short =>
    rw [groupReversed] at h
    · exact .inr h
    · exact short

theorem grouped_figures {v : Int} {c : Char} (h : c ∈ grouped v) : c = ',' ∨ c ∈ figures := by
  rw [grouped, List.mem_append, List.mem_reverse] at h
  rcases h with signed | digit
  · exact .inr (sign_figures signed)
  · rcases mem_groupReversed digit with comma | digit
    · exact .inl comma
    · exact .inr (ofNat_figures (by decide) (by decide) (List.mem_reverse.mp digit))

theorem mem_padLeft {width : Nat} {text : List Char} {c : Char} (h : c ∈ padLeft width text) :
    c = ' ' ∨ c ∈ text := by
  rcases List.mem_append.mp h with blank | written
  · exact .inl (List.eq_of_mem_replicate blank)
  · exact .inr written

theorem isWritable_natCast (n : Nat) : isWritable n = decide (n < 10 ^ decimalLimit) := by
  rw [isWritable, Int.natAbs_natCast]

theorem isWritable_of_lt {n : Nat} (h : n < 10 ^ decimalLimit) : isWritable n = true :=
  (isWritable_natCast n).trans (decide_eq_true h)

theorem isWritable_of_not_lt {n : Nat} (h : ¬ n < 10 ^ decimalLimit) : isWritable n = false :=
  (isWritable_natCast n).trans (decide_eq_false h)

/-- What is between zero and a number that can be written can be written. -/
theorem isWritable_of_le {a b : Int} (low : 0 ≤ a) (high : a ≤ b) (written : isWritable b = true) :
    isWritable a = true := by
  have bound : b.natAbs < 10 ^ decimalLimit := of_decide_eq_true written
  exact decide_eq_true (Nat.lt_of_le_of_lt (by omega) bound)

end Numeral

open Numeral (figures)

theorem decimal_figures {v : Int} {c : Char} (h : c ∈ (decimal v).toList) : c ∈ figures := by
  rw [decimal, String.toList_ofList] at h
  exact Numeral.zeroPadded_figures (by decide) (by decide) h

theorem decimalPadded_figures {width : Nat} {v : Int} {c : Char}
    (h : c ∈ (decimalPadded width v).toList) : c = ' ' ∨ c ∈ figures := by
  rw [decimalPadded, String.toList_ofList] at h
  exact (Numeral.mem_padLeft h).imp_right (Numeral.zeroPadded_figures (by decide) (by decide))

theorem decimalGrouped_figures {width : Nat} {v : Int} {c : Char}
    (h : c ∈ (decimalGrouped width v).toList) : c = ' ' ∨ c = ',' ∨ c ∈ figures := by
  rw [decimalGrouped, String.toList_ofList] at h
  exact (Numeral.mem_padLeft h).imp_right Numeral.grouped_figures

theorem hex_figures {width : Nat} {v : Int} {c : Char} (h : c ∈ (hex width v).toList) :
    c ∈ figures := by
  rw [hex, String.toList_ofList] at h
  exact Numeral.zeroPadded_figures (by decide) (by decide) h

/-- The text of a fault is a single line. -/
theorem Fault.message_single_line (f : Fault) : '\n' ∉ f.message.toList := by
  have line : '\n' ∉ figures := by decide
  have decimals : ∀ v : Int, '\n' ∉ (decimal v).toList := by
    intro v written
    exact line (decimal_figures written)
  have hexes : ∀ (width : Nat) (v : Int), '\n' ∉ (hex width v).toList := by
    intro width v written
    exact line (hex_figures written)
  delta message
  cases f <;> simp only [String.toList_append, List.mem_append, not_or]
  case programTooLarge => exact ⟨⟨⟨⟨by simp, decimals _⟩, by simp⟩, decimals _⟩, by simp⟩
  case outOfBounds => exact ⟨⟨⟨⟨by simp, hexes _ _⟩, by simp⟩, decimals _⟩, by simp⟩
  case stackOverflow => exact ⟨by simp, decimals _⟩
  case stackUnderflow => simp
  case unimplementedOpcode => exact ⟨by simp, hexes _ _⟩

end Chip8
