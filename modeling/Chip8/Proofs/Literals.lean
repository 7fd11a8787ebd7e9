import Chip8.Number.Literal
import Chip8.Proofs.Numerals

/-!
# Decimal numbers as literals

A positive number that is written in decimal is read as that number, as long as its digits are not too
many to be read (`readInteger?_decimal`). What is read as a positive number does not begin with a minus
sign (`minus_ne_head`).
-/

-- powers are those of `Nat` itself
attribute [local instance (high)] instPowNat

namespace Chip8

namespace Numeral

theorem digits_ne_nil (base n : Nat) : digits base n ≠ [] := by
  rw [digits]
  split <;> simp

theorem head_digits_ne_zero {n : Nat} (positive : 0 < n) : (digits 10 n).head? ≠ some 0 := by
  induction n using digits.induct 10 with
  | case1 n short =>
    rw [digits, if_pos short]
    simpa using Nat.pos_iff_ne_zero.mp positive
  | case2 n long ih =>
    obtain ⟨d, rest, front⟩ := List.exists_cons_of_ne_nil (digits_ne_nil 10 (n / 10))
    have leading := ih (by omega)
    rw [front] at leading
    rw [digits, if_neg long, front]
    exact leading

/-- A number has as many digits as the power of ten above it has zeros. -/
theorem length_digits_le_iff {n k : Nat} (hk : 0 < k) : (digits 10 n).length ≤ k ↔ n < 10 ^ k := by
  induction n using digits.induct 10 generalizing k with
  | case1 n short =>
    have power : 10 ^ 1 ≤ 10 ^ k := Nat.pow_le_pow_right (by decide) hk
    rw [digits, if_pos short, List.length_singleton]
    exact ⟨fun _ => by omega, fun _ => hk⟩
  | case2 n long ih =>
    rw [digits, if_neg long, List.length_append, List.length_singleton]
    rcases Nat.lt_or_eq_of_le hk with more | one
    · obtain ⟨k, rfl⟩ : ∃ l, k = l + 1 := ⟨k - 1, by omega⟩
      rw [Nat.add_le_add_iff_right, ih (by omega), Nat.pow_succ, Nat.div_lt_iff_lt_mul (by decide)]
    · have some_digit := List.length_pos_iff.mpr (digits_ne_nil 10 (n / 10))
      rw [← one]
      omega

/-- The number of the digits of a number. -/
theorem foldl_digits (n : Nat) : (digits 10 n).foldl (fun n d => n * 10 + d) 0 = n := by
  induction n using digits.induct 10 with
  | case1 n short =>
    rw [digits, if_pos short]
    simp
  | case2 n long ih =>
    rw [digits, if_neg long, List.foldl_append, ih, List.foldl_cons, List.foldl_nil]
    omega

end Numeral

namespace Literal

open Numeral (digitChar)

/-! ## A text of digits -/

/-- What the parts of a literal make of a digit: it is itself, no blank, no separator and no sign. -/
theorem digitChar_read : ∀ d < 10, asciiForm (digitChar d) = digitChar d ∧
    isBlank (digitChar d) = false ∧ digitChar d ≠ '_' ∧ digitValue? (digitChar d) = some d ∧
    digitChar d ≠ '-' ∧ digitChar d ≠ '+' ∧ (digitChar d = '0' ↔ d = 0) := by decide

theorem trim_of_no_blank {text : List Char} (h : ∀ c ∈ text, isBlank c = false) :
    trim text = text := by
  have front : ∀ {l : List Char}, (∀ c ∈ l, isBlank c = false) → l.dropWhile isBlank = l := by
    intro l plain
    cases l with
    | nil => rfl
    | cons c rest => rw [List.dropWhile_cons_of_neg (by simp [plain c List.mem_cons_self])]
  rw [trim, front h, front fun c hc => h c (List.mem_reverse.mp hc), List.reverse_reverse]

theorem digits?_map_digitChar {ds : List Nat} (small : ∀ d ∈ ds, d < 10) (separated : Bool)
    (acc : List Nat) (some_digit : separated = true → ds ≠ []) :
    digits? 10 separated acc (ds.map digitChar) = some (ds.reverse ++ acc) := by
  induction ds generalizing separated acc with
  | nil =>
    cases separated with
    | true => exact absurd rfl (some_digit rfl)
    | false => rfl
  | cons d rest ih =>
    have hd := small d List.mem_cons_self
    obtain ⟨-, -, joined, value, -⟩ := digitChar_read d hd
    rw [List.map_cons, digits?, if_neg joined, value]
    simp only [hd, if_true]
    rw [ih (fun e he => small e (List.mem_cons_of_mem d he)) false (d :: acc) (by simp)]
    simp

theorem marked?_of_ne_zero {c : Char} (h : c ≠ '0') (rest : List Char) :
    marked? (c :: rest) = magnitude? 10 (c :: rest) := by
  unfold marked?
  split
  case h_8 => rfl
  -- every mark begins with a zero
  all_goals
    rename_i shape
    exact absurd (List.cons.inj shape).1 h

/-- Digits that do not begin with zero are read in decimal, if they are not too many. -/
theorem signed?_map_digitChar {ds : List Nat} (small : ∀ d ∈ ds, d < 10) (some_digit : ds ≠ [])
    (leading : ds.head? ≠ some 0) :
    signed? marked? (ds.map digitChar) =
      if Numeral.decimalLimit < ds.length then none
      else some ((ds.foldl (fun n d => n * 10 + d) 0 : Nat) : Int) := by
  obtain ⟨d, rest, rfl⟩ := List.exists_cons_of_ne_nil some_digit
  obtain ⟨-, -, -, -, unsigned, positive, zero⟩ := digitChar_read d (small d List.mem_cons_self)
  have ascii : ((d :: rest).map digitChar).map asciiForm = (d :: rest).map digitChar := by
    rw [List.map_map]
    exact List.map_congr_left fun e he => (digitChar_read e (small e he)).1
  have plain : ∀ c ∈ (d :: rest).map digitChar, isBlank c = false := by
    intro c hc
    obtain ⟨e, he, rfl⟩ := List.mem_map.mp hc
    exact (digitChar_read e (small e he)).2.1
  have magnitude : marked? ((d :: rest).map digitChar) =
      if Numeral.decimalLimit < (d :: rest).length then none
      else some ((d :: rest).foldl (fun n d => n * 10 + d) 0) := by
    have first : digitChar d ≠ '0' := fun h => leading (by rw [zero.mp h]; rfl)
    have unmarked := marked?_of_ne_zero first (rest.map digitChar)
    rw [← List.map_cons] at unmarked
    rw [unmarked, magnitude?, digits?_map_digitChar small true [] fun _ => some_digit,
      List.append_nil]
    simp only [true_and, List.length_reverse, List.foldr_reverse]
  rw [signed?, ascii, trim_of_no_blank plain]
  split
  · rename_i h
    exact absurd (List.cons.inj h).1 unsigned
  · rename_i h
    exact absurd (List.cons.inj h).1 positive
  · rw [magnitude]
    split <;> rfl

/-! ## A minus sign -/

theorem trim_cons {c : Char} (h : isBlank c = false) (rest : List Char) :
    ∃ rest', trim (c :: rest) = c :: rest' := by
  have kept : (c :: rest).dropWhile isBlank = c :: rest := List.dropWhile_cons_of_neg (by simp [h])
  rw [trim, kept, List.reverse_cons]
  have last : (rest.reverse ++ [c]).dropWhile isBlank = rest.reverse.dropWhile isBlank ++ [c] := by
    have kept : [c].dropWhile isBlank = [c] := List.dropWhile_cons_of_neg (by simp [h])
    rw [List.dropWhile_append, kept]
    split
    · rename_i all
      rw [List.isEmpty_iff.mp all, List.nil_append]
    · rfl
  exact ⟨(rest.reverse.dropWhile isBlank).reverse, by rw [last, List.reverse_append]; rfl⟩

/-- A text that begins with a minus sign is not read as a positive number. -/
theorem minus_ne_head {text : String} {v : Int} (read : readInteger? text = some v)
    (positive : 0 < v) : text.toList.head? ≠ some '-' := by
  intro minus
  obtain ⟨rest, signed⟩ : ∃ rest, text.toList = '-' :: rest := by
    cases h : text.toList with
    | nil => rw [h] at minus; exact absurd minus (by simp)
    | cons c rest =>
      rw [h, List.head?_cons] at minus
      exact ⟨rest, by rw [Option.some.inj minus]⟩
  obtain ⟨body, trimmed⟩ := trim_cons (c := '-') (by decide) (rest.map asciiForm)
  have ascii : asciiForm '-' = '-' := rfl
  rw [readInteger?, signed, signed?, List.map_cons, ascii, trimmed] at read
  obtain ⟨n, -, negative⟩ := Option.map_eq_some_iff.mp read
  omega

end Literal

/-- A positive number in decimal is read as itself, if it has no more digits than are read. -/
theorem readInteger?_decimal {v : Int} (positive : 0 < v) :
    readInteger? (decimal v) = if Numeral.isWritable v then some v else none := by
  have unsigned : Numeral.zeroPadded 10 0 v = (Numeral.digits 10 v.natAbs).map Numeral.digitChar := by
    rw [Numeral.zeroPadded, Numeral.sign, if_neg (by omega)]
    simp [Numeral.ofNat]
  have small : ∀ d ∈ Numeral.digits 10 v.natAbs, d < 10 := fun d hd =>
    Numeral.lt_of_mem_digits (by decide) hd
  have long : Numeral.decimalLimit < (Numeral.digits 10 v.natAbs).length ↔
      ¬ Numeral.isWritable v = true := by
    rw [← Nat.not_le, Numeral.length_digits_le_iff (by decide), Numeral.isWritable, decide_eq_true_iff]
  rw [readInteger?, decimal, String.toList_ofList, unsigned,
    Literal.signed?_map_digitChar small (Numeral.digits_ne_nil 10 _)
      (Numeral.head_digits_ne_zero (by omega)), Numeral.foldl_digits]
  by_cases written : Numeral.isWritable v = true
  · rw [if_pos written, if_neg (by rw [long]; simpa using written), Int.natAbs_of_nonneg (by omega)]
  · rw [if_neg written, if_pos (long.mpr written)]

end Chip8
