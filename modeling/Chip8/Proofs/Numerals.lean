import Chip8.Proofs.Figures

/-!
# Numbers read back

A number can be read back from its digits (`Numeral.valueOf_zeroPadded`), whatever zeros were filled in,
so two numbers that are written alike are equal.
-/

namespace Chip8

namespace Numeral

/-- The value of a digit. -/
def digitOf (c : Char) : Nat :=
  if c.toNat < 'A'.toNat then c.toNat - '0'.toNat else c.toNat - 'A'.toNat + 10

/-- The number of some digits in a base, the most significant first. -/
def magnitudeOf (base : Nat) (text : List Char) : Nat :=
  text.foldl (fun n c => n * base + digitOf c) 0

/-- The number of a sign, if there is one, and digits. -/
def valueOf (base : Nat) : List Char → Int
  | '-' :: text => -magnitudeOf base text
  | text => magnitudeOf base text

theorem digitOf_digitChar : ∀ d < 16, digitOf (digitChar d) = d := by decide

theorem digitChar_ne_minus : ∀ d < 16, digitChar d ≠ '-' := by decide

theorem magnitudeOf_snoc (base : Nat) (text : List Char) (c : Char) :
    magnitudeOf base (text ++ [c]) = magnitudeOf base text * base + digitOf c := by
  rw [magnitudeOf, List.foldl_append]
  rfl

theorem magnitudeOf_zeros (base n : Nat) (text : List Char) :
    magnitudeOf base (List.replicate n '0' ++ text) = magnitudeOf base text := by
  induction n with
  | zero => rfl
  | succ n ih =>
    have zero : digitOf '0' = 0 := rfl
    rw [List.replicate_succ, List.cons_append, ← ih]
    simp [magnitudeOf, zero]

theorem magnitudeOf_ofNat {base : Nat} (low : 2 ≤ base) (high : base ≤ 16) (n : Nat) :
    magnitudeOf base (ofNat base n) = n := by
  induction n using digits.induct base with
  | case1 n short =>
    have small : n < 16 := by omega
    rw [ofNat, digits, if_pos short]
    simpa [magnitudeOf] using digitOf_digitChar n small
  | case2 n long ih =>
    have small : n % base < 16 := Nat.lt_of_lt_of_le (Nat.mod_lt n (by omega)) high
    rw [ofNat] at ih ⊢
    rw [digits, if_neg long, List.map_append, List.map_singleton, magnitudeOf_snoc, ih,
      digitOf_digitChar _ small, Nat.mul_comm, Nat.div_add_mod]

theorem valueOf_of_notMem {base : Nat} {text : List Char} (h : '-' ∉ text) :
    valueOf base text = magnitudeOf base text := by
  unfold valueOf
  split
  · exact absurd List.mem_cons_self h
  · rfl

theorem minus_notMem_ofNat {base : Nat} (low : 2 ≤ base) (high : base ≤ 16) (n : Nat) :
    '-' ∉ ofNat base n := by
  intro written
  obtain ⟨d, hd, minus⟩ := List.mem_map.mp written
  exact digitChar_ne_minus d (Nat.lt_of_lt_of_le (lt_of_mem_digits low hd) high) minus

/-- A number is read back from what is written. -/
theorem valueOf_zeroPadded {base : Nat} (low : 2 ≤ base) (high : base ≤ 16) (width : Nat) (v : Int) :
    valueOf base (zeroPadded base width v) = v := by
  have body (n : Nat) :
      (magnitudeOf base (List.replicate n '0' ++ ofNat base v.natAbs) : Int) = v.natAbs := by
    rw [magnitudeOf_zeros, magnitudeOf_ofNat low high]
  unfold zeroPadded sign
  split
  · rename_i negative
    simp only [List.cons_append, List.nil_append, valueOf, body]
    omega
  · have unsigned (n : Nat) : '-' ∉ List.replicate n '0' ++ ofNat base v.natAbs := by
      rw [List.mem_append, not_or]
      exact ⟨by simp, minus_notMem_ofNat low high _⟩
    simp only [List.nil_append, valueOf_of_notMem (unsigned _), body]
    omega

theorem zeroPadded_injective {base width : Nat} (low : 2 ≤ base) (high : base ≤ 16) {v v' : Int}
    (h : zeroPadded base width v = zeroPadded base width v') : v = v' := by
  rw [← valueOf_zeroPadded low high width v, h, valueOf_zeroPadded low high]

/-- The blanks that fill a text are told from a text without blanks. -/
theorem dropWhile_padLeft {width : Nat} {text : List Char} (h : ' ' ∉ text) :
    (padLeft width text).dropWhile (· = ' ') = text := by
  unfold padLeft
  induction width - text.length with
  | zero =>
    cases text with
    | nil => rfl
    | cons c rest =>
      have first : c ≠ ' ' := fun blank => h (by simp [blank])
      simp [first]
  | succ n ih => simpa [List.replicate_succ] using ih

end Numeral

theorem hex_injective {width : Nat} {v v' : Int} (h : hex width v = hex width v') : v = v' :=
  Numeral.zeroPadded_injective (by decide) (by decide) (String.ofList_injective h)

theorem decimal_injective {v v' : Int} (h : decimal v = decimal v') : v = v' :=
  Numeral.zeroPadded_injective (by decide) (by decide) (String.ofList_injective h)

theorem decimalPadded_injective {width : Nat} {v v' : Int}
    (h : decimalPadded width v = decimalPadded width v') : v = v' := by
  have blank (v : Int) : ' ' ∉ Numeral.zeroPadded 10 0 v := fun written =>
    absurd (Numeral.zeroPadded_figures (by decide) (by decide) written) (by decide)
  have padded := congrArg (List.dropWhile (· = ' ')) (String.ofList_injective h)
  rw [Numeral.dropWhile_padLeft (blank v), Numeral.dropWhile_padLeft (blank v')] at padded
  exact Numeral.zeroPadded_injective (by decide) (by decide) padded

end Chip8
