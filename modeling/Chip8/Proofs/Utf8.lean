import Chip8.Text.Utf8

/-!
# The ASCII part of decoded bytes

Whatever stands between them, and however it is cut, the ASCII characters that are decoded are the ASCII
bytes (`Utf8.onlyAscii_pieces`). A byte below `80` continues no character, and what the bytes from `80` on
come to is a code point from `80` on: the bounds of the next byte leave no other (`Utf8.Lead.Lawful`).
-/

-- powers are those of `Nat` itself, whatever is imported, and a written exponent tells its type for that
attribute [local instance (high)] instPowNat

namespace Chip8.Utf8

/-- A byte, or a code point, of ASCII. -/
def Ascii (v : Nat) : Prop := v < 0x80

instance (v : Nat) : Decidable (Ascii v) := Nat.decLt _ _

/-- The characters of the ASCII bytes among some bytes. -/
def asciiOf (bytes : List UInt8) : List Char :=
  (bytes.filter fun b => Ascii b.toNat).map fun b => Char.ofNat b.toNat

/-- The ASCII characters among some characters. -/
def onlyAscii (chars : List Char) : List Char := chars.filter fun c => Ascii c.toNat

theorem asciiOf_append (bytes bytes' : List UInt8) :
    asciiOf (bytes ++ bytes') = asciiOf bytes ++ asciiOf bytes' := by
  rw [asciiOf, List.filter_append, List.map_append]
  rfl

theorem onlyAscii_append (chars chars' : List Char) :
    onlyAscii (chars ++ chars') = onlyAscii chars ++ onlyAscii chars' :=
  List.filter_append ..

theorem toNat_ofNat {v : Nat} (valid : v.isValidChar) : (Char.ofNat v).toNat = v := by
  rw [Char.ofNat, dif_pos valid]
  rfl

/-! ## Characters that have begun -/

/-- The first code point that a beginning can come to. -/
def Lead.first (p : Lead) : Nat := (p.bits * 64 + (p.low - 0x80)) * 64 ^ p.more

/-- The code point behind the last one that a beginning can come to. -/
def Lead.beyond (p : Lead) : Nat := (p.bits * 64 + (p.high - 0x80) + 1) * 64 ^ p.more

/-- The next byte is none of ASCII, and the character is none either, wherever the bytes lead to. -/
structure Lead.Lawful (p : Lead) : Prop where
  le_low : 0x80 ≤ p.low
  high_le : p.high ≤ 0xBF
  le_first : 0x80 ≤ p.first
  /-- The code points are characters: they lie on one side of the surrogates. -/
  scalar : p.beyond ≤ 0xD800 ∨ 0xE000 ≤ p.first ∧ p.beyond ≤ 0x110000

theorem lead?_lawful {b : Nat} {p : Lead} (h : lead? b = some p) : p.Lawful := by
  unfold lead? at h
  -- one case for each kind of first byte
  repeat' split at h
  all_goals first
    | exact absurd h (Option.some_ne_none p).symm
    | obtain rfl := Option.some.inj h
      refine ⟨?_, ?_, ?_, ?_⟩ <;> simp only [Lead.first, Lead.beyond, Nat.reducePow] <;> omega

/-- A beginning with one byte more, of those between the bounds. -/
def Lead.go (p : Lead) (v more : Nat) : Lead := ⟨p.bits * 64 + (v - 0x80), 0x80, 0xBF, more⟩

theorem Lead.first_go (p : Lead) (v more : Nat) :
    (p.go v more).first = (p.bits * 64 + (v - 0x80)) * 64 ^ (more + 1) := by
  unfold Lead.first Lead.go
  simp only [Nat.sub_self, Nat.add_zero]
  rw [Nat.mul_assoc, ← Nat.pow_succ']

theorem Lead.beyond_go (p : Lead) (v more : Nat) :
    (p.go v more).beyond = (p.bits * 64 + (v - 0x80) + 1) * 64 ^ (more + 1) := by
  unfold Lead.beyond Lead.go
  simp only [Nat.reduceSub]
  rw [Nat.add_assoc, ← Nat.succ_mul, Nat.mul_assoc, ← Nat.pow_succ']

/-- With each byte fewer code points are left to come to. -/
theorem Lead.Lawful.go {p : Lead} (h : p.Lawful) {more v : Nat} (left : p.more = more + 1)
    (low : p.low ≤ v) (high : v ≤ p.high) : (p.go v more).Lawful := by
  have first : p.first ≤ (p.go v more).first := by
    rw [Lead.first_go, Lead.first, left]
    exact Nat.mul_le_mul_right _ (by omega)
  have beyond : (p.go v more).beyond ≤ p.beyond := by
    rw [Lead.beyond_go, Lead.beyond, left]
    exact Nat.mul_le_mul_right _ (by omega)
  refine ⟨Nat.le_refl _, Nat.le_refl _, Nat.le_trans h.le_first first, ?_⟩
  rcases h.scalar with below | ⟨above, below⟩
  · exact .inl (Nat.le_trans beyond below)
  · exact .inr ⟨Nat.le_trans above first, Nat.le_trans beyond below⟩

/-- The last byte within the bounds makes a character that is not one of ASCII. -/
theorem Lead.Lawful.completes {p : Lead} (h : p.Lawful) {v : Nat} (left : p.more = 0)
    (low : p.low ≤ v) (high : v ≤ p.high) :
    ¬ Ascii (Char.ofNat (p.bits * 64 + (v - 0x80))).toNat := by
  obtain ⟨le_low, high_le, le_first, scalar⟩ := h
  unfold Lead.first at le_first scalar
  unfold Lead.beyond at scalar
  rw [left] at le_first scalar
  simp only [Nat.pow_zero, Nat.mul_one] at le_first scalar
  have valid : (p.bits * 64 + (v - 0x80)).isValidChar := by
    unfold Nat.isValidChar
    omega
  rw [toNat_ofNat valid]
  unfold Ascii
  omega

/-! ## The ASCII part -/

theorem asciiOf_cons_of_ascii {b : UInt8} (h : Ascii b.toNat) (rest : List UInt8) :
    asciiOf (b :: rest) = Char.ofNat b.toNat :: asciiOf rest := by
  simp [asciiOf, h]

theorem asciiOf_cons_of_not_ascii {b : UInt8} (h : ¬ Ascii b.toNat) (rest : List UInt8) :
    asciiOf (b :: rest) = asciiOf rest := by
  simp [asciiOf, h]

theorem onlyAscii_cons_of_ascii {v : Nat} (h : Ascii v) (rest : List Char) :
    onlyAscii (Char.ofNat v :: rest) = Char.ofNat v :: onlyAscii rest := by
  have valid : v.isValidChar := .inl (Nat.lt_trans h (by decide))
  have kept : Ascii (Char.ofNat v).toNat := (toNat_ofNat valid).symm ▸ h
  simp [onlyAscii, kept]

theorem onlyAscii_cons_of_not_ascii {c : Char} (h : ¬ Ascii c.toNat) (rest : List Char) :
    onlyAscii (c :: rest) = onlyAscii rest := by
  simp [onlyAscii, h]

/-- A character has begun lawfully, if one has begun. -/
def Pending.Lawful (pending : Pending) : Prop := ∀ p, pending = some p → p.Lawful

theorem Pending.lawful_none : Pending.Lawful none := fun _ begun => nomatch begun

/-- Behind whatever beginning, the ASCII characters that are decoded are the ASCII bytes. -/
theorem onlyAscii_decodeFrom {pending : Pending} (lawful : pending.Lawful) (bytes : List UInt8) :
    onlyAscii (decodeFrom pending bytes) = asciiOf bytes := by
  have led : ∀ v, Pending.Lawful (lead? v) := fun _ _ => lead?_lawful
  fun_induction decodeFrom pending bytes with
  | case1 => rfl
  | case2 b rest v ascii ih =>
    rw [onlyAscii_cons_of_ascii ascii, asciiOf_cons_of_ascii ascii, ih Pending.lawful_none]
  | case3 b rest v other ih => rw [asciiOf_cons_of_not_ascii other, ih (led v)]
  | case4 p b rest v within bits left ih =>
    have ends := (lawful p rfl).completes left within.1 within.2
    have other : ¬ Ascii b.toNat := Nat.not_lt.mpr (Nat.le_trans (lawful p rfl).le_low within.1)
    rw [onlyAscii_cons_of_not_ascii ends, asciiOf_cons_of_not_ascii other, ih Pending.lawful_none]
  | case5 p b rest v within bits more left ih =>
    have goes : (p.go v more).Lawful := (lawful p rfl).go left within.1 within.2
    have other : ¬ Ascii b.toNat := Nat.not_lt.mpr (Nat.le_trans (lawful p rfl).le_low within.1)
    rw [asciiOf_cons_of_not_ascii other]
    exact ih fun _ begun => Option.some.inj begun ▸ goes
  | case6 p b rest v outside ascii ih =>
    rw [onlyAscii_cons_of_ascii ascii, asciiOf_cons_of_ascii ascii, ih Pending.lawful_none]
  | case7 p b rest v outside other ih => rw [asciiOf_cons_of_not_ascii other, ih (led v)]

/-- The ASCII characters that are decoded are the ASCII bytes. -/
theorem onlyAscii_decode (bytes : List UInt8) : onlyAscii (decode bytes) = asciiOf bytes :=
  onlyAscii_decodeFrom Pending.lawful_none bytes

/-- An escape that breaks a character off is kept. -/
example : decode [0xE2, 0x1B, 0x82] = ['\x1b'] := by decide

/-- They are also the ASCII bytes if each of several pieces is decoded by itself. -/
theorem onlyAscii_pieces (pieces : List (List UInt8)) :
    onlyAscii (pieces.flatMap decode) = asciiOf pieces.flatten := by
  induction pieces with
  | nil => rfl
  | cons piece rest ih =>
    rw [List.flatMap_cons, onlyAscii_append, onlyAscii_decode, ih, List.flatten_cons, asciiOf_append]

end Chip8.Utf8
