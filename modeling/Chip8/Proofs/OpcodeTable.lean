import Chip8.Instruction

/-!
# The opcode table

The encodings of the operations exclude one another, so a word is of at most one of them and the
search through the table finds it (`Operation.ofWord?_eq_some_iff`). Which words are of any encoding
is said once more by families of words with a common first digit (`Operation.listed_iff`), and the
operands of an instruction are the digits of its word (`Instruction.decode?_eq`). The names under which
instructions are executed are the mnemonics to which words are decoded (`Instruction.assemble_eq_ok_iff`).
-/

namespace Chip8

/-! ## Encodings exclude one another -/

/-- No digit is admitted by both. -/
def Digit.excludes : Digit → Digit → Bool
  | .fixed a, .fixed b => a != b
  | _, _ => false

/-- Some digit tells the two encodings apart. -/
def Encoding.excludes (e e' : Encoding) : Bool :=
  e.first.excludes e'.first || e.second.excludes e'.second ||
    e.third.excludes e'.third || e.fourth.excludes e'.fourth

theorem Digit.excludes_sound {a b : Digit} (h : a.excludes b = true) (d : Nat) :
    ¬ (a.admits d = true ∧ b.admits d = true) := by
  cases a <;> cases b <;> simp_all [excludes, admits]

theorem Encoding.excludes_sound {e e' : Encoding} (h : e.excludes e' = true) {w : Nat}
    (hw : e.admits w = true) : ¬ e'.admits w = true := by
  intro hw'
  simp only [excludes, Bool.or_eq_true] at h
  simp only [admits, Bool.and_eq_true] at hw hw'
  obtain ⟨⟨⟨h1, h2⟩, h3⟩, h4⟩ := hw
  obtain ⟨⟨⟨h1', h2'⟩, h3'⟩, h4'⟩ := hw'
  rcases h with ((h | h) | h) | h
  · exact Digit.excludes_sound h _ ⟨h1, h1'⟩
  · exact Digit.excludes_sound h _ ⟨h2, h2'⟩
  · exact Digit.excludes_sound h _ ⟨h3, h3'⟩
  · exact Digit.excludes_sound h _ ⟨h4, h4'⟩

/-! ## Which words an encoding admits -/

section

variable {w : Nat} (hw : w < 65536) {a b c d : Nat}
include hw

theorem Encoding.admits_firstDigit :
    (⟨.fixed a, .operand, .operand, .operand⟩ : Encoding).admits w = true ↔ w / 4096 = a := by
  simp only [admits, Digit.admits, Bool.and_true, beq_iff_eq]
  omega

theorem Encoding.admits_lastDigit :
    (⟨.fixed a, .operand, .operand, .fixed d⟩ : Encoding).admits w = true ↔
      w / 4096 = a ∧ w % 16 = d := by
  simp only [admits, Digit.admits, Bool.and_true, Bool.and_eq_true, beq_iff_eq]
  omega

theorem Encoding.admits_lowByte (hc : c < 16) (hd : d < 16) :
    (⟨.fixed a, .operand, .fixed c, .fixed d⟩ : Encoding).admits w = true ↔
      w / 4096 = a ∧ w % 256 = 16 * c + d := by
  simp only [admits, Digit.admits, Bool.and_true, Bool.and_eq_true, beq_iff_eq]
  omega

theorem Encoding.admits_word (hb : b < 16) (hc : c < 16) (hd : d < 16) :
    (⟨.fixed a, .fixed b, .fixed c, .fixed d⟩ : Encoding).admits w = true ↔
      w = 4096 * a + 256 * b + 16 * c + d := by
  simp only [admits, Digit.admits, Bool.and_eq_true, beq_iff_eq]
  omega

end

namespace Operation

theorem mem_all (op : Operation) : op ∈ all := by
  cases op with
  | alu op => cases op <;> decide
  | _ => decide

/-- Any two operations are told apart by a digit that both of them fix. -/
theorem encoding_excludes :
    ∀ a ∈ all, ∀ b ∈ all, a ≠ b → a.encoding.excludes b.encoding = true := by
  decide

/-- A word is of one encoding at most. -/
theorem encoding_unique {a b : Operation} {w : Nat} (ha : a.encoding.admits w = true)
    (hb : b.encoding.admits w = true) : a = b := by
  by_cases hab : a = b
  · exact hab
  · have told := encoding_excludes a (mem_all a) b (mem_all b) hab
    exact absurd hb (Encoding.excludes_sound told ha)

/-- The search finds the operation whose encoding the word is of. -/
theorem ofWord?_eq_some_iff {w : Nat} {op : Operation} :
    ofWord? w = some op ↔ op.encoding.admits w = true := by
  constructor
  · intro h
    have admitted := List.find?_some h
    exact admitted
  · intro h
    cases hf : ofWord? w with
    | none =>
      have missed := List.find?_eq_none.mp hf op (mem_all op)
      exact absurd h missed
    | some found =>
      have admitted := List.find?_some hf
      rw [encoding_unique admitted h]

theorem ofWord?_eq_none_iff {w : Nat} :
    ofWord? w = none ↔ ∀ op : Operation, ¬ op.encoding.admits w = true := by
  constructor
  · intro h op hop
    rw [ofWord?_eq_some_iff.mpr hop] at h
    exact absurd h (by simp)
  · intro h
    cases hf : ofWord? w with
    | none => rfl
    | some op => exact absurd (ofWord?_eq_some_iff.mp hf) (h op)

/-- All register-register operations have one first digit. -/
theorem firstDigit_of_alu {op : Alu} {w : Nat} (hw : w < 65536)
    (admitted : (alu op).encoding.admits w = true) : w / 4096 = 0x8 := by
  cases op <;> exact ((Encoding.admits_lastDigit hw).mp admitted).1

/-- A mnemonic names its operation: no two operations share one. -/
theorem ofMnemonic?_mnemonic (op : Operation) : ofMnemonic? op.mnemonic = some op := by
  cases op with
  | alu op => cases op <;> decide
  | _ => decide

/-! ## The table by families -/

/-- The words that the opcode table lists: three words of the first digit `0`, ten families that
take any operands, and five in which the last digit or the low byte selects the operation. -/
def Listed (w : Nat) : Prop :=
  w = 0x0000 ∨ w = 0x00E0 ∨ w = 0x00EE ∨
  w / 4096 ∈ [0x1, 0x2, 0x3, 0x4, 0x6, 0x7, 0xA, 0xB, 0xC, 0xD] ∨
  (w / 4096 = 0x5 ∨ w / 4096 = 0x9) ∧ w % 16 = 0x0 ∨
  w / 4096 = 0x8 ∧ w % 16 ∈ [0x0, 0x1, 0x2, 0x3, 0x4, 0x5, 0x6, 0x7, 0xE] ∨
  w / 4096 = 0xE ∧ w % 256 ∈ [0x9E, 0xA1] ∨
  w / 4096 = 0xF ∧ w % 256 ∈ [0x07, 0x0A, 0x15, 0x18, 0x1E, 0x29, 0x33, 0x55, 0x65]

/-- Every row of the families is an encoding of the table. -/
theorem encoding_of_listed {w : Nat} (h : w < 65536) (hw : Listed w) :
    ∃ op : Operation, op.encoding.admits w = true := by
  have byte : w % 256 / 16 < 16 ∧ w % 256 % 16 < 16 ∧
      w % 256 = 16 * (w % 256 / 16) + w % 256 % 16 := by omega
  obtain ⟨third, fourth, digits⟩ := byte
  -- within a family the digits that select the operation are looked up in the table together
  rcases hw with hw | hw | hw | hw | ⟨hw, hd⟩ | ⟨hw, hd⟩ | ⟨hw, hd⟩ | ⟨hw, hd⟩
  · exact ⟨.nop, by subst hw; rfl⟩
  · exact ⟨.clearScreen, by subst hw; rfl⟩
  · exact ⟨.ret, by subst hw; rfl⟩
  · have rows : ∀ d ∈ [0x1, 0x2, 0x3, 0x4, 0x6, 0x7, 0xA, 0xB, 0xC, 0xD],
        ∃ op ∈ all, op.encoding = ⟨.fixed d, .operand, .operand, .operand⟩ := by decide
    obtain ⟨op, -, row⟩ := rows _ hw
    exact ⟨op, by rw [row, Encoding.admits_firstDigit h]⟩
  · have rows : ∀ d, d = 0x5 ∨ d = 0x9 →
        ∃ op ∈ all, op.encoding = ⟨.fixed d, .operand, .operand, .fixed 0x0⟩ := by
      rintro d (rfl | rfl) <;> decide
    obtain ⟨op, -, row⟩ := rows _ hw
    exact ⟨op, by rw [row, Encoding.admits_lastDigit h]; exact ⟨rfl, hd⟩⟩
  · have rows : ∀ d ∈ [0x0, 0x1, 0x2, 0x3, 0x4, 0x5, 0x6, 0x7, 0xE],
        ∃ op ∈ all, op.encoding = ⟨.fixed 0x8, .operand, .operand, .fixed d⟩ := by decide
    obtain ⟨op, -, row⟩ := rows _ hd
    exact ⟨op, by rw [row, Encoding.admits_lastDigit h]; exact ⟨hw, rfl⟩⟩
  · have rows : ∀ b ∈ [0x9E, 0xA1],
        ∃ op ∈ all, op.encoding = ⟨.fixed 0xE, .operand, .fixed (b / 16), .fixed (b % 16)⟩ := by
      decide
    obtain ⟨op, -, row⟩ := rows _ hd
    exact ⟨op, by rw [row, Encoding.admits_lowByte h third fourth]; exact ⟨hw, digits⟩⟩
  · have rows : ∀ b ∈ [0x07, 0x0A, 0x15, 0x18, 0x1E, 0x29, 0x33, 0x55, 0x65],
        ∃ op ∈ all, op.encoding = ⟨.fixed 0xF, .operand, .fixed (b / 16), .fixed (b % 16)⟩ := by
      decide
    obtain ⟨op, -, row⟩ := rows _ hd
    exact ⟨op, by rw [row, Encoding.admits_lowByte h third fourth]; exact ⟨hw, digits⟩⟩

/-- The listed words are those of an encoding. -/
theorem listed_iff {w : Nat} (h : w < 65536) :
    Listed w ↔ ∃ op : Operation, op.encoding.admits w = true := by
  constructor
  · exact encoding_of_listed h
  · rintro ⟨op, hop⟩
    cases op with
    | alu op =>
      cases op <;> rw [encoding, Encoding.admits_lastDigit h] at hop <;> simp [Listed, hop]
    | _ =>
      simp only [encoding, Encoding.admits_firstDigit h, Encoding.admits_lastDigit h,
        Encoding.admits_lowByte h, Encoding.admits_word h, Nat.reduceLT, Nat.reduceMul,
        Nat.reduceAdd] at hop
      simp [Listed, hop]

end Operation

/-! ## Operands -/

namespace Instruction

/-- An operation with the digits of a word as its operands. -/
def ofWord (op : Operation) (w : Nat) : Instruction where
  operation := op
  word := w
  x := (w / 256 % 16 : Nat)
  y := (w / 16 % 16 : Nat)
  n := (w % 16 : Nat)
  kk := (w % 256 : Nat)
  nnn := (w % 4096 : Nat)

/-- The address in a word has twelve bits. -/
theorem nnn_ofWord_mem (op : Operation) (w : Nat) :
    0 ≤ (ofWord op w).nnn ∧ (ofWord op w).nnn ≤ 0xFFF := by
  unfold ofWord
  simp only
  omega

theorem decode?_eq {w : Nat} (h : w < 65536) :
    decode? w = (Operation.ofWord? w).map fun op => ofWord op w := by
  have low : ((w : Int) % 65536).toNat = w := by omega
  simp only [decode?, low]
  cases Operation.ofWord? w <;> rfl

/-- An instruction is decoded exactly from the words of its encoding, with their digits as its
operands. -/
theorem decode?_eq_some_iff {w : Nat} (h : w < 65536) {i : Instruction} :
    decode? w = some i ↔ i.operation.encoding.admits w = true ∧ i = ofWord i.operation w := by
  rw [decode?_eq h, Option.map_eq_some_iff]
  constructor
  · rintro ⟨op, hop, rfl⟩
    exact ⟨Operation.ofWord?_eq_some_iff.mp hop, rfl⟩
  · rintro ⟨admitted, hi⟩
    exact ⟨i.operation, Operation.ofWord?_eq_some_iff.mpr admitted, hi.symm⟩

/-- The words that encode nothing are those that the table does not list. -/
theorem decode?_eq_none_iff {w : Nat} (h : w < 65536) :
    decode? w = none ↔ ¬ Operation.Listed w := by
  rw [decode?_eq h, Option.map_eq_none_iff, Operation.ofWord?_eq_none_iff, Operation.listed_iff h]
  exact not_exists.symm

/-! ## Selection by name -/

/-- What is decoded is found under its mnemonic. -/
theorem select_mnemonic (op : Operation) (word : Int) : select op.mnemonic word = .ok op := by
  cases op with
  | alu op => cases op <;> rfl
  | _ => rfl

theorem eq_mnemonic_of_single {name : String} {op : Operation} (found : single? name = some op) :
    name = op.mnemonic := by
  unfold single? at found
  split at found <;> cases found <;> rfl

theorem eq_mnemonic_of_arithmetic {name : String} {op : Alu} (found : arithmetic? name = some op) :
    name = (Operation.alu op).mnemonic := by
  unfold arithmetic? at found
  split at found <;> cases found <;> rfl

theorem eq_mnemonic_of_transfer {name : String} {op : Operation} (found : transfer? name = some op) :
    name = op.mnemonic := by
  unfold transfer? at found
  split at found <;> cases found <;> rfl

/-- A name selects an operation only if it is its mnemonic. -/
theorem eq_mnemonic_of_select {name : String} {word : Int} {op : Operation}
    (selected : select name word = .ok op) : name = op.mnemonic := by
  unfold select at selected
  split at selected
  · rename_i found
    obtain rfl := Except.ok.inj selected
    exact eq_mnemonic_of_single found
  · split at selected
    · split at selected
      · rename_i found
        obtain rfl := Except.ok.inj selected
        exact eq_mnemonic_of_arithmetic found
      · cases selected
    · split at selected
      · rename_i found
        obtain rfl := Except.ok.inj selected
        exact eq_mnemonic_of_transfer found
      · cases selected

/-- The names that lead to the register-register operations are all known there. -/
theorem select_ne_arithmetic (name : String) (word : Int) (name' : String) :
    select name word ≠ .error (.arithmetic name') := by
  have known : ∀ name ∈ arithmeticNames, arithmetic? name ≠ none := by decide
  unfold select
  split
  · exact fun h => nomatch h
  · split
    · rename_i listed
      have found := known name listed
      split
      · exact fun h => nomatch h
      · contradiction
    · split <;> exact fun h => nomatch h

/-- The names under which something is executed are the mnemonics that words are decoded to. -/
theorem assemble_eq_ok_iff {name : String} {word x y n kk nnn : Int} {i : Instruction} :
    assemble name word x y n kk nnn = .ok i ↔
      name = i.operation.mnemonic ∧ i = ⟨i.operation, word, x, y, n, kk, nnn⟩ := by
  constructor
  · intro assembled
    unfold assemble at assembled
    split at assembled
    · rename_i op selected
      obtain rfl := Except.ok.inj assembled
      exact ⟨eq_mnemonic_of_select selected, rfl⟩
    · cases assembled
  · rintro ⟨rfl, operands⟩
    rw [assemble, select_mnemonic, operands]

end Instruction
end Chip8
