import Chip8.Proofs.Transfers

/-!
# Showing a number in decimal

`Fx33` writes the decimal digits of a register to memory, `F265` reads them into `V0`, `V1` and `V2`, and
`Fd29` then points the index to the glyph of one of them. The font, the three digits in memory, the block
that is read and the addresses of the glyphs fit together (`Machine.decimal_display`).
-/

namespace Chip8

/-- The rows of the glyph of a digit. -/
def Font.glyph (digit : Nat) : List UInt8 := (bytes.drop (digit * glyphSize)).take glyphSize

example : Font.glyph 0xA = [0xF0, 0x90, 0xF0, 0x90, 0x90] := by decide

namespace Machine

open Instruction (wordFx)

variable {m : Machine} {x : Fin 16}

/-! ## Glyphs -/

/-- The font lies in its place. -/
def FontIntact (m : Machine) : Prop :=
  ∀ i < Font.bytes.length, m.memory.byteAt i = Font.bytes.getD i 0

/-- The bytes at the index are the glyph of a digit. -/
def PointsToGlyph (m : Machine) (digit : Nat) : Prop :=
  m.memory.readBlock m.index Font.glyphSize = .ok (Font.glyph digit)

theorem length_font : Font.bytes.length = 80 := rfl

/-- The last row of the font has a set bit, so a memory that holds the font is not smaller than it. -/
theorem FontIntact.length_le_size (font : m.FontIntact) : Font.bytes.length ≤ m.memory.size := by
  by_contra small
  have last := font 79 (by decide)
  rw [length_font] at small
  rw [Memory.byteAt_of_size_le _ (by omega)] at last
  exact absurd last (by decide)

theorem FontIntact.pointsToGlyph (font : m.FontIntact) {digit : Nat} (small : digit < 16)
    (index : m.index = Font.glyphAddress digit) : m.PointsToGlyph digit := by
  have size := font.length_le_size
  rw [length_font] at size
  have address : m.index = (digit * 5 : Nat) := by
    rw [index]
    unfold Font.glyphAddress Font.address Font.glyphSize
    omega
  have inside : m.memory.InBounds m.index (Font.glyphSize : Nat) := by
    rw [address]
    unfold Memory.InBounds Font.glyphSize
    omega
  rw [PointsToGlyph, Memory.readBlock_of_inBounds inside,
    Memory.slice_eq inside.1 (Int.natCast_nonneg _) inside.2, address, Int.toNat_natCast,
    Int.toNat_natCast]
  refine congrArg Except.ok (List.ext_getElem ?_ ?_)
  · simp [Font.glyph, Font.glyphSize, length_font]
    omega
  · intro k hk hk'
    have row : k < 5 := by simpa [Font.glyphSize] using hk
    have within : digit * 5 + k < Font.bytes.length := by
      rw [length_font]
      omega
    rw [List.getElem_map, List.getElem_range, font _ within, List.getD_eq_getElem _ _ within]
    simp [Font.glyph, Font.glyphSize]

theorem executeWord_glyph (m : Machine) (x : Fin 16) :
    m.executeWord (wordFx 0x29 x : Nat) =
      ({ m with
          index := Font.glyphAddress (m.registers.value x.val)
          tally := m.tally.record .loadGlyph
          cycles := m.cycles + 1 }, none) := by
  have operand : (Instruction.ofWord .loadGlyph (wordFx 0x29 x)).x = x.val :=
    Instruction.ofWord_wordFx_x (by decide) ..
  rw [executeWord_wordFx (by decide) x .loadGlyph rfl rfl, execute, effect_eq]
  simp only [operand]
  rfl

/-- Wherever the font is intact, `Fx29` points the index to the glyph of the low digit of `Vx`. -/
theorem FontIntact.glyph_shown (font : m.FontIntact) (x : Fin 16) :
    (m.executeWord (wordFx 0x29 x : Nat)).2 = none ∧
      (m.executeWord (wordFx 0x29 x : Nat)).1.PointsToGlyph ((m.registers.read x.val).toNat % 16) := by
  have executed := m.executeWord_glyph x
  have after : (m.executeWord (wordFx 0x29 x : Nat)).1.FontIntact := by
    rw [executed]
    exact font
  refine ⟨by rw [executed], after.pointsToGlyph (Nat.mod_lt _ (by decide)) ?_⟩
  have digit : (((m.registers.read x.val).toNat % 16 : Nat) : Int) % 16 =
      m.registers.value x.val % 16 := by
    unfold Registers.value
    omega
  rw [executed, Font.glyphAddress, Font.glyphAddress, digit]

/-! ## Digits -/

theorem executeWord_decimal (room : m.Room 3) (x : Fin 16) :
    m.executeWord (wordFx 0x33 x : Nat) =
      ({ m with
          memory := m.memory.put m.index (decimalDigits (m.registers.read x.val))
          tally := m.tally.record .storeDecimal
          cycles := m.cycles + 1 }, none) := by
  have operand : (Instruction.ofWord .storeDecimal (wordFx 0x33 x)).x = x.val :=
    Instruction.ofWord_wordFx_x (by decide) ..
  have allowed : m.fault? (.ofWord .storeDecimal (wordFx 0x33 x)) = none :=
    Memory.fault?_eq_none_iff.mpr room.inBounds
  rw [executeWord_wordFx (by decide) x .storeDecimal rfl allowed, execute, effect_eq]
  simp only [operand]
  rfl

/-- The digits of a byte are digits, and make up its value. -/
theorem decimalDigits_sum (v : UInt8) :
    ∃ a b c : UInt8, decimalDigits v = [a, b, c] ∧ (a.toNat ≤ 2 ∧ b.toNat ≤ 9 ∧ c.toNat ≤ 9) ∧
      100 * a.toNat + 10 * b.toNat + c.toNat = v.toNat := by
  have bound := v.toNat_lt
  refine ⟨_, _, _, rfl, ?_⟩
  simp only [UInt8.toNat_div, UInt8.toNat_mod, UInt8.toNat_ofNat, Nat.reducePow, Nat.reduceMod]
  omega

/-- `V0`, `V1` and `V2` hold the decimal digits of a number. -/
structure HoldsDigits (regs : Registers) (number : Int) : Prop where
  digits_le : ∀ r : Fin 16, r ≤ 2 → regs.value r.val ≤ 9
  sum_eq : 100 * regs.value 0 + 10 * regs.value 1 + regs.value 2 = number

/-- The digits of a byte, read into the first registers. -/
theorem holdsDigits_loaded (regs : Registers) (v : UInt8) :
    HoldsDigits (regs.writeFrom 0 (decimalDigits v)) v.toNat := by
  obtain ⟨a, b, c, digits, ⟨ha, hb, hc⟩, sum⟩ := decimalDigits_sum v
  rw [digits]
  have loaded := regs.take_writeFrom [a, b, c] (by simp)
  generalize regs.writeFrom 0 [a, b, c] = after at loaded
  have first : after.take 3 = [after.read 0, after.read 1, after.read 2] := rfl
  obtain ⟨rfl, rfl, rfl⟩ : after.read 0 = a ∧ after.read 1 = b ∧ after.read 2 = c := by
    simpa using first.symm.trans loaded
  constructor
  case digits_le =>
    intro r hr
    have cases : ∀ r : Fin 16, r ≤ 2 → r = 0 ∨ r = 1 ∨ r = 2 := by decide
    unfold Registers.value
    rcases cases r hr with rfl | rfl | rfl
    · exact Int.ofNat_le.mpr (Nat.le_trans ha (by decide))
    · exact Int.ofNat_le.mpr hb
    · exact Int.ofNat_le.mpr hc
  case sum_eq =>
    unfold Registers.value
    omega

/-- The three bytes that `Fx33` writes are those that `F265` reads: the index is the same. -/
theorem Room.decimal_loaded (room : m.Room 3) (x : Fin 16) :
    let digits := decimalDigits (m.registers.read x.val)
    let stored := m.executeWord (wordFx 0x33 x : Nat)
    let loaded := stored.1.executeWord (0xF265 : Nat)
    stored.2 = none ∧ loaded.2 = none ∧ loaded.1.memory = m.memory.put m.index digits ∧
      loaded.1.registers = m.registers.writeFrom 0 digits := by
  intro digits stored loaded
  have executed : stored = _ := executeWord_decimal room x
  have memory : stored.1.memory = m.memory.put m.index digits := by rw [executed]
  have index : stored.1.index = m.index := by rw [executed]
  have registers : stored.1.registers = m.registers := by rw [executed]
  have room' : stored.1.Room ((2 : Fin 16).val + 1) := by
    refine ⟨?_, index ▸ room.low, index ▸ room.high⟩
    rw [memory, Memory.size_put room.inBounds, room.size_eq]
  have read : loaded = _ := executeWord_load room'
  have block : stored.1.memory.slice stored.1.index ((2 : Fin 16).val + 1) = digits := by
    rw [memory, index]
    exact Memory.slice_put digits room.low room.inBounds.2
  rw [block, registers] at read
  refine ⟨by rw [executed], by rw [read], ?_, by rw [read]⟩
  rw [read]
  exact memory

/-- **The decimal display of a byte.** Take a well-formed machine with the font in place, in any dialect,
and three bytes of memory from the index on that are not part of the font. `Fx33` and then `F265`
succeed, leave in `V0`, `V1` and `V2` the decimal digits of what `Vx` held, and change no other byte of
memory; and `Fd29` for one of these three registers then points the index to the glyph of its digit. On
any machine with the font in place, `Fx29` points the index to the glyph of the low digit of `Vx`. -/
theorem decimal_display :
    (∀ (m : Machine) (x : Fin 16), m.WellFormed → m.FontIntact →
      Font.bytes.length ≤ m.index → m.index + 3 ≤ memorySize →
      let stored := m.executeWord (wordFx 0x33 x : Nat)
      let loaded := stored.1.executeWord (0xF265 : Nat)
      stored.2 = none ∧ loaded.2 = none ∧
      HoldsDigits loaded.1.registers (m.registers.value x.val) ∧
      (∀ a : Nat, a < m.index ∨ m.index + 3 ≤ a →
        loaded.1.memory.byteAt a = m.memory.byteAt a) ∧
      ∀ d : Fin 16, d ≤ 2 →
        let shown := loaded.1.executeWord (wordFx 0x29 d : Nat)
        shown.2 = none ∧ shown.1.PointsToGlyph (loaded.1.registers.read d.val).toNat) ∧
    ∀ (m : Machine) (x : Fin 16), m.FontIntact →
      let shown := m.executeWord (wordFx 0x29 x : Nat)
      shown.2 = none ∧ shown.1.PointsToGlyph ((m.registers.read x.val).toNat % 16) := by
  refine ⟨?_, fun m x font => font.glyph_shown x⟩
  intro m x h font above fits stored loaded
  have room : m.Room 3 := ⟨h.memory_size, h.index_nonneg, fits⟩
  obtain ⟨succeeds, succeeds', memory, registers⟩ := room.decimal_loaded x
  have kept : ∀ a : Nat, a < m.index ∨ m.index + 3 ≤ a →
      loaded.1.memory.byteAt a = m.memory.byteAt a := by
    intro a outside
    by_contra changed
    rw [memory] at changed
    have range := Memory.range_of_put room.inBounds changed
    have length : (decimalDigits (m.registers.read x.val)).length = 3 := rfl
    rw [length] at range
    omega
  have holds : HoldsDigits loaded.1.registers (m.registers.value x.val) := by
    rw [registers]
    exact holdsDigits_loaded ..
  have font' : loaded.1.FontIntact := by
    intro i hi
    rw [kept i (by omega)]
    exact font i hi
  refine ⟨succeeds, succeeds', holds, kept, ?_⟩
  intro d hd shown
  have digit : (loaded.1.registers.read d.val).toNat % 16 = (loaded.1.registers.read d.val).toNat := by
    have small := holds.digits_le d hd
    unfold Registers.value at small
    omega
  rw [← digit]
  exact font'.glyph_shown d

/-- A register among those that the digits replace is written to the end of memory. -/
theorem decimal_display_end :
    let m := { powerOn ⟨true, true, true⟩ .zero with
      index := 4093, registers := Registers.zero.write 2 0xFE }
    let loaded := (m.executeWord (wordFx 0x33 2 : Nat)).1.executeWord (0xF265 : Nat)
    HoldsDigits loaded.1.registers 254 ∧
      (loaded.1.executeWord (wordFx 0x29 1 : Nat)).1.PointsToGlyph 5 := by
  intro m loaded
  have wellFormed : m.WellFormed :=
    { (powerOn_wellFormed ⟨true, true, true⟩ .zero).withRegisters m.registers with
      index_nonneg := by decide, index_le := by decide }
  have font : m.FontIntact := by
    intro i hi
    rw [length_font] at hi
    exact byteAt_initialMemory _
  obtain ⟨decimal, -⟩ := decimal_display
  obtain ⟨-, -, holds, -, glyphs⟩ := decimal m 2 wellFormed font (by decide) (by decide)
  obtain ⟨-, points⟩ := glyphs 1 (by decide)
  have number : m.registers.value (2 : Fin 16).val = 254 := by decide
  rw [number] at holds
  have left : (m.executeWord (wordFx 0x33 2 : Nat)).1.executeWord (0xF265 : Nat) = loaded := rfl
  rw [left] at holds points
  -- the digits follow from what they add up to
  clear_value loaded
  have tens : loaded.1.registers.value 1 ≤ 9 := holds.digits_le 1 (by decide)
  have ones : loaded.1.registers.value 2 ≤ 9 := holds.digits_le 2 (by decide)
  have sum := holds.sum_eq
  have five : (loaded.1.registers.read 1).toNat = 5 := by
    unfold Registers.value at tens ones sum
    omega
  have digit : (loaded.1.registers.read (1 : Fin 16).val).toNat = 5 := five
  rw [digit] at points
  exact ⟨holds, points⟩

end Machine
end Chip8
