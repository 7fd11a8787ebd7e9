import Chip8.Proofs.Executions
import Chip8.Proofs.Sprites

/-!
# Drawing from memory

`Dxyn` draws the bytes at `I` at the position that two registers hold, and tells in the flag register
whether a lit pixel was turned off. On the screen of the machine a sprite of at most fifteen rows meets
no pixel twice, so a pixel is flipped if the sprite meets it at all, and the same drawing once more takes
it back (`Machine.draw_and_redraw`).
-/

namespace Chip8.Machine

/-- A set bit of the sprite that a word draws falls on the pixel at a column and row. The position that
the registers hold is taken modulo the size of the screen, and so is every pixel of the sprite. -/
def Strikes (m : Machine) (w : Nat) (u v : Int) : Prop :=
  ∃ c r : Nat, (c < 8 ∧ r < w % 16) ∧
    (m.memory.byteAt (m.index.toNat + r)).toNat.testBit (7 - c) = true ∧
    (m.registers.value (w / 256 % 16 : Nat) % 64 + c) % 64 = u ∧
    (m.registers.value (w / 16 % 16 : Nat) % 32 + r) % 32 = v

/-- The flag register is one if a statement holds, and zero if it does not. -/
def FlagTells (m : Machine) (p : Prop) : Prop :=
  (p → m.registers.value Registers.flag = 1) ∧ (¬ p → m.registers.value Registers.flag = 0)

/-- What a drawing comes to: it flips the pixels that its word strikes, and tells in the flag register
whether one of them was lit. Nothing else changes but the counts of instructions. -/
structure Draws (m : Machine) (w : Nat) (after : Machine) : Prop where
  frame : after =
    { m with
      display := { m.display with pixels := after.display.pixels }
      registers := after.registers
      tally := m.tally.record .draw
      cycles := m.cycles + 1 }
  size : after.display.pixels.size = m.display.pixels.size
  pixels : ∀ u v, m.display.Within u v →
    (after.display.get u v ≠ m.display.get u v ↔ m.Strikes w u v)
  registers : ∀ r : Fin 16, r.val ≠ 0xF → after.registers.value r = m.registers.value r
  flag : after.FlagTells (∃ u v, m.Strikes w u v ∧ m.display.get u v = true)

variable {m : Machine} {w : Nat}

theorem flagTells_of_write {p : Prop} {flag : Bool} (told : flag = true ↔ p)
    (written : m.registers.value Registers.flag = if flag then 1 else 0) : m.FlagTells p := by
  rw [FlagTells, written]
  constructor
  · intro holds
    exact if_pos (told.mpr holds)
  · intro fails
    exact if_neg fun flag => fails (told.mp flag)

theorem drawn_ofWord (m : Machine) (w : Nat) : m.drawn (.ofWord .draw w) =
    m.display.draw (m.registers.value (w / 256 % 16 : Nat)) (m.registers.value (w / 16 % 16 : Nat))
      (m.memory.slice m.index (w % 16 : Nat)) := rfl

namespace WellFormed

theorem solid (h : m.WellFormed) : m.display.Solid where
  columns := by
    rw [h.display_width]
    decide
  rows := by
    rw [h.display_height]
    decide
  size_eq := by
    rw [h.pixels_size, h.display_width, h.display_height]
    rfl

theorem within_iff (h : m.WellFormed) {u v : Int} :
    m.display.Within u v ↔ (0 ≤ u ∧ u < 64) ∧ 0 ≤ v ∧ v < 32 := by
  rw [Display.Within, h.display_width, h.display_height]
  rfl

theorem within_of_strikes (h : m.WellFormed) {u v : Int} (strikes : m.Strikes w u v) :
    m.display.Within u v := by
  obtain ⟨c, r, -, -, rfl, rfl⟩ := strikes
  rw [h.within_iff]
  omega

/-! ## The sprite of a word -/

section

variable (h : m.WellFormed) (inside : m.index + (w % 16 : Nat) ≤ memorySize)
include h inside

theorem allows_draw : m.fault? (.ofWord .draw w) = none := by
  apply Memory.fault?_eq_none_iff.mpr
  rw [Memory.InBounds, h.memory_size]
  exact ⟨h.index_nonneg, inside⟩

/-- The rows of the sprite are the bytes at `I`. -/
theorem sprite_eq : m.memory.slice m.index (w % 16 : Nat) =
    (List.range (w % 16)).map fun r => m.memory.byteAt (m.index.toNat + r) := by
  rw [Memory.slice_eq h.index_nonneg (Int.natCast_nonneg _) (by rw [h.memory_size]; exact inside)]
  rfl

/-- A sprite that is no larger than the screen meets no pixel twice, and those it meets are the ones
that the word strikes. -/
theorem hits_sprite (u v : Int) :
    let hits := m.display.hits (m.registers.value (w / 256 % 16 : Nat))
      (m.registers.value (w / 16 % 16 : Nat)) (m.memory.slice m.index (w % 16 : Nat)) u v
    hits ≤ 1 ∧ (1 ≤ hits ↔ m.Strikes w u v) := by
  intro hits
  have rows : w % 16 < 16 := Nat.mod_lt w (by decide)
  unfold hits
  rw [Display.hits, h.display_width, h.display_height, h.sprite_eq inside]
  simp only [screenWidth, screenHeight, List.length_map, List.length_range]
  constructor
  · rw [Finset.card_le_one]
    rintro ⟨c, r⟩ here ⟨c', r'⟩ there
    simp only [Finset.mem_filter, Finset.mem_product, Finset.mem_range] at here there
    rw [Prod.mk.injEq]
    omega
  · rw [Finset.one_le_card]
    constructor
    · rintro ⟨⟨c, r⟩, mem⟩
      simp only [Finset.mem_filter, Finset.mem_product, Finset.mem_range] at mem
      obtain ⟨⟨small, row⟩, set, column, line⟩ := mem
      refine ⟨c, r, ⟨small, row⟩, ?_, by omega, by omega⟩
      simpa [row] using set
    · rintro ⟨c, r, ⟨small, row⟩, set, column, line⟩
      refine ⟨(c, r), ?_⟩
      simp only [Finset.mem_filter, Finset.mem_product, Finset.mem_range]
      refine ⟨⟨small, row⟩, ?_, by omega, by omega⟩
      simpa [row] using set

theorem get_drawn {u v : Int} (within : m.display.Within u v) :
    (m.drawn (.ofWord .draw w)).1.get u v ≠ m.display.get u v ↔ m.Strikes w u v := by
  obtain ⟨few, strikes⟩ := h.hits_sprite inside u v
  rw [drawn_ofWord, h.solid.get_draw _ _ _ within, ← strikes]
  rcases Nat.le_one_iff_eq_zero_or_eq_one.mp few with missed | hit
  · rw [missed]
    simp
  · rw [hit]
    simp

theorem collides_drawn : (m.drawn (.ofWord .draw w)).2 = true ↔
    ∃ u v, m.Strikes w u v ∧ m.display.get u v = true := by
  rw [drawn_ofWord, h.solid.draw_collides]
  constructor
  · rintro ⟨u, v, -, ⟨lit, hit⟩ | twice⟩
    · exact ⟨u, v, (h.hits_sprite inside u v).2.mp hit, lit⟩
    · have few := (h.hits_sprite inside u v).1
      exact absurd (Nat.le_trans twice few) (by decide)
  · rintro ⟨u, v, strikes, lit⟩
    exact ⟨u, v, h.within_of_strikes strikes, .inl ⟨lit, (h.hits_sprite inside u v).2.mpr strikes⟩⟩

/-! ## One drawing and another -/

variable (hw : w < 65536) (draws : w / 4096 = 0xD)
include hw draws

theorem executeWord_draw :
    m.executeWord w =
      ({ m with
          display := (m.drawn (.ofWord .draw w)).1
          registers :=
            m.registers.write Registers.flag (if (m.drawn (.ofWord .draw w)).2 then 1 else 0)
          tally := m.tally.record .draw
          cycles := m.cycles + 1 }, none) := by
  have admitted : Operation.draw.encoding.admits w = true :=
    (Encoding.admits_firstDigit hw).mpr draws
  rw [executeWord_of_admits hw admitted (h.allows_draw inside), Machine.execute,
    effect_eq]
  rfl

theorem executeWord_draws : (m.executeWord w).2 = none ∧ m.Draws w (m.executeWord w).1 := by
  rw [h.executeWord_draw inside hw draws]
  refine ⟨rfl, rfl, Display.size_flipAll .., fun u v => h.get_drawn inside, ?_, ?_⟩
  · intro r other
    have apart : Registers.slot Registers.flag ≠ Registers.slot (r.val : Int) := by
      rw [Registers.slot_fin]
      rintro rfl
      exact other rfl
    exact (Registers.value_write ..).trans (if_neg apart)
  · refine flagTells_of_write (h.collides_drawn inside) ?_
    rw [Registers.value_write, if_pos rfl]
    split <;> rfl

end

end WellFormed

namespace Draws

variable {after : Machine}

theorem wellFormed (drawn : m.Draws w after) (h : m.WellFormed) : after.WellFormed := by
  rw [drawn.frame]
  exact { (h.withPixels drawn.size).withRegisters after.registers with }

theorem index_eq (drawn : m.Draws w after) : after.index = m.index := by
  rw [drawn.frame]

/-- A word that reads its position from other registers than the flag draws at the same place again. -/
theorem strikes_iff (drawn : m.Draws w after) (hx : w / 256 % 16 ≠ 0xF) (hy : w / 16 % 16 ≠ 0xF)
    (u v : Int) : after.Strikes w u v ↔ m.Strikes w u v := by
  have x := drawn.registers ⟨w / 256 % 16, Nat.mod_lt _ (by decide)⟩ hx
  have y := drawn.registers ⟨w / 16 % 16, Nat.mod_lt _ (by decide)⟩ hy
  have memory : after.memory = m.memory := by rw [drawn.frame]
  simp only at x y
  rw [Strikes, Strikes, memory, drawn.index_eq, x, y]

/-- The pixels that the first drawing flipped are flipped back, and the second finds one of them lit
exactly if it was unlit before the first. -/
theorem redrawn (h : m.WellFormed) (drawn : m.Draws w after) (hx : w / 256 % 16 ≠ 0xF)
    (hy : w / 16 % 16 ≠ 0xF) {again : Machine} (redrawn : after.Draws w again) :
    again.display = m.display ∧
      again.FlagTells (∃ u v, m.Strikes w u v ∧ m.display.get u v = false) := by
  have same := drawn.strikes_iff hx hy
  have reached := drawn.wellFormed h
  have on_screen : ∀ {u v}, m.display.Within u v → after.display.Within u v := by
    intro u v within
    rw [reached.within_iff, ← h.within_iff]
    exact within
  constructor
  · refine h.solid.eq_of_get (redrawn.wellFormed reached).solid ?_ ?_ ?_
    · rw [(redrawn.wellFormed reached).display_width, h.display_width]
    · rw [(redrawn.wellFormed reached).display_height, h.display_height]
    · intro u v within
      have first := drawn.pixels u v within
      have second := redrawn.pixels u v (on_screen within)
      rw [same, ← first] at second
      -- flipped both times or neither time
      have back : ∀ a b c : Bool, (c ≠ b ↔ b ≠ a) → c = a := by decide
      exact back _ _ _ second
  · have found : (∃ u v, after.Strikes w u v ∧ after.display.get u v = true) =
        ∃ u v, m.Strikes w u v ∧ m.display.get u v = false := by
      simp only [same]
      refine propext (exists_congr fun u => exists_congr fun v => and_congr_right fun strikes => ?_)
      have flipped := (drawn.pixels u v (h.within_of_strikes strikes)).mpr strikes
      have other : ∀ a b : Bool, b ≠ a → (b = true ↔ a = false) := by decide
      exact other _ _ flipped
    rw [← found]
    exact redrawn.flag

end Draws

/-- **Drawing, and drawing again.** A word `Dxyn` whose sprite lies in memory never faults on a
well-formed machine. It flips exactly the pixels under the set bits of the `n` bytes at `I`, placed at
the values that `Vx` and `Vy` had before it, sets the flag register to one if one of these pixels was lit
and to zero otherwise, and changes no other register, no memory and not the index. If neither `x` nor
`y` is the flag register, the same word once more leaves the display as it was before both, and sets the
flag register to one exactly if one of these pixels was unlit then. -/
theorem draw_and_redraw (h : m.WellFormed) (hw : w < 65536) (draws : w / 4096 = 0xD)
    (inside : m.index + (w % 16 : Nat) ≤ memorySize) :
    let after := (m.executeWord w).1
    (m.executeWord w).2 = none ∧ m.Draws w after ∧
    (w / 256 % 16 ≠ 0xF → w / 16 % 16 ≠ 0xF →
      let again := (after.executeWord w).1
      (after.executeWord w).2 = none ∧ after.Draws w again ∧ again.display = m.display ∧
        again.FlagTells (∃ u v, m.Strikes w u v ∧ m.display.get u v = false)) := by
  intro after
  obtain ⟨succeeds, drawn⟩ := h.executeWord_draws inside hw draws
  refine ⟨succeeds, drawn, ?_⟩
  intro hx hy again
  have reached : after.WellFormed := drawn.wellFormed h
  rw [← drawn.index_eq] at inside
  obtain ⟨succeeds', drawn'⟩ := reached.executeWord_draws inside hw draws
  obtain ⟨display, flag⟩ := drawn.redrawn h hx hy drawn'
  exact ⟨succeeds', drawn', display, flag⟩

/-- The glyph of zero, drawn over the lower right corner, reaches the second column of the first row, and
the second drawing finds it lit there. -/
theorem draw_and_redraw_corner :
    let m := { powerOn .modern .zero with registers := (Registers.zero.write 0 0x3E).write 1 0x1F }
    let after := (m.executeWord (0xD015 : Nat)).1
    let again := (after.executeWord (0xD015 : Nat)).1
    m.display.get 1 0 = false ∧ after.display.get 1 0 = true ∧ again.display = m.display ∧
      again.registers.value Registers.flag = 1 := by
  intro m
  have wellFormed : m.WellFormed := (powerOn_wellFormed .modern .zero).withRegisters _
  have inside : m.index + (0xD015 % 16 : Nat) ≤ memorySize := by decide
  have unlit : m.display.get 1 0 = false := Display.get_blank screenWidth screenHeight 1 0
  have strikes : m.Strikes 0xD015 1 0 := by
    refine ⟨3, 1, by decide, ?_, by decide, by decide⟩
    have row : m.memory.byteAt 1 = 0x90 := by decide +kernel
    show (m.memory.byteAt 1).toNat.testBit 4 = true
    rw [row]
    decide
  -- nothing else about the machine is to be computed
  clear_value m
  intro after again
  obtain ⟨-, drawn, redraws⟩ := draw_and_redraw wellFormed (by decide) (by decide) inside
  obtain ⟨-, -, display, flag⟩ := redraws (by decide) (by decide)
  have flipped := (drawn.pixels 1 0 (wellFormed.within_of_strikes strikes)).mpr strikes
  rw [unlit] at flipped
  exact ⟨unlit, Bool.eq_true_of_not_eq_false flipped, display, flag.1 ⟨1, 0, strikes, unlit⟩⟩

end Chip8.Machine
