import Chip8.Proofs.Faults
import Mathlib.Algebra.Ring.Parity
import Mathlib.Data.Finset.Prod
import Mathlib.Data.List.GetD
import Mathlib.Data.List.Sigma

/-!
# Which pixels a sprite flips

A sprite is drawn pixel after pixel, on a grid that it may cover more than once. What it comes to does
not depend on the order: a pixel is flipped if an odd number of set bits fall on it, and there is a
collision if a set bit falls on a lit pixel or two of them on the same one (`Display.draw_pixels`).

* Flips one after another: the parity of a cell, and when a cell was lit at its turn;
* set bits as pairs of a column and a row, each drawn once;
* cells and positions: wrapped around, each position has a cell of its own.
-/

namespace Chip8

/-! ## Set bits -/

namespace Sprite

variable {sprite : Sprite} {c r : Nat}

theorem mem_columns {row : UInt8} : c ∈ columns row ↔ c < 8 ∧ row.toNat.testBit (7 - c) = true := by
  simp [columns]

/-- The points of a sprite are its set bits. -/
theorem mem_points :
    (c, r) ∈ sprite.points ↔
      (c < 8 ∧ r < sprite.length) ∧ (sprite.getD r 0).toNat.testBit (7 - c) = true := by
  have row_at : ∀ row : UInt8, (row, r) ∈ sprite.zipIdx ↔ r < sprite.length ∧ sprite.getD r 0 = row := by
    intro row
    rw [List.mem_zipIdx_iff_getElem?, List.getElem?_eq_some_iff]
    constructor
    · rintro ⟨inside, same⟩
      exact ⟨inside, by rwa [List.getD_eq_getElem _ _ inside]⟩
    · rintro ⟨inside, same⟩
      exact ⟨inside, by rwa [List.getD_eq_getElem _ _ inside] at same⟩
  simp only [points, List.mem_flatMap, List.mem_map, Prod.exists, Prod.mk.injEq, mem_columns]
  constructor
  · rintro ⟨row, r', mem, c', ⟨small, set⟩, rfl, rfl⟩
    obtain ⟨inside, rfl⟩ := (row_at row).mp mem
    exact ⟨⟨small, inside⟩, set⟩
  · rintro ⟨⟨small, inside⟩, set⟩
    exact ⟨_, r, (row_at _).mpr ⟨inside, rfl⟩, c, ⟨small, set⟩, rfl, rfl⟩

/-- No set bit is drawn twice. -/
theorem nodup_points (sprite : Sprite) : sprite.points.Nodup := by
  have rows : sprite.zipIdx.Pairwise fun a b => a.2 ≠ b.2 :=
    List.pairwise_map.mp (List.nodup_zipIdx_map_snd sprite)
  rw [points, List.nodup_flatMap]
  constructor
  · rintro ⟨row, r⟩ -
    refine (List.Nodup.filter _ List.nodup_range).map ?_
    intro c c' same
    exact congrArg Prod.fst same
  · refine rows.imp ?_
    rintro ⟨row, r⟩ ⟨row', r'⟩ other p here there
    obtain ⟨c, -, rfl⟩ := List.mem_map.mp here
    obtain ⟨c', -, same⟩ := List.mem_map.mp there
    exact other (congrArg Prod.snd same).symm

end Sprite

namespace Display

/-! ## Flips one after another -/

theorem getD_flip (pixels : Array Bool) (i j : Nat) (lit : Bool) (hi : i < pixels.size) :
    (pixels.setIfInBounds i lit).getD j false = if i = j then lit else pixels.getD j false := by
  by_cases same : i = j
  · subst same
    simp [Array.getD_eq_getD_getElem?, hi]
  · simp [Array.getD_eq_getD_getElem?, same]

theorem lt_size_flip {pixels : Array Bool} {i : Nat} {rest : List Nat} {lit : Bool}
    (inside : ∀ k ∈ i :: rest, k < pixels.size) :
    ∀ k ∈ rest, k < (pixels.setIfInBounds i lit).size := by
  intro k hk
  rw [Array.size_setIfInBounds]
  exact inside k (List.mem_cons_of_mem i hk)

/-- A cell that is flipped an odd number of times ends as what it was not. -/
theorem getD_flipAll (pixels : Array Bool) (collided : Bool) {cells : List Nat}
    (inside : ∀ i ∈ cells, i < pixels.size) (j : Nat) :
    (flipAll pixels collided cells).1.getD j false =
      if Odd (cells.count j) then !pixels.getD j false else pixels.getD j false := by
  induction cells generalizing pixels collided with
  | nil => simp [flipAll]
  | cons i rest ih =>
    have first := inside i List.mem_cons_self
    rw [flipAll, ih _ _ (lt_size_flip inside), getD_flip _ _ _ _ first]
    by_cases same : i = j
    · subst same
      rw [List.count_cons_self, if_pos rfl, Bool.not_not]
      by_cases odd : Odd (rest.count i) <;> simp [Nat.odd_add_one, odd]
    · rw [List.count_cons_of_ne same, if_neg same]

/-- Flips collide at a cell that was lit, or that is flipped again: it is lit the first or the second
time. -/
theorem flipAll_collides (pixels : Array Bool) (collided : Bool) {cells : List Nat}
    (inside : ∀ i ∈ cells, i < pixels.size) :
    (flipAll pixels collided cells).2 = true ↔
      collided = true ∨
        ∃ j, pixels.getD j false = true ∧ 1 ≤ cells.count j ∨ 2 ≤ cells.count j := by
  induction cells generalizing pixels collided with
  | nil => simp [flipAll]
  | cons i rest ih =>
    have first := inside i List.mem_cons_self
    rw [flipAll, ih _ _ (lt_size_flip inside), Bool.or_eq_true, or_assoc]
    refine or_congr_right ?_
    have here : (i :: rest).count i = rest.count i + 1 := List.count_cons_self
    constructor
    · rintro (lit | ⟨j, hits⟩)
      · exact ⟨i, .inl ⟨lit, by omega⟩⟩
      · rw [getD_flip _ _ _ _ first] at hits
        by_cases same : i = j
        · subst same
          exact ⟨i, .inr (by omega)⟩
        · rw [if_neg same] at hits
          exact ⟨j, by rwa [List.count_cons_of_ne same]⟩
    · rintro ⟨j, hits⟩
      by_cases same : i = j
      · subst same
        cases lit : pixels.getD i false with
        | true => exact .inl rfl
        | false =>
          -- it was unlit, so it is hit once more, and then it is lit
          refine .inr ⟨i, .inl ⟨by rw [getD_flip _ _ _ _ first, if_pos rfl]; rfl, ?_⟩⟩
          rcases hits with ⟨hot, -⟩ | twice
          · rw [lit] at hot
            exact absurd hot (by simp)
          · omega
      · rw [List.count_cons_of_ne same] at hits
        refine .inr ⟨j, ?_⟩
        rwa [getD_flip _ _ _ _ first, if_neg same]

/-! ## Positions and cells -/

/-- A grid with columns, rows and all its pixels. -/
structure Solid (d : Display) : Prop where
  columns : 0 < d.width
  rows : 0 < d.height
  size_eq : (d.pixels.size : Int) = d.width * d.height

/-- The column and the row are on the grid. -/
def Within (d : Display) (u v : Int) : Prop := (0 ≤ u ∧ u < d.width) ∧ 0 ≤ v ∧ v < d.height

instance (d : Display) (u v : Int) : Decidable (d.Within u v) :=
  inferInstanceAs (Decidable (_ ∧ _))

/-- How many set bits of a sprite fall on the pixel at a column and row, wrapped around the edges. -/
def hits (d : Display) (x y : Int) (sprite : Sprite) (u v : Int) : Nat :=
  ((Finset.range 8 ×ˢ Finset.range sprite.length).filter fun (c, r) =>
    (sprite.getD r 0).toNat.testBit (7 - c) = true ∧
      (x + c) % d.width = u ∧ (y + r) % d.height = v).card

variable {d : Display}

theorem blank_solid {width height : Int} (columns : 0 < width) (rows : 0 < height) :
    (blank width height).Solid := by
  refine ⟨columns, rows, ?_⟩
  have area := Int.mul_pos columns rows
  simp only [blank, Array.size_replicate]
  omega

theorem get_blank (width height u v : Int) : (blank width height).get u v = false := by
  rw [get, blank, Array.getD_eq_getD_getElem?, Array.getElem?_replicate]
  split <;> rfl

/-- Where a position lies depends on the sizes alone. -/
theorem cell_congr {d' : Display} (size : d'.pixels.size = d.pixels.size)
    (width : d'.width = d.width) (height : d'.height = d.height) (x y : Int) :
    d'.cell x y = d.cell x y := by
  rw [cell, cell, offset, offset, size, width, height]

namespace Solid

theorem draw (h : d.Solid) (x y : Int) (sprite : Sprite) : (d.draw x y sprite).1.Solid :=
  { h with size_eq := (congrArg _ (size_flipAll ..)).trans h.size_eq }

theorem clear (h : d.Solid) : d.clear.Solid :=
  { h with size_eq := (congrArg _ (Array.size_map ..)).trans h.size_eq }

theorem fill (h : d.Solid) : d.fill.Solid :=
  { h with size_eq := (congrArg _ (Array.size_map ..)).trans h.size_eq }

theorem drawError? (h : d.Solid) (sprite : Sprite) : d.drawError? sprite = none := by
  have columns := h.columns
  have rows := h.rows
  have area := Int.mul_pos columns rows
  have position : d.positionError? = none := by
    rw [positionError?, if_neg (by omega), if_neg (by omega)]
  unfold Display.drawError?
  rw [position, if_neg (by omega : ¬ d.height = 0)]
  split
  · rfl
  · split <;> rfl

theorem within (h : d.Solid) (x y : Int) : d.Within (x % d.width) (y % d.height) :=
  ⟨⟨Int.emod_nonneg x (Int.ne_of_gt h.columns), Int.emod_lt_of_pos x h.columns⟩,
    Int.emod_nonneg y (Int.ne_of_gt h.rows), Int.emod_lt_of_pos y h.rows⟩

/-- The pixels lie row after row. -/
theorem cell_eq (h : d.Solid) (x y : Int) :
    (d.cell x y : Int) = y % d.height * d.width + x % d.width := by
  obtain ⟨⟨left, -⟩, top, -⟩ := h.within x y
  have start := Int.mul_nonneg top (Int.le_of_lt h.columns)
  have offset : d.offset x y = y % d.height * d.width + x % d.width := by
    rw [Display.offset, Int.fmod_eq_emod_of_nonneg x (Int.le_of_lt h.columns),
      Int.fmod_eq_emod_of_nonneg y (Int.le_of_lt h.rows)]
  rw [cell, offset, if_neg (by omega)]
  omega

/-- Positions share a cell only if they are the same around the edges. -/
theorem cell_eq_iff (h : d.Solid) (x y x' y' : Int) :
    d.cell x y = d.cell x' y' ↔ x % d.width = x' % d.width ∧ y % d.height = y' % d.height := by
  rw [← Int.ofNat_inj, h.cell_eq, h.cell_eq]
  constructor
  · intro same
    have columns := congrArg (· % d.width) same
    simp only [Int.mul_add_emod_self_right, Int.emod_emod] at columns
    rw [columns] at same
    refine ⟨columns, Int.eq_of_mul_eq_mul_right (Int.ne_of_gt h.columns) ?_⟩
    omega
  · rintro ⟨columns, rows⟩
    rw [columns, rows]

/-- The cell of a position on the grid is drawn at as often as set bits fall on the position. -/
theorem count_touched (h : d.Solid) (x y : Int) (sprite : Sprite) {u v : Int}
    (within : d.Within u v) : (d.touched x y sprite).count (d.cell u v) = d.hits x y sprite u v := by
  obtain ⟨⟨left, right⟩, top, bottom⟩ := within
  have here : ∀ c r : Nat, d.cell (x + c) (y + r) = d.cell u v ↔
      (x + c) % d.width = u ∧ (y + r) % d.height = v := by
    intro c r
    rw [h.cell_eq_iff, Int.emod_eq_of_lt left right, Int.emod_eq_of_lt top bottom]
  rw [touched, List.count_eq_countP, List.countP_map, List.countP_eq_length_filter,
    ← List.toFinset_card_of_nodup (sprite.nodup_points.filter _), hits]
  refine congrArg Finset.card ?_
  ext ⟨c, r⟩
  simp [Sprite.mem_points, here, and_assoc]

theorem touched_lt (h : d.Solid) (x y : Int) (sprite : Sprite) :
    ∀ i ∈ d.touched x y sprite, i < d.pixels.size := by
  intro i mem
  obtain ⟨⟨c, r⟩, -, rfl⟩ := List.mem_map.mp mem
  exact cell_lt h.columns h.rows h.size_eq _ _

/-- Every cell is that of a position on the grid. -/
theorem exists_position (h : d.Solid) {i : Nat} (hi : i < d.pixels.size) :
    ∃ u v, d.Within u v ∧ d.cell u v = i := by
  have bound := Int.ofNat_lt.mpr hi
  rw [h.size_eq, Int.mul_comm] at bound
  have within : d.Within (i % d.width) (i / d.width) :=
    ⟨⟨Int.emod_nonneg _ (Int.ne_of_gt h.columns), Int.emod_lt_of_pos _ h.columns⟩,
      Int.ediv_nonneg (Int.natCast_nonneg i) (Int.le_of_lt h.columns),
      Int.ediv_lt_of_lt_mul h.columns bound⟩
  refine ⟨_, _, within, Int.ofNat_inj.mp ?_⟩
  rw [h.cell_eq, Int.emod_emod, Int.emod_eq_of_lt within.2.1 within.2.2, Int.mul_comm]
  exact Int.mul_ediv_add_emod _ _

/-- Grids of one size with the same pixels are the same. -/
theorem eq_of_get (h : d.Solid) {d' : Display} (h' : d'.Solid) (width : d'.width = d.width)
    (height : d'.height = d.height) (same : ∀ u v, d.Within u v → d'.get u v = d.get u v) :
    d' = d := by
  have sizes := h.size_eq
  rw [← width, ← height, ← h'.size_eq] at sizes
  have size : d'.pixels.size = d.pixels.size := (Int.ofNat_inj.mp sizes).symm
  have pixels : d'.pixels = d.pixels := by
    apply Array.ext size
    intro i hi' hi
    obtain ⟨u, v, within, rfl⟩ := h.exists_position hi
    have cell := cell_congr size width height u v
    have pixel := same u v within
    rw [get, get, cell, Array.getD_eq_getD_getElem?, Array.getD_eq_getD_getElem?] at pixel
    simpa [hi, hi'] using pixel
  obtain ⟨_, _, _⟩ := d
  obtain ⟨_, _, _⟩ := d'
  simp only at width height pixels
  rw [width, height, pixels]

theorem get_draw (h : d.Solid) (x y : Int) (sprite : Sprite) {u v : Int} (within : d.Within u v) :
    (d.draw x y sprite).1.get u v =
      if Odd (d.hits x y sprite u v) then !d.get u v else d.get u v := by
  have size : (d.draw x y sprite).1.pixels.size = d.pixels.size := size_flipAll ..
  have cell : (d.draw x y sprite).1.cell u v = d.cell u v := cell_congr size rfl rfl u v
  rw [← h.count_touched x y sprite within, get, cell]
  exact getD_flipAll d.pixels false (h.touched_lt x y sprite) (d.cell u v)

theorem draw_collides (h : d.Solid) (x y : Int) (sprite : Sprite) :
    (d.draw x y sprite).2 = true ↔
      ∃ u v, d.Within u v ∧
        (d.get u v = true ∧ 1 ≤ d.hits x y sprite u v ∨ 2 ≤ d.hits x y sprite u v) := by
  have flips := flipAll_collides d.pixels false (h.touched_lt x y sprite)
  rw [Display.draw, flips]
  simp only [Bool.false_eq_true, false_or]
  constructor
  · rintro ⟨j, hot⟩
    have touched : j ∈ d.touched x y sprite := List.count_pos_iff.mp (by omega)
    obtain ⟨u, v, within, rfl⟩ := h.exists_position (h.touched_lt x y sprite j touched)
    rw [h.count_touched x y sprite within] at hot
    exact ⟨u, v, within, hot⟩
  · rintro ⟨u, v, within, hot⟩
    rw [← h.count_touched x y sprite within] at hot
    exact ⟨d.cell u v, hot⟩

end Solid

/-- **The pixel law of a sprite.** A sprite of any rows can be drawn at any position of a grid that has
columns and rows, and leaves a grid of the same size. A pixel is flipped exactly if an odd number of set
bits fall on it, wrapped around the edges. The drawing collides exactly if a set bit falls on a pixel
that was lit, or two of them on one pixel. -/
theorem draw_pixels (h : d.Solid) (x y : Int) (sprite : Sprite) :
    let after := (d.draw x y sprite).1
    d.drawError? sprite = none ∧ after.Solid ∧ after.width = d.width ∧ after.height = d.height ∧
    (∀ u v, d.Within u v →
      after.get u v = if Odd (d.hits x y sprite u v) then !d.get u v else d.get u v) ∧
    ((d.draw x y sprite).2 = true ↔ ∃ u v, d.Within u v ∧
      (d.get u v = true ∧ 1 ≤ d.hits x y sprite u v ∨ 2 ≤ d.hits x y sprite u v)) := by
  intro after
  refine ⟨h.drawError? sprite, h.draw x y sprite, rfl, rfl, ?_, h.draw_collides x y sprite⟩
  intro u v within
  exact h.get_draw x y sprite within

/-- A full row on a grid of three columns falls three times on the first two of them and twice on the
last one, which so is lit again. -/
theorem draw_pixels_narrow :
    let d := blank 3 2
    let after := d.draw (-3) 5 [0xFF]
    d.Solid ∧ after.1.get 0 1 = true ∧ after.1.get 2 1 = false ∧ after.2 = true := by
  intro d after
  have solid : d.Solid := blank_solid (by decide) (by decide)
  obtain ⟨-, -, -, -, pixels, collides⟩ := draw_pixels solid (-3) 5 [0xFF]
  have falls : d.hits (-3) 5 [0xFF] 0 1 = 3 ∧ d.hits (-3) 5 [0xFF] 2 1 = 2 := by decide
  have first : d.Within 0 1 := by decide
  have last : d.Within 2 1 := by decide
  refine ⟨solid, ?_, ?_, collides.mpr ⟨2, 1, last, .inr (by rw [falls.2])⟩⟩
  · show (d.draw (-3) 5 [0xFF]).1.get 0 1 = true
    rw [pixels 0 1 first, falls.1]
    decide
  · show (d.draw (-3) 5 [0xFF]).1.get 2 1 = false
    rw [pixels 2 1 last, falls.2]
    decide

end Display
end Chip8
