import Chip8.Proofs.Sprites

/-!
# The rows of a grid

A grid of known size is its rows: they are its pixels, row after row and from left to right
(`Display.Measures.rows_eq`), and no two grids of one size have the same rows.
-/

namespace Chip8.Display

/-- The grid has `width` columns, `height` rows and all its pixels. Other than a solid grid, it may have
no columns or no rows. -/
structure Measures (d : Display) (width height : Nat) : Prop where
  width_eq : d.width = width
  height_eq : d.height = height
  size_eq : d.pixels.size = width * height

variable {d d' : Display} {width height : Nat}

theorem Solid.measures (h : d.Solid) : d.Measures d.width.toNat d.height.toNat where
  width_eq := (Int.toNat_of_nonneg (Int.le_of_lt h.columns)).symm
  height_eq := (Int.toNat_of_nonneg (Int.le_of_lt h.rows)).symm
  size_eq := by
    apply Int.ofNat_inj.mp
    rw [Int.natCast_mul, Int.toNat_of_nonneg (Int.le_of_lt h.columns),
      Int.toNat_of_nonneg (Int.le_of_lt h.rows)]
    exact h.size_eq

namespace Measures

theorem solid (h : d.Measures width height) (columns : 0 < width) (rows : 0 < height) : d.Solid where
  columns := by
    rw [h.width_eq]
    omega
  rows := by
    rw [h.height_eq]
    omega
  size_eq := by rw [h.size_eq, h.width_eq, h.height_eq, Int.natCast_mul]

theorem cell_eq (h : d.Measures width height) {c r : Nat} (column : c < width) (row : r < height) :
    d.cell c r = r * width + c := by
  have solid : d.Solid := h.solid (by omega) (by omega)
  apply Int.ofNat_inj.mp
  rw [solid.cell_eq, h.width_eq, h.height_eq, Int.emod_eq_of_lt (by omega) (by omega),
    Int.emod_eq_of_lt (by omega) (by omega)]
  simp

/-- The rows of a grid are its pixels, row after row and from left to right. -/
theorem rows_eq (h : d.Measures width height) :
    d.rows = (List.range height).map fun (r : Nat) =>
      (List.range width).map fun (c : Nat) => d.get c r := by
  have columns : d.width.toNat = width := by rw [h.width_eq, Int.toNat_natCast]
  have rows : d.height.toNat = height := by rw [h.height_eq, Int.toNat_natCast]
  rw [Display.rows, columns, rows]
  refine List.map_congr_left ?_
  intro r mem
  have row : r < height := List.mem_range.mp mem
  have fits : (r + 1) * width ≤ d.pixels.size := by
    rw [h.size_eq, Nat.mul_comm width]
    exact Nat.mul_le_mul_right width row
  have wide : (r + 1) * width = r * width + width := Nat.succ_mul r width
  apply List.ext_getElem
  · simp
    omega
  · intro c hc hc'
    have column : c < width := by simpa using hc'
    have inside : r * width + c < d.pixels.size := by omega
    simp [Display.get, h.cell_eq column row, inside]

theorem length_rows (h : d.Measures width height) : d.rows.length = height := by
  rw [h.rows_eq, List.length_map, List.length_range]

theorem length_of_mem_rows (h : d.Measures width height) {row : List Bool} (mem : row ∈ d.rows) :
    row.length = width := by
  rw [h.rows_eq] at mem
  obtain ⟨r, -, rfl⟩ := List.mem_map.mp mem
  rw [List.length_map, List.length_range]

/-- Grids of one size with the same rows are the same. -/
theorem eq_of_rows (h : d.Measures width height) (h' : d'.Measures width height)
    (same : d'.rows = d.rows) : d' = d := by
  have width_same : d'.width = d.width := h'.width_eq.trans h.width_eq.symm
  have height_same : d'.height = d.height := h'.height_eq.trans h.height_eq.symm
  by_cases extent : 0 < width ∧ 0 < height
  · obtain ⟨columns, rows⟩ := extent
    refine (h.solid columns rows).eq_of_get (h'.solid columns rows) width_same height_same ?_
    rintro u v ⟨⟨left, right⟩, top, bottom⟩
    obtain ⟨c, rfl⟩ := Int.eq_ofNat_of_zero_le left
    obtain ⟨r, rfl⟩ := Int.eq_ofNat_of_zero_le top
    have column : c ∈ List.range width := by
      rw [h.width_eq] at right
      exact List.mem_range.mpr (by omega)
    have row : r ∈ List.range height := by
      rw [h.height_eq] at bottom
      exact List.mem_range.mpr (by omega)
    rw [h.rows_eq, h'.rows_eq] at same
    exact List.map_inj_left.mp (List.map_inj_left.mp same r row) c column
  · -- a grid without columns or without rows has no pixels that could differ
    have none : width * height = 0 := by
      rw [Nat.mul_eq_zero]
      omega
    have pixels : d'.pixels = d.pixels := by
      rw [Array.eq_empty_of_size_eq_zero (h.size_eq.trans none),
        Array.eq_empty_of_size_eq_zero (h'.size_eq.trans none)]
    obtain ⟨_, _, _⟩ := d
    obtain ⟨_, _, _⟩ := d'
    simp only at width_same height_same pixels
    rw [width_same, height_same, pixels]

end Measures
end Chip8.Display
