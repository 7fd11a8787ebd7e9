import Chip8.Display.Change
import Chip8.Proofs.PanelLines

/-!
# The screen's text is an image of the display

Each character of the screen's text tells the two pixels that it shows, so the rows of a grid are read
back from its text, an unlit one behind them if there is an odd number of them. The text is then that of
one grid alone, among all that have its size (`Panel.screenLines_faithful`).

* What sprites, fills and clears leave of a blank grid has its size;
* a line is read back as the two rows that it shows, and all lines as all rows;
* the character at a line and a column shows two pixels of this column.
-/

namespace Chip8

namespace Display

variable {d : Display} {width height : Nat}

/-! ## What changes keep -/

theorem measures_blank (width height : Nat) : (blank width height).Measures width height where
  width_eq := rfl
  height_eq := rfl
  size_eq := by
    rw [blank, Array.size_replicate, ← Int.natCast_mul, Int.toNat_natCast]

theorem Measures.perform (h : d.Measures width height) (x : Change) :
    (d.perform x).Measures width height := by
  have all : d.pixels.size = width * height := h.size_eq
  cases x with
  | draw x y sprite =>
    rw [Display.perform]
    split
    · exact h
    · exact { h with size_eq := (size_flipAll ..).trans all }
  | fill => exact { h with size_eq := (Array.size_map ..).trans all }
  | clear => exact { h with size_eq := (Array.size_map ..).trans all }

theorem Measures.after (h : d.Measures width height) (history : List Change) :
    (d.after history).Measures width height := by
  induction history generalizing d with
  | nil => exact h
  | cons x rest ih => exact ih (h.perform x)

end Display

namespace Panel

/-! ## What a text shows -/

/-- The two rows of pixels that a line shows, one above the other. -/
def linePixels? (line : List Char) : Option (List (List Bool)) :=
  (line.mapM halfBlockPixels?).map fun pixels => [pixels.map Prod.fst, pixels.map Prod.snd]

/-- The rows of pixels that lines show. -/
def screenPixels? (lines : List (List Char)) : Option (List (List Bool)) :=
  (lines.mapM linePixels?).map List.flatten

theorem halfBlockPixels?_halfBlock (top bottom : Bool) :
    halfBlockPixels? (halfBlock top bottom) = some (top, bottom) := by
  cases top <;> cases bottom <;> rfl

theorem linePixels?_halfBlockLine {top bottom : List Bool} (same : top.length = bottom.length) :
    linePixels? (halfBlockLine top bottom) = some [top, bottom] := by
  have pixels : (halfBlockLine top bottom).mapM halfBlockPixels? = some (top.zip bottom) := by
    unfold halfBlockLine
    clear same
    induction top generalizing bottom with
    | nil => rfl
    | cons t top ih =>
      cases bottom with
      | nil => rfl
      | cons b bottom => simp [halfBlockPixels?_halfBlock, ih]
  rw [linePixels?, pixels]
  simp [List.map_fst_zip, List.map_snd_zip, same]

/-- The rows that a text was made of are read back from it, an odd last one with an unlit row below. -/
theorem screenPixels?_screenLines {rows : List (List Bool)} {width : Nat}
    (wide : ∀ row ∈ rows, row.length = width) :
    screenPixels? (screenLines rows) =
      some (rows ++ if rows.length % 2 = 1 then [List.replicate width false] else []) := by
  induction rows using screenLines.induct with
  | case1 => rfl
  | case2 top =>
    have last : top.length = width := wide top List.mem_cons_self
    simp [screenPixels?, screenLines, linePixels?_halfBlockLine, last]
  | case3 top bottom rest ih =>
    have same : top.length = bottom.length := by
      rw [wide top (by simp), wide bottom (by simp)]
    have behind := ih fun row mem => wide row (by simp [mem])
    have parity : (rest.length + 1 + 1) % 2 = rest.length % 2 := by omega
    rw [screenPixels?, Option.map_eq_some_iff] at behind
    obtain ⟨pairs, read, flat⟩ := behind
    simp [screenPixels?, screenLines, linePixels?_halfBlockLine same, read, flat, parity]

/-- A line shows the row with twice its number, above the next one or unlit pixels. -/
theorem getElem?_screenLines (rows : List (List Bool)) (l : Nat) :
    (screenLines rows)[l]? = rows[2 * l]?.map fun top =>
      halfBlockLine top (rows[2 * l + 1]?.getD (top.map fun _ => false)) := by
  induction rows using screenLines.induct generalizing l with
  | case1 => rfl
  | case2 top =>
    cases l with
    | zero => rfl
    | succ l => simp [screenLines, Nat.mul_succ]
  | case3 top bottom rest ih =>
    cases l with
    | zero => rfl
    | succ l => simp [screenLines, ih, Nat.mul_succ]

/-- Texts of one shape tell their rows apart. -/
theorem rows_of_screenText {rows rows' : List (List Bool)} {width : Nat}
    (wide : ∀ row ∈ rows, row.length = width) (wide' : ∀ row ∈ rows', row.length = width)
    (length : rows'.length = rows.length) (same : screenText rows' = screenText rows) :
    rows' = rows := by
  by_cases none : rows = []
  · subst none
    exact List.length_eq_zero_iff.mp length
  · have none' : rows' ≠ [] := by
      rw [ne_eq, ← List.length_eq_zero_iff, length, List.length_eq_zero_iff]
      exact none
    have read := congrArg (fun text => screenPixels? (lines text)) same
    simp only [lines_screenText_of_rows wide none, lines_screenText_of_rows wide' none',
      screenPixels?_screenLines wide, screenPixels?_screenLines wide', length, Option.some.injEq] at read
    exact List.append_cancel_right read

/-- The character at a line and a column shows the pixel at twice the line's number, above the next one
or, behind the last row, an unlit one. -/
theorem getElem?_screenLines_of_measures {d : Display} {width height : Nat}
    (h : d.Measures width height) {l c : Nat} (line : 2 * l < height) (column : c < width) :
    (screenLines d.rows)[l]?.bind (·[c]?) =
      some (halfBlock (d.get c (2 * l)) (if 2 * l + 1 < height then d.get c (2 * l + 1) else false)) := by
  rw [getElem?_screenLines, h.rows_eq]
  by_cases below : 2 * l + 1 < height <;> simp [line, below, column, halfBlockLine]

/-- **The screen's text is a faithful image of the display.** Take a grid of any width and height, with
whatever sprites, fills and clears leave on it. Its text has a line for every two rows, as long as the
rows are, and one more for an odd last row. Read back, the characters give the rows of the grid, and an
unlit row behind an odd number of them: the character at line `l` and column `c` shows the pixel of this
column in row `2 * l`, above the one in row `2 * l + 1`, which is unlit behind the last row. So grids of
one size with the same text are the same. -/
theorem screenLines_faithful (width height : Nat) (history : List Display.Change) :
    let d := (Display.blank width height).after history
    let text := screenLines d.rows
    text.length = (height + 1) / 2 ∧ (∀ line ∈ text, line.length = width) ∧
      screenPixels? text =
        some (d.rows ++ if height % 2 = 1 then [List.replicate width false] else []) ∧
      (∀ l c : Nat, l < text.length → c < width → ∃ glyph,
        text[l]?.bind (·[c]?) = some glyph ∧
        halfBlockPixels? glyph = some (d.get c (2 * l),
          if 2 * l + 1 < height then d.get c (2 * l + 1) else false)) ∧
      ∀ history', screenText ((Display.blank width height).after history').rows = screenText d.rows →
        (Display.blank width height).after history' = d := by
  intro d text
  have measures (history : List Display.Change) :
      ((Display.blank width height).after history).Measures width height :=
    (Display.measures_blank width height).after history
  have h : d.Measures width height := measures history
  have wide : ∀ row ∈ d.rows, row.length = width := fun _ => h.length_of_mem_rows
  have count : text.length = (height + 1) / 2 := by
    rw [length_screenLines, h.length_rows]
  refine ⟨count, fun line mem => (length_of_mem_screenLines wide mem).1, ?back, ?glyphs, ?same⟩
  case back => rw [screenPixels?_screenLines wide, h.length_rows]
  case glyphs =>
    intro l c line column
    have row : 2 * l < height := by omega
    exact ⟨_, getElem?_screenLines_of_measures h row column, halfBlockPixels?_halfBlock ..⟩
  case same =>
    intro history' same
    have h' := measures history'
    refine h.eq_of_rows h' (rows_of_screenText wide (fun _ => h'.length_of_mem_rows) ?_ same)
    rw [h.length_rows, h'.length_rows]

end Panel
end Chip8
