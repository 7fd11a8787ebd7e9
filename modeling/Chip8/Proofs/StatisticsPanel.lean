import Chip8.Panel.Statistics
import Chip8.Proofs.Figures
import Chip8.Proofs.Overflow
import Mathlib.Algebra.BigOperators.Group.List.Basic
import Mathlib.Algebra.Order.BigOperators.Group.List
import Mathlib.Algebra.Order.Group.Int

/-!
# The statistics panel can be drawn

A table of counts above zero has a text as soon as its total can be written
(`Panel.statisticsText_ok`): the total is not zero, so every share has a value, and every other sum is
a part of the total.
-/

-- the empty sum is the zero of the number type itself
attribute [local instance (high)] Zero.ofOfNat0

namespace Chip8.Panel

theorem mapM_ok {α β ε : Type} {f : α → Except ε β} {l : List α}
    (h : ∀ x ∈ l, ∃ y, f x = .ok y) : ∃ ys, l.mapM f = .ok ys := by
  induction l with
  | nil => exact ⟨[], rfl⟩
  | cons x rest ih =>
    obtain ⟨y, hy⟩ := h x List.mem_cons_self
    obtain ⟨ys, hys⟩ := ih fun z hz => h z (List.mem_cons_of_mem x hz)
    refine ⟨y :: ys, ?_⟩
    rw [List.mapM_cons, hy, hys]
    rfl

/-! ## A part of the total -/

/-- A count that a table of this total can show. -/
structure Part (total count : Int) : Prop where
  low : 0 ≤ count
  high : count ≤ total

variable {total : Int} {entries : List Entry}

theorem totalOf_cons (e : Entry) (entries : List Entry) :
    totalOf (e :: entries) = e.2 + totalOf entries := by
  rw [totalOf, List.map_cons, List.sum_cons, totalOf]

theorem totalOf_nonneg (counts : ∀ e ∈ entries, 0 ≤ e.2) : 0 ≤ totalOf entries := by
  induction entries with
  | nil => exact Int.le_refl 0
  | cons e rest ih =>
    have first := counts e List.mem_cons_self
    have later := ih fun x hx => counts x (List.mem_cons_of_mem e hx)
    rw [totalOf_cons]
    omega

theorem totalOf_perm {entries' : List Entry} (h : entries.Perm entries') :
    totalOf entries = totalOf entries' := (h.map _).sum_eq

/-- Some of the entries add up to a part of the total. -/
theorem part_of_sublist {some_entries : List Entry} (counts : ∀ e ∈ entries, 0 ≤ e.2)
    (h : some_entries.Sublist entries) : Part (totalOf entries) (totalOf some_entries) := by
  refine ⟨totalOf_nonneg fun e he => counts e (h.subset he), ?_⟩
  induction h with
  | slnil => exact Int.le_refl _
  | cons e h ih =>
    have first := counts e List.mem_cons_self
    have later := ih fun x hx => counts x (List.mem_cons_of_mem e hx)
    rw [totalOf_cons]
    omega
  | cons_cons e h ih =>
    have later := ih fun x hx => counts x (List.mem_cons_of_mem e hx)
    rw [totalOf_cons, totalOf_cons]
    omega

theorem part_of_mem (counts : ∀ e ∈ entries, 0 ≤ e.2) {e : Entry} (he : e ∈ entries) :
    Part (totalOf entries) e.2 := by
  have part := part_of_sublist counts (List.singleton_sublist.mpr he)
  rw [totalOf_cons] at part
  exact ⟨by simpa [totalOf] using part.low, by simpa [totalOf] using part.high⟩

theorem Part.percentage_ok (positive : 0 < total) {count : Int} (h : Part total count) :
    ∃ share, percentage count total = .ok share := by
  obtain ⟨share, finite⟩ := Binary64.ratio_of_le h.low h.high positive
  rw [percentage, if_neg (Int.ne_of_gt positive), finite]
  exact ⟨_, rfl⟩

theorem Part.countText_ok (written : Numeral.isWritable total = true) {count : Int}
    (h : Part total count) (width : Nat) : ∃ text, countText width count = .ok text := by
  rw [countText, if_pos (Numeral.isWritable_of_le h.low h.high written)]
  exact ⟨_, rfl⟩

theorem Part.entryLine_ok (positive : 0 < total) (written : Numeral.isWritable total = true)
    (width : Nat) {e : Entry} (h : Part total e.2) : ∃ line, entryLine width total e = .ok line := by
  obtain ⟨share, hs⟩ := h.percentage_ok positive
  obtain ⟨count, hc⟩ := h.countText_ok written 8
  simp only [entryLine, hs, hc]
  exact ⟨_, rfl⟩

theorem Part.categoryLine_ok (positive : 0 < total) (written : Numeral.isWritable total = true)
    {c : Category × Int} (h : Part total c.2) : ∃ line, categoryLine total c = .ok line := by
  obtain ⟨share, hs⟩ := h.percentage_ok positive
  obtain ⟨count, hc⟩ := h.countText_ok written 0
  simp only [categoryLine, hs, hc]
  exact ⟨_, rfl⟩

/-! ## The panel -/

theorem part_of_category (counts : ∀ e ∈ entries, 0 ≤ e.2) {c : Category × Int}
    (h : c ∈ categoryTotals entries) : Part (totalOf entries) c.2 := by
  obtain ⟨category, -, own⟩ := List.mem_filterMap.mp h
  split at own
  · exact absurd own (by simp)
  · obtain rfl := Option.some.inj own
    exact part_of_sublist counts List.filter_sublist

theorem part_of_listed (counts : ∀ e ∈ entries, 0 ≤ e.2) (limit : Int) {e : Entry}
    (h : e ∈ (rankingOf entries limit).listed ++ restEntry entries limit) :
    Part (totalOf entries) e.2 := by
  have sorted : (ranked entries).Perm entries := List.mergeSort_perm _ _
  have positive : ∀ e ∈ ranked entries, 0 ≤ e.2 := fun e he => counts e (sorted.mem_iff.mp he)
  rw [← totalOf_perm sorted]
  rcases List.mem_append.mp h with listed | rest
  · exact part_of_mem positive (List.mem_of_mem_take listed)
  · unfold restEntry at rest
    split at rest
    · obtain rfl := List.mem_singleton.mp rest
      exact part_of_sublist positive (List.drop_sublist _ _)
    · exact absurd rest List.not_mem_nil

theorem length_ranked (entries : List Entry) : (ranked entries).length = entries.length :=
  List.length_mergeSort entries

theorem listed_ne_nil (some_entry : entries ≠ []) {limit : Int} (shown : 1 ≤ limit) :
    (rankingOf entries limit).listed ≠ [] := by
  have count : listedCount (ranked entries).length limit = limit.toNat := if_neg (by omega)
  have positive := List.length_pos_of_ne_nil some_entry
  apply List.ne_nil_of_length_pos
  show 0 < ((ranked entries).take _).length
  rw [count, List.length_take, length_ranked]
  omega

theorem totalOf_pos (counts : ∀ e ∈ entries, 1 ≤ e.2) (some_entry : entries ≠ []) :
    0 < totalOf entries := by
  obtain ⟨e, he⟩ := List.exists_mem_of_ne_nil entries some_entry
  have one := counts e he
  have part := part_of_mem (fun x hx => Int.le_of_lt (counts x hx)) he
  exact Int.lt_of_lt_of_le one part.high

/-- The statistics of a positive total have a line for the total, one for each entry that is listed, one
for the rest, and one for each category. -/
theorem statisticsLines_ok (counts : ∀ e ∈ entries, 0 ≤ e.2) (positive : 0 < totalOf entries)
    (written : Numeral.isWritable (totalOf entries) = true) {limit : Int}
    (shown : (rankingOf entries limit).listed ≠ []) :
    ∃ width top bottom,
      ((rankingOf entries limit).listed.map fun e => e.1.length).max? = some width ∧
      ((rankingOf entries limit).listed ++ restEntry entries limit).mapM
        (entryLine width (totalOf entries)) = .ok top ∧
      (categoryTotals entries).mapM (categoryLine (totalOf entries)) = .ok bottom ∧
      statisticsLines entries limit =
        .ok (("Total: " ++ decimalGrouped 0 (totalOf entries)) :: top ++ "" :: bottom) := by
  have sum : countText 0 (totalOf entries) = .ok (decimalGrouped 0 (totalOf entries)) := if_pos written
  obtain ⟨width, hwidth⟩ : ∃ width,
      ((rankingOf entries limit).listed.map fun e => e.1.length).max? = some width := by
    rw [← Option.ne_none_iff_exists', ne_eq, List.max?_eq_none_iff, List.map_eq_nil_iff]
    exact shown
  obtain ⟨top, htop⟩ := mapM_ok fun e he =>
    (part_of_listed counts limit he).entryLine_ok positive written width
  obtain ⟨bottom, hbottom⟩ := mapM_ok fun c hc =>
    (part_of_category counts hc).categoryLine_ok positive written
  have filled : entries.isEmpty = false := by
    cases entries with
    | nil => exact absurd positive (Int.lt_irrefl 0)
    | cons => rfl
  refine ⟨width, top, bottom, hwidth, htop, hbottom, ?_⟩
  simp only [statisticsLines, filled, sum, hwidth, htop, hbottom]
  rfl

/-- The statistics of counts above zero can be drawn, unless their total is too long to be written. -/
theorem statisticsText_ok (counts : ∀ e ∈ entries, 1 ≤ e.2)
    (written : Numeral.isWritable (totalOf entries) = true) {limit : Int} (shown : 1 ≤ limit) :
    ∃ text, statisticsText entries limit = .ok text := by
  suffices lines : ∃ lines, statisticsLines entries limit = .ok lines by
    obtain ⟨lines, h⟩ := lines
    rw [statisticsText, h]
    exact ⟨_, rfl⟩
  by_cases some_entry : entries = []
  · rw [some_entry]
    exact ⟨_, rfl⟩
  · have nonneg : ∀ e ∈ entries, 0 ≤ e.2 := fun e he => Int.le_of_lt (counts e he)
    obtain ⟨_, _, _, -, -, -, drawn⟩ := statisticsLines_ok nonneg (totalOf_pos counts some_entry) written
      (listed_ne_nil some_entry shown)
    exact ⟨_, drawn⟩

end Chip8.Panel
