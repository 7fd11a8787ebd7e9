import Chip8.Proofs.Sprites
import Mathlib.Algebra.BigOperators.Ring.Nat

/-!
# Sprites over one another

What several sprites leave on a grid is told by the parity of the set bits that fall on each pixel, all
sprites taken together. So their order does not matter, sprites drawn twice are gone, and two sprites at
one place come to a single one (`Display.overlays`).
-/

namespace Chip8

/-- A sprite and the place of its top left corner. -/
structure Placement where
  x : Int
  y : Int
  sprite : Sprite
  deriving Repr, DecidableEq

namespace Display

/-- Draws sprites one after another, up to the first that the grid has no pixels for. -/
def drawEach (d : Display) : List Placement → Except PositionError Display
  | [] => .ok d
  | p :: rest =>
    match d.drawError? p.sprite with
    | some e => .error e
    | none => (d.draw p.x p.y p.sprite).1.drawEach rest

/-- How many set bits of some sprites fall on a pixel, all together. -/
def totalHits (d : Display) (list : List Placement) (u v : Int) : Nat :=
  (list.map fun p => d.hits p.x p.y p.sprite u v).sum

/-- Two lists of sprites can both be drawn, and leave the same grid. -/
def SameOverlay (d : Display) (list list' : List Placement) : Prop :=
  ∃ after, d.drawEach list = .ok after ∧ d.drawEach list' = .ok after

/-- What some sprites leave of a grid. -/
structure Overlaid (d : Display) (list : List Placement) (after : Display) : Prop where
  drawn : d.drawEach list = .ok after
  solid : after.Solid
  width : after.width = d.width
  height : after.height = d.height
  pixels : ∀ u v, d.Within u v →
    after.get u v = if Odd (d.totalHits list u v) then !d.get u v else d.get u v

variable {d : Display} {list list' : List Placement}

/-! ## One sprite after another -/

theorem totalHits_append (d : Display) (list list' : List Placement) (u v : Int) :
    d.totalHits (list ++ list') u v = d.totalHits list u v + d.totalHits list' u v := by
  simp [totalHits]

theorem totalHits_perm (same : list.Perm list') (u v : Int) :
    d.totalHits list u v = d.totalHits list' u v :=
  (same.map _).sum_eq

/-- A sprite before the others: a pixel is flipped by it, by them, or by both and so not at all. -/
theorem Overlaid.cons (h : d.Solid) (p : Placement) {after : Display}
    (rest : (d.draw p.x p.y p.sprite).1.Overlaid list after) : d.Overlaid (p :: list) after where
  drawn := by
    rw [drawEach, h.drawError? p.sprite]
    exact rest.drawn
  solid := rest.solid
  width := rest.width
  height := rest.height
  pixels := by
    intro u v within
    have total : d.totalHits (p :: list) u v =
        d.hits p.x p.y p.sprite u v + (d.draw p.x p.y p.sprite).1.totalHits list u v := List.sum_cons
    rw [rest.pixels u v within, h.get_draw _ _ _ within, total]
    simp only [Nat.odd_add, ← Nat.not_odd_iff_even]
    by_cases here : Odd (d.hits p.x p.y p.sprite u v) <;>
      by_cases later : Odd ((d.draw p.x p.y p.sprite).1.totalHits list u v) <;>
      simp [here, later]

theorem Solid.exists_overlaid (h : d.Solid) (list : List Placement) :
    ∃ after, d.Overlaid list after := by
  induction list generalizing d with
  | nil => exact ⟨d, rfl, h, rfl, rfl, fun u v _ => by simp [totalHits]⟩
  | cons p rest ih =>
    obtain ⟨after, overlaid⟩ := ih (h.draw p.x p.y p.sprite)
    exact ⟨after, .cons h p overlaid⟩

/-- The parity of the set bits on each pixel tells all that sprites do. -/
theorem Solid.sameOverlay (h : d.Solid) (parity : ∀ u v, d.Within u v →
    (Odd (d.totalHits list u v) ↔ Odd (d.totalHits list' u v))) : d.SameOverlay list list' := by
  obtain ⟨after, one⟩ := h.exists_overlaid list
  obtain ⟨after', other⟩ := h.exists_overlaid list'
  have same : after' = after := by
    refine one.solid.eq_of_get other.solid ?_ ?_ ?_
    · rw [other.width, one.width]
    · rw [other.height, one.height]
    · intro u v within
      have within : d.Within u v := by
        rwa [Within, one.width, one.height] at within
      rw [other.pixels u v within, one.pixels u v within, if_congr (parity u v within) rfl rfl]
  exact ⟨after, one.drawn, same ▸ other.drawn⟩

/-! ## Around the edges -/

/-- Whole turns around the edges lead to the same pixels. -/
theorem Solid.touched_turns (h : d.Solid) (x y i j : Int) (sprite : Sprite) :
    d.touched (x + i * d.width) (y + j * d.height) sprite = d.touched x y sprite := by
  rw [touched, touched]
  refine List.map_congr_left ?_
  rintro ⟨c, r⟩ -
  show d.cell (x + i * d.width + c) (y + j * d.height + r) = d.cell (x + c) (y + r)
  rw [h.cell_eq_iff, Int.add_right_comm, Int.add_right_comm y]
  exact ⟨Int.add_mul_emod_self_right .., Int.add_mul_emod_self_right ..⟩

theorem Solid.draw_turns (h : d.Solid) (x y i j : Int) (sprite : Sprite) :
    d.draw (x + i * d.width) (y + j * d.height) sprite = d.draw x y sprite := by
  rw [Display.draw, Display.draw, h.touched_turns]

/-! ## Two sprites at one place -/

/-- Where exactly one of two properties holds: as often, up to parity, as each of them does together. -/
theorem odd_card_filter_xor {α : Type} (s : Finset α) (P Q : α → Prop) [DecidablePred P]
    [DecidablePred Q] :
    Odd (s.filter fun a => ¬(P a ↔ Q a)).card ↔ Odd ((s.filter P).card + (s.filter Q).card) := by
  have parity : ∀ a, Odd ((if P a then 1 else 0) + if Q a then 1 else 0 : Nat) ↔ ¬(P a ↔ Q a) := by
    intro a
    by_cases p : P a <;> by_cases q : Q a <;> simp [p, q]
  rw [Finset.card_filter P, Finset.card_filter Q, ← Finset.sum_add_distrib,
    Finset.odd_sum_iff_odd_card_odd]
  simp only [parity]

/-- A row of the bitwise difference of two sprites. -/
theorem getD_zipWith_xor {p q : Sprite} (same : p.length = q.length) (r : Nat) :
    (List.zipWith (· ^^^ ·) p q).getD r 0 = p.getD r 0 ^^^ q.getD r 0 := by
  by_cases inside : r < p.length
  · have inside' : r < q.length := same ▸ inside
    simp [inside, inside']
  · have outside : ¬ r < q.length := same ▸ inside
    simp [inside, outside]

theorem odd_hits_xor (d : Display) (x y : Int) {p q : Sprite} (same : p.length = q.length)
    (u v : Int) :
    Odd (d.hits x y (List.zipWith (· ^^^ ·) p q) u v) ↔
      Odd (d.hits x y p u v + d.hits x y q u v) := by
  have length : (List.zipWith (· ^^^ ·) p q).length = p.length := by simp [same]
  rw [hits, hits, hits, length, ← same, ← odd_card_filter_xor]
  refine iff_of_eq (congrArg (fun s => Odd (Finset.card s)) (Finset.filter_congr ?_))
  rintro ⟨c, r⟩ -
  -- the bits differ, or the position is another one
  simp only [getD_zipWith_xor same, UInt8.toNat_xor, Nat.testBit_xor]
  by_cases here : (x + c) % d.width = u ∧ (y + r) % d.height = v
  · simp [here]
  · simp [here]

/-- **Drawing sprites as an action of a commutative group.** Take a grid with columns, rows and all its
pixels. Any sprites can be drawn one after another, at whatever places, and flip the pixels that an odd
number of their set bits fall on. So in any other order they leave the same grid, and each of them drawn
twice, in any order, they leave the grid as it was. A sprite drawn some whole turns around the edges away
is the same drawing, with the same collision. Two sprites of as many rows, drawn at one place, leave what
the exclusive or of their rows leaves. -/
theorem overlays (h : d.Solid) :
    (∀ list : List Placement, ∃ after, d.Overlaid list after) ∧
    (∀ list list' : List Placement, list.Perm list' → d.SameOverlay list list') ∧
    (∀ list all : List Placement, all.Perm (list ++ list) → d.drawEach all = .ok d) ∧
    (∀ (x y i j : Int) (sprite : Sprite), d.drawError? sprite = none ∧
      d.draw (x + i * d.width) (y + j * d.height) sprite = d.draw x y sprite) ∧
    ∀ (x y : Int) (p q : Sprite), p.length = q.length →
      d.SameOverlay [⟨x, y, p⟩, ⟨x, y, q⟩] [⟨x, y, List.zipWith (· ^^^ ·) p q⟩] := by
  refine ⟨h.exists_overlaid, ?permuted, ?doubled, ?turned, ?joined⟩
  case permuted =>
    intro list list' same
    refine h.sameOverlay fun u v _ => ?_
    rw [totalHits_perm same]
  case doubled =>
    intro list all same
    have nothing : d.SameOverlay all [] := by
      refine h.sameOverlay fun u v _ => ?_
      rw [totalHits_perm same, totalHits_append]
      simp [totalHits, ← two_mul]
    obtain ⟨after, drawn, unchanged⟩ := nothing
    rw [drawn, ← unchanged, drawEach]
  case turned =>
    intro x y i j sprite
    exact ⟨h.drawError? sprite, h.draw_turns x y i j sprite⟩
  case joined =>
    intro x y p q same
    refine h.sameOverlay fun u v _ => ?_
    simp only [totalHits, List.map_cons, List.map_nil, List.sum_cons, List.sum_nil, Nat.add_zero]
    exact (odd_hits_xor d x y same u v).symm

/-- On a grid of three columns and two rows both sprites meet some of their own pixels again. -/
theorem overlays_narrow :
    let d := blank 3 2
    let wide : Placement := ⟨-3, 5, [0xFF]⟩
    let tall : Placement := ⟨1, 0, [0x80, 0x80, 0x80]⟩
    d.SameOverlay [wide, tall] [tall, wide] ∧ d.drawEach [wide, tall, tall, wide] = .ok d ∧
      d.draw 7 (-2) tall.sprite = d.draw 1 0 tall.sprite ∧
      d.SameOverlay [⟨1, 0, [0xFF, 0x80]⟩, ⟨1, 0, [0x0F, 0x01]⟩] [⟨1, 0, [0xF0, 0x81]⟩] := by
  intro d wide tall
  have solid : d.Solid := blank_solid (by decide) (by decide)
  obtain ⟨-, permuted, doubled, turned, joined⟩ := overlays solid
  have twice : [wide, tall, tall, wide].Perm ([wide, tall] ++ [wide, tall]) := by decide
  have column : 1 + 2 * d.width = 7 := by decide
  have row : 0 + -1 * d.height = -2 := by decide
  have xor : List.zipWith (· ^^^ ·) [0xFF, 0x80] [0x0F, 0x01] = ([0xF0, 0x81] : Sprite) := by decide
  obtain ⟨-, turned⟩ := turned 1 0 2 (-1) tall.sprite
  have joined := joined 1 0 [0xFF, 0x80] [0x0F, 0x01] rfl
  rw [column, row] at turned
  rw [xor] at joined
  exact ⟨permuted _ _ (.swap ..), doubled _ _ twice, turned, joined⟩

end Display
end Chip8
