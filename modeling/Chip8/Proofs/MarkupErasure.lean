import Chip8.Proofs.Markup

/-!
# Deleting markup

The two tags of a style can be deleted from a text as words, without regard to what they enclose: what is
left is the markup of the same lines without that style (`StyledLine.erase_markup`). Tags are words that
do not overlap, and they stand in the text for nothing else.
-/

namespace Chip8

section

variable {α : Type} [DecidableEq α]

/-- A text without a word, deleted at each place from the left on. A place inside a word that was deleted
is passed over. -/
def eraseFrom (word : List α) : Nat → List α → List α
  | _, [] => []
  | skip + 1, _ :: rest => eraseFrom word skip rest
  | 0, c :: rest =>
    if word <+: c :: rest then eraseFrom word (word.length - 1) rest else c :: eraseFrom word 0 rest

/-- A text without a word. -/
def eraseWord (word text : List α) : List α := eraseFrom word 0 text

variable {c : α} {word a b : List α}

theorem eraseFrom_append (word a b : List α) : eraseFrom word a.length (a ++ b) = eraseWord word b := by
  induction a with
  | nil => rfl
  | cons x a ih => exact ih

/-- The word is deleted where it stands. -/
theorem eraseWord_self (c : α) (word b : List α) :
    eraseWord (c :: word) (c :: word ++ b) = eraseWord (c :: word) b := by
  have stands : c :: word <+: c :: word ++ b := List.prefix_append _ _
  rw [List.cons_append] at stands ⊢
  rw [eraseWord, eraseFrom, if_pos stands]
  exact eraseFrom_append (c :: word) word b

/-- A part of the text is kept in which the word does not begin. -/
theorem eraseWord_append_of_notMem (h : c ∉ a) :
    eraseWord (c :: word) (a ++ b) = a ++ eraseWord (c :: word) b := by
  induction a with
  | nil => rfl
  | cons x a ih =>
    rw [List.mem_cons, not_or] at h
    have other : ¬ c :: word <+: x :: (a ++ b) := fun start => h.1 (List.cons_prefix_cons.mp start).1
    rw [List.cons_append, eraseWord, eraseFrom, if_neg other, List.cons_append]
    exact congrArg (x :: ·) (ih h.2)

end

/-! ## Texts with tags -/

/-- A part of a text with markup. -/
inductive Piece where
  | text (chars : List Char)
  | tag (name : List Char)
  deriving DecidableEq

namespace Piece

/-- How a part is written. -/
def chars : Piece → List Char
  | text chars => chars
  | tag name => '[' :: name ++ [']']

/-- Brackets are found around the names of tags only. -/
def Tidy : Piece → Prop
  | text chars => '[' ∉ chars
  | tag name => '[' ∉ name ∧ ']' ∉ name

end Piece

/-- Another tag is kept: a tag that begins as one with this name has this name. -/
theorem eraseWord_other_tag {name other : List Char} (closed : ']' ∉ name)
    (tidy : (Piece.tag other).Tidy) (different : other ≠ name) (b : List Char) :
    eraseWord (Piece.tag name).chars ((Piece.tag other).chars ++ b) =
      (Piece.tag other).chars ++ eraseWord (Piece.tag name).chars b := by
  have inside : '[' ∉ other ++ [']'] := by simp [tidy.1]
  have elsewhere : ¬ '[' :: (name ++ [']']) <+: '[' :: (other ++ [']'] ++ b) := by
    rw [List.append_assoc]
    intro start
    obtain ⟨same, -⟩ := cut_prefix closed tidy.2 (List.cons_prefix_cons.mp start).2
    exact different same.symm
  simp only [Piece.chars, List.cons_append]
  rw [eraseWord, eraseFrom, if_neg elsewhere]
  exact congrArg ('[' :: ·) (eraseWord_append_of_notMem inside)

/-- Deleting a tag from a text leaves out the parts that are this tag. -/
theorem eraseWord_pieces {name : List Char} (closed : ']' ∉ name) {pieces : List Piece}
    (tidy : ∀ p ∈ pieces, p.Tidy) :
    eraseWord (Piece.tag name).chars (pieces.flatMap Piece.chars) =
      (pieces.filter (· ≠ .tag name)).flatMap Piece.chars := by
  induction pieces with
  | nil => rfl
  | cons p rest ih =>
    have first := tidy p List.mem_cons_self
    have behind := ih fun q hq => tidy q (List.mem_cons_of_mem p hq)
    rw [List.flatMap_cons, List.filter_cons]
    cases p with
    | text chars =>
      refine (eraseWord_append_of_notMem first).trans ?_
      rw [if_pos (by simp), List.flatMap_cons]
      exact congrArg (chars ++ ·) behind
    | tag other =>
      by_cases same : other = name
      · subst same
        rw [if_neg (by simp), ← behind]
        exact eraseWord_self '[' (other ++ [']']) _
      · rw [if_pos (by simpa using same), List.flatMap_cons, ← behind]
        exact eraseWord_other_tag closed first same _

/-! ## Spans and lines -/

namespace Span

/-- A span without a style, if it has this one. -/
def unstyled (style : String) (s : Span) : Span := if s.style = some style then .plain s.text else s

/-- The parts of which the markup of a span consists. -/
def pieces (s : Span) : List Piece :=
  match s.style with
  | none => [.text s.text.toList]
  | some style => [.tag style.toList, .text s.text.toList, .tag ('/' :: style.toList)]

theorem markup_eq_pieces (s : Span) : s.markup.toList = s.pieces.flatMap Piece.chars := by
  unfold markup pieces
  split <;> simp_all [Piece.chars]

theorem Tidy.tidy_pieces {s : Span} (h : s.Tidy) : ∀ p ∈ s.pieces, p.Tidy := by
  unfold Span.pieces
  split
  · simpa [Piece.Tidy] using h.text
  · rename_i style styled
    obtain ⟨unopened, closed, -⟩ := h.style style styled
    simp [Piece.Tidy, h.text, unopened, closed]

/-- Without the two tags of a style, a span is written as one that does not have it. -/
theorem Tidy.filter_pieces {s : Span} (h : s.Tidy) {style : String}
    (opening : style.toList.head? ≠ some '/') :
    (s.pieces.filter (· ≠ .tag style.toList)).filter (· ≠ .tag ('/' :: style.toList)) =
      (s.unstyled style).pieces := by
  have not_closing {name : List Char} (h : name.head? ≠ some '/') (rest : List Char) :
      name ≠ '/' :: rest := by
    rintro rfl
    exact h rfl
  obtain ⟨text, styled⟩ := s
  cases styled with
  | none => simp [Span.pieces, unstyled]
  | some style' =>
    obtain ⟨-, -, opening'⟩ := h.style style' rfl
    by_cases same : style' = style
    · subst same
      have closing := (not_closing opening style'.toList).symm
      simp [Span.pieces, unstyled, plain, closing]
    · have names : style'.toList ≠ style.toList := fun equal => same (String.toList_inj.mp equal)
      have first := not_closing opening' style.toList
      have last := (not_closing opening style'.toList).symm
      simp [Span.pieces, unstyled, same, names, first, last]

end Span

namespace StyledLine

/-- The markup of a line, without the two tags of a style. -/
theorem erase_markup {line : StyledLine} (tidy : ∀ x ∈ line, x.Tidy) {style : String}
    (closed : ']' ∉ style.toList) (opening : style.toList.head? ≠ some '/') :
    eraseWord (Piece.tag ('/' :: style.toList)).chars
        (eraseWord (Piece.tag style.toList).chars (markup line).toList) =
      (markup (line.map (Span.unstyled style))).toList := by
  have written (line : StyledLine) :
      (markup line).toList = (line.flatMap Span.pieces).flatMap Piece.chars := by
    induction line with
    | nil => rfl
    | cons x rest ih =>
      rw [markup_cons, String.toList_append, ih, Span.markup_eq_pieces, List.flatMap_cons,
        List.flatMap_append]
  have parts : ∀ p ∈ line.flatMap Span.pieces, p.Tidy := by
    intro p mem
    obtain ⟨x, hx, hp⟩ := List.mem_flatMap.mp mem
    exact (tidy x hx).tidy_pieces p hp
  have closing_closed : ']' ∉ '/' :: style.toList := by simp [closed]
  rw [written, eraseWord_pieces closed parts,
    eraseWord_pieces closing_closed fun p hp => parts p (List.mem_of_mem_filter hp), written]
  rw [List.filter_flatMap, List.filter_flatMap, List.flatMap_map]
  congr 1
  exact List.flatMap_congr fun x hx => (tidy x hx).filter_pieces opening

/-- The markup of some lines, without the two tags of a style. -/
theorem erase_lines {lines : List StyledLine} (tidy : ∀ line ∈ lines, ∀ x ∈ line, x.Tidy)
    {style : String} (closed : ']' ∉ style.toList) (opening : style.toList.head? ≠ some '/') :
    eraseWord (Piece.tag ('/' :: style.toList)).chars
        (eraseWord (Piece.tag style.toList).chars ("\n".intercalate (lines.map markup)).toList) =
      ("\n".intercalate ((lines.map (·.map (Span.unstyled style))).map markup)).toList := by
  have ends : (Span.plain "\n").unstyled style = .plain "\n" := by simp [Span.unstyled, Span.plain]
  rw [markup_joined, erase_markup (tidy_joined tidy) closed opening, markup_joined]
  congr 2
  cases lines with
  | nil => rfl
  | cons line rest => simp [joined, List.map_flatMap, List.flatMap_map, ends]

end StyledLine

end Chip8
