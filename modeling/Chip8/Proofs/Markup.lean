import Chip8.Text.Styled
import Mathlib.Data.List.Basic
import Mathlib.Data.List.Infix

/-!
# Markup

A text with markup shows which spans it was made of: a styled span stands in the text exactly if it is
one of them (`StyledLine.markup_infix_iff`). This rests on brackets being found in tags only
(`Span.Tidy`).
-/

namespace Chip8

section

variable {α : Type} {c : α} {a b t : List α}

/-- What begins with an element that a list does not have is not found in that list. -/
theorem infix_append_iff_of_notMem (h : c ∉ a) : c :: t <:+: a ++ b ↔ c :: t <:+: b := by
  induction a with
  | nil => rfl
  | cons x a ih =>
    rw [List.mem_cons, not_or] at h
    rw [List.cons_append, List.infix_cons_iff, ih h.2, or_iff_right]
    intro start
    exact h.1 (List.cons_prefix_cons.mp start).1

/-- Two lists are compared up to the first of a separator, and then behind it. -/
theorem cut_prefix {a' b' : List α} (ha : c ∉ a) (ha' : c ∉ a')
    (h : a ++ c :: b <+: a' ++ c :: b') : a = a' ∧ b <+: b' := by
  induction a generalizing a' with
  | nil =>
    cases a' with
    | nil => exact ⟨rfl, (List.cons_prefix_cons.mp h).2⟩
    | cons x a' => exact absurd (List.cons_prefix_cons.mp h).1 fun same => ha' (by simp [same])
  | cons x a ih =>
    cases a' with
    | nil => exact absurd (List.cons_prefix_cons.mp h).1 fun same => ha (by simp [same])
    | cons y a' =>
      obtain ⟨rfl, rest⟩ := List.cons_prefix_cons.mp h
      rw [List.mem_cons, not_or] at ha ha'
      obtain ⟨rfl, behind⟩ := ih ha.2 ha'.2 rest
      exact ⟨rfl, behind⟩

end

namespace Span

/-- Brackets are found in tags only, and no opening tag looks like a closing one. -/
structure Tidy (s : Span) : Prop where
  text : '[' ∉ s.text.toList
  style : ∀ style ∈ s.style,
    '[' ∉ style.toList ∧ ']' ∉ style.toList ∧ style.toList.head? ≠ some '/'

variable {s x : Span} {style : String}

theorem markup_of_style (h : s.style = some style) :
    s.markup.toList = '[' :: (style.toList ++ ']' :: (s.text.toList ++ '[' :: '/' ::
      (style.toList ++ [']']))) := by
  rw [markup, h]
  simp [String.toList_append]

theorem markup_of_plain (h : s.style = none) : s.markup = s.text := by
  rw [markup, h]

variable {style' : String} {behind : List Char}

/-- A text that begins with the markup of one span and with that of another has them equal. -/
theorem eq_of_markup_prefix (hs : s.Tidy) (hx : x.Tidy) (styled : s.style = some style)
    (styled' : x.style = some style') (h : s.markup.toList <+: x.markup.toList ++ behind) :
    s = x := by
  obtain ⟨-, closed, -⟩ := hs.style style styled
  obtain ⟨-, closed', -⟩ := hx.style style' styled'
  rw [markup_of_style styled, markup_of_style styled'] at h
  simp only [List.cons_append, List.append_assoc, List.cons_prefix_cons, true_and] at h
  obtain ⟨sameStyle, h⟩ := cut_prefix closed closed' h
  obtain ⟨sameText, -⟩ := cut_prefix hs.text hx.text h
  have text := String.toList_inj.mp sameText
  have style := String.toList_inj.mp sameStyle
  obtain ⟨_, _⟩ := s
  obtain ⟨_, _⟩ := x
  simp only at text styled styled'
  rw [text, styled, styled', style]

/-- Markup that is found in a text behind the markup of a span begins with it, or is found behind
it. -/
theorem prefix_or_infix_of_markup (hs : s.Tidy) (hx : x.Tidy) (styled : s.style = some style)
    (styled' : x.style = some style') (h : s.markup.toList <:+: x.markup.toList ++ behind) :
    s.markup.toList <+: x.markup.toList ++ behind ∨ s.markup.toList <:+: behind := by
  obtain ⟨-, -, opening⟩ := hs.style style styled
  obtain ⟨unopened, -, -⟩ := hx.style style' styled'
  have shape : x.markup.toList ++ behind = '[' :: ((style'.toList ++ ']' :: x.text.toList) ++
      '[' :: ('/' :: (style'.toList ++ [']']) ++ behind)) := by
    rw [markup_of_style styled']
    simp
  have inTag : '[' ∉ style'.toList ++ ']' :: x.text.toList := by
    simp [unopened, hx.text]
  have inClosing : '[' ∉ '/' :: (style'.toList ++ [']']) := by
    simp [unopened]
  rw [shape]
  rw [shape, markup_of_style styled] at h
  rw [markup_of_style styled]
  rcases List.infix_cons_iff.mp h with start | inside
  · exact .inl start
  · right
    rw [infix_append_iff_of_notMem inTag] at inside
    rcases List.infix_cons_iff.mp inside with closing | inside
    · -- a closing tag is no opening one
      have slash := (List.cons_prefix_cons.mp closing).2
      cases hst : style.toList with
      | nil =>
        rw [hst] at slash
        exact absurd (List.cons_prefix_cons.mp slash).1 (by decide)
      | cons first rest =>
        rw [hst] at slash opening
        obtain ⟨rfl, -⟩ := List.cons_prefix_cons.mp slash
        exact absurd rfl opening
    · rwa [infix_append_iff_of_notMem inClosing] at inside

end Span

namespace StyledLine

variable {s : Span} {style : String}

theorem markup_cons (x : Span) (rest : StyledLine) : markup (x :: rest) = x.markup ++ markup rest := by
  rw [markup, List.map_cons, String.join_cons, markup]

/-- A styled span is found in the text of a line exactly if the line has it. -/
theorem markup_infix_iff {line : StyledLine} (tidy : ∀ x ∈ line, x.Tidy) (hs : s.Tidy)
    (styled : s.style = some style) :
    s.markup.toList <:+: (markup line).toList ↔ s ∈ line := by
  induction line with
  | nil =>
    rw [Span.markup_of_style styled]
    simp [markup]
  | cons x rest ih =>
    have tidyRest := fun y hy => tidy y (List.mem_cons_of_mem x hy)
    rw [markup_cons, String.toList_append, List.mem_cons, ← ih tidyRest]
    constructor
    · intro found
      cases plain : x.style with
      | none =>
        right
        rw [Span.markup_of_plain plain, Span.markup_of_style styled] at found
        rw [Span.markup_of_style styled]
        exact (infix_append_iff_of_notMem (tidy x List.mem_cons_self).text).mp found
      | some style' =>
        have hx := tidy x List.mem_cons_self
        rcases Span.prefix_or_infix_of_markup hs hx styled plain found with start | behind
        · exact .inl (Span.eq_of_markup_prefix hs hx styled plain start)
        · exact .inr behind
    · rintro (rfl | behind)
      · exact (List.prefix_append _ _).isInfix
      · exact behind.trans (List.suffix_append _ _).isInfix

/-! ## Lines -/

/-- The lines as one, each but the first behind a line end. -/
def joined : List StyledLine → StyledLine
  | [] => []
  | line :: rest => line ++ rest.flatMap (.plain "\n" :: ·)

theorem markup_append (first second : StyledLine) :
    markup (first ++ second) = markup first ++ markup second := by
  rw [markup, List.map_append, String.join_append, markup, markup]

theorem markup_joined (lines : List StyledLine) :
    "\n".intercalate (lines.map markup) = markup (joined lines) := by
  cases lines with
  | nil => rfl
  | cons line rest =>
    rw [List.map_cons, joined, markup_append]
    induction rest generalizing line with
    | nil => simp [markup]
    | cons next rest ih =>
      rw [List.map_cons, String.intercalate_cons_cons, ih, List.flatMap_cons, List.cons_append,
        markup_cons, markup_append, String.append_assoc]
      rfl

theorem mem_joined {lines : List StyledLine} (styled : s.style = some style) :
    s ∈ joined lines ↔ ∃ line ∈ lines, s ∈ line := by
  have coloured : s ≠ .plain "\n" := by
    rintro rfl
    exact absurd styled (by simp [Span.plain])
  cases lines with
  | nil => simp [joined]
  | cons line rest => simp [joined, coloured]

theorem tidy_joined {lines : List StyledLine} (tidy : ∀ line ∈ lines, ∀ x ∈ line, x.Tidy) :
    ∀ x ∈ joined lines, x.Tidy := by
  have ends : (Span.plain "\n").Tidy := ⟨by simp [Span.plain], by simp [Span.plain]⟩
  cases lines with
  | nil => simp [joined]
  | cons line rest =>
    intro x mem
    rcases List.mem_append.mp mem with first | later
    · exact tidy line List.mem_cons_self x first
    · obtain ⟨next, hn, hx⟩ := List.mem_flatMap.mp later
      rcases List.mem_cons.mp hx with rfl | hx
      · exact ends
      · exact tidy next (List.mem_cons_of_mem line hn) x hx

/-- A styled span is found in a text of several lines exactly if one of them has it. -/
theorem lines_infix_iff {lines : List StyledLine} (tidy : ∀ line ∈ lines, ∀ x ∈ line, x.Tidy)
    (hs : s.Tidy) (styled : s.style = some style) :
    s.markup.toList <:+: ("\n".intercalate (lines.map markup)).toList ↔
      ∃ line ∈ lines, s ∈ line := by
  rw [markup_joined, markup_infix_iff (tidy_joined tidy) hs styled, mem_joined styled]

end StyledLine
end Chip8
