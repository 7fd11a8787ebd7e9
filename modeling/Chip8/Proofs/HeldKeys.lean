import Chip8.Keypad.Held
import Mathlib.Data.List.Forall2

/-!
# How long a key is held

All that is kept of what was typed is a count for each key, which the polls run down. It tells how many
polls ago the key was typed last, and nothing else (`HeldKeys.held_since_typed`): what happens to a key
between two polls is that it is typed there or that it is not.
-/

namespace Chip8

/-! ## Characters and keys -/

namespace Keypad

variable {c : Char} {k : Fin 16}

/-- A character stands for a key: it lies on the layout with this key, or is the capital of one that
does. -/
def Names (c : Char) (k : Fin 16) : Prop := ∃ p ∈ layout, p.2 = k ∧ (c = p.1 ∨ c = p.1.toUpper)

/-- Some of the characters stands for a key. -/
def Types (chars : List Char) (k : Fin 16) : Prop := ∃ c ∈ chars, Names c k

theorem toLower_eq_iff {d : Char} (small : d.isUpper = false) :
    c.toLower = d ↔ c = d ∨ c = d.toUpper := by
  have hc := c.val.toNat_lt
  have hd := d.val.toNat_lt
  have small : ¬(d.val ≥ 'A'.val ∧ d.val ≤ 'Z'.val) := of_decide_eq_false small
  unfold Char.toLower Char.toUpper
  -- a capital comes 32 characters before its small form
  split <;> split
  all_goals
    simp only [Char.ext_iff, ← UInt32.toNat_inj, UInt32.toNat_add]
    simp only [ge_iff_le, UInt32.le_iff_toNat_le, Char.reduceVal, UInt32.reduceToNat,
      UInt32.reduceSub] at *
    omega

theorem lookup_layout : layout.lookup c = some k ↔ (c, k) ∈ layout := by
  have known : ∀ p ∈ layout, layout.lookup p.1 = some p.2 := by decide
  constructor
  · intro found
    obtain ⟨before, after, split, -⟩ := List.lookup_eq_some_iff.mp found
    rw [split]
    exact List.mem_append_right _ List.mem_cons_self
  · exact known (c, k)

theorem keyOf?_eq_some_iff : keyOf? c = some k ↔ Names c k := by
  have small : ∀ p ∈ layout, p.1.isUpper = false := by decide
  rw [keyOf?, lookup_layout]
  constructor
  · intro mem
    exact ⟨_, mem, rfl, (toLower_eq_iff (small _ mem)).mp rfl⟩
  · rintro ⟨⟨d, _⟩, mem, rfl, same⟩
    rwa [(toLower_eq_iff (small _ mem)).mpr same]

instance (c : Char) (k : Fin 16) : Decidable (Names c k) := decidable_of_iff _ keyOf?_eq_some_iff

instance (chars : List Char) (k : Fin 16) : Decidable (Types chars k) := List.decidableBEx _ chars

theorem asksToQuit_iff : asksToQuit c = true ↔ c = '\x1b' ∨ c = '\x03' := by
  simp [asksToQuit]

/-- The characters that ask to quit stand for no key. -/
theorem not_names_of_asksToQuit (quits : asksToQuit c = true) : ¬ Names c k := by
  have unnamed : keyOf? c = none := by
    rcases asksToQuit_iff.mp quits with rfl | rfl <;> decide
  simp [← keyOf?_eq_some_iff, unnamed]

end Keypad

namespace HeldKeys

open Keypad (Names Types)

/-- What happens to held keys. -/
inductive Event where
  /-- Characters were typed. -/
  | feed (chars : List Char)
  /-- The keys were asked for. -/
  | poll
  deriving Repr, DecidableEq

/-- What an event makes of the held keys. -/
def perform (h : HeldKeys) : Event → HeldKeys
  | .feed chars => h.feed chars
  | .poll => h.poll.2

/-- The held keys after some events. -/
def after (h : HeldKeys) (history : List Event) : HeldKeys := history.foldl perform h

/-- A key was typed last in a history before its last `n` polls. -/
def LastTyped (k : Fin 16) (n : Nat) (history : List Event) : Prop :=
  ∃ before chars later, history = before ++ .feed chars :: later ∧ Types chars k ∧
    (∀ chars', .feed chars' ∈ later → ¬ Types chars' k) ∧ later.count .poll = n

/-- What is typed before the next poll. -/
def untilPoll : List Event → List Char
  | [] => []
  | .feed chars :: rest => chars ++ untilPoll rest
  | .poll :: _ => []

/-- What is typed behind each poll, up to the one after it. -/
def behindPolls : List Event → List (List Char)
  | [] => []
  | .feed _ :: rest => behindPolls rest
  | .poll :: rest => untilPoll rest :: behindPolls rest

/-- Two histories have as many polls, and between two of them a key is typed in both histories or in
neither one. -/
def AlikeFor (k : Fin 16) (history history' : List Event) : Prop :=
  (Types (untilPoll history) k ↔ Types (untilPoll history') k) ∧
    List.Forall₂ (fun chars chars' => Types chars k ↔ Types chars' k)
      (behindPolls history) (behindPolls history')

variable {h h' : HeldKeys} {k : Fin 16} {n : Nat} {history history' : List Event}

theorem after_append (h : HeldKeys) (history history' : List Event) :
    h.after (history ++ history') = (h.after history).after history' :=
  List.foldl_append

/-! ## One event -/

@[simp] theorem type_holdFrames (h : HeldKeys) (c : Char) : (h.type c).holdFrames = h.holdFrames := by
  unfold type
  split
  · rfl
  · split <;> rfl

theorem type_remaining (h : HeldKeys) (c : Char) (k : Fin 16) :
    (h.type c).remaining.get k = if Names c k then h.holdFrames else h.remaining.get k := by
  unfold type
  split
  case isTrue quits => rw [if_neg (Keypad.not_names_of_asksToQuit quits)]
  case isFalse =>
    split
    case h_1 k' named =>
      have same : Names c k ↔ k'.val = k.val := by
        rw [← Keypad.keyOf?_eq_some_iff, named, Option.some_inj, Fin.ext_iff]
      rw [if_congr same rfl rfl]
      exact Vector.getElem_set k'.isLt _
    case h_2 unnamed =>
      have other : ¬ Names c k := by
        rw [← Keypad.keyOf?_eq_some_iff, unnamed]
        simp
      rw [if_neg other]

theorem type_quitRequested (h : HeldKeys) (c : Char) :
    (h.type c).quitRequested = (h.quitRequested || Keypad.asksToQuit c) := by
  unfold type
  split
  case isTrue quits => rw [quits, Bool.or_true]
  case isFalse stays =>
    rw [Bool.not_eq_true] at stays
    rw [stays, Bool.or_false]
    split <;> rfl

@[simp] theorem feed_holdFrames (h : HeldKeys) (chars : List Char) :
    (h.feed chars).holdFrames = h.holdFrames := by
  induction chars generalizing h with
  | nil => rfl
  | cons c rest ih => exact (ih (h.type c)).trans (type_holdFrames h c)

/-- Typing a key starts its count again, and leaves those of the others. -/
theorem feed_remaining (h : HeldKeys) (chars : List Char) (k : Fin 16) :
    (h.feed chars).remaining.get k = if Types chars k then h.holdFrames else h.remaining.get k := by
  induction chars generalizing h with
  | nil => simp [feed, Types]
  | cons c rest ih =>
    have typed : (h.feed (c :: rest)).remaining.get k = ((h.type c).feed rest).remaining.get k := rfl
    have either : Types (c :: rest) k ↔ Names c k ∨ Types rest k := by simp [Types]
    rw [typed, ih, type_remaining, type_holdFrames]
    by_cases first : Names c k <;> by_cases later : Types rest k <;> simp [either, first, later]

theorem feed_quitRequested (h : HeldKeys) (chars : List Char) :
    (h.feed chars).quitRequested = (h.quitRequested || chars.any Keypad.asksToQuit) := by
  induction chars generalizing h with
  | nil => exact (Bool.or_false _).symm
  | cons c rest ih =>
    have typed : h.feed (c :: rest) = (h.type c).feed rest := rfl
    rw [typed, ih, type_quitRequested, List.any_cons, Bool.or_assoc]

theorem poll_remaining (h : HeldKeys) (k : Fin 16) :
    h.poll.2.remaining.get k = max (h.remaining.get k - 1) 0 :=
  Vector.getElem_map ..

theorem poll_down (h : HeldKeys) (k : Fin 16) : h.poll.1.get k = decide (0 < h.remaining.get k) :=
  Vector.getElem_map ..

/-! ## The count of a key -/

theorem after_holdFrames (h : HeldKeys) (history : List Event) :
    (h.after history).holdFrames = h.holdFrames := by
  induction history generalizing h with
  | nil => rfl
  | cons event rest ih =>
    refine (ih (h.perform event)).trans ?_
    cases event with
    | feed chars => exact feed_holdFrames h chars
    | poll => rfl

/-- What some polls leave of a count. Without any, a count below zero stays what it is. -/
def runDown (r : Int) : Nat → Int
  | 0 => r
  | n + 1 => max (r - (n + 1 : Nat)) 0

theorem runDown_pos_iff (r : Int) (n : Nat) : 0 < runDown r n ↔ (n : Int) < r := by
  cases n with
  | zero => exact Iff.rfl
  | succ n =>
    rw [runDown]
    omega

theorem runDown_poll (r : Int) (n : Nat) : runDown (max (r - 1) 0) n = runDown r (n + 1) := by
  cases n with
  | zero => rfl
  | succ n =>
    rw [runDown, runDown]
    omega

/-- While a key is not typed, the polls run its count down. -/
theorem remaining_of_untyped (h : HeldKeys)
    (untyped : ∀ chars, .feed chars ∈ history → ¬ Types chars k) :
    (h.after history).remaining.get k = runDown (h.remaining.get k) (history.count .poll) := by
  induction history generalizing h with
  | nil => rfl
  | cons event rest ih =>
    have later := ih (h.perform event) fun chars mem => untyped chars (List.mem_cons_of_mem _ mem)
    refine later.trans ?_
    cases event with
    | feed chars =>
      have kept : (h.feed chars).remaining.get k = h.remaining.get k := by
        rw [feed_remaining, if_neg (untyped chars List.mem_cons_self)]
      rw [perform, kept, List.count_cons_of_ne (by simp)]
    | poll => rw [perform, poll_remaining, runDown_poll, List.count_cons_self]

/-- The count of a key is what the polls since it was last typed have left of the whole. -/
theorem remaining_of_lastTyped (h : HeldKeys) (last : LastTyped k n history) :
    (h.after history).remaining.get k = runDown h.holdFrames n := by
  obtain ⟨before, chars, later, rfl, typed, untyped, rfl⟩ := last
  have split : h.after (before ++ .feed chars :: later) = ((h.after before).feed chars).after later :=
    after_append ..
  rw [split, remaining_of_untyped _ untyped, feed_remaining, if_pos typed, after_holdFrames]

theorem lastTyped_or_untyped (k : Fin 16) (history : List Event) :
    (∃ n, LastTyped k n history) ∨ ∀ chars, .feed chars ∈ history → ¬ Types chars k := by
  induction history with
  | nil => exact .inr fun chars mem => nomatch mem
  | cons event rest ih =>
    rcases ih with ⟨n, before, chars, later, rfl, last⟩ | untyped
    · exact .inl ⟨n, event :: before, chars, later, rfl, last⟩
    · by_cases typed : ∃ chars, event = .feed chars ∧ Types chars k
      · obtain ⟨chars, rfl, typed⟩ := typed
        exact .inl ⟨_, [], chars, rest, rfl, typed, untyped, rfl⟩
      · refine .inr fun chars mem types => ?_
        rcases List.mem_cons.mp mem with rfl | mem
        · exact typed ⟨chars, rfl, types⟩
        · exact untyped chars mem types

theorem poll_down_iff (holdFrames : Int) (history : List Event) (k : Fin 16) :
    ((idle holdFrames).after history).poll.1.get k = true ↔
      ∃ n : Nat, LastTyped k n history ∧ (n : Int) < holdFrames := by
  rw [poll_down, decide_eq_true_iff]
  constructor
  · intro down
    rcases lastTyped_or_untyped k history with ⟨n, last⟩ | untyped
    · rw [remaining_of_lastTyped _ last, runDown_pos_iff] at down
      exact ⟨n, last, down⟩
    · have none_left : (idle holdFrames).remaining.get k = 0 := Vector.getElem_replicate ..
      rw [remaining_of_untyped _ untyped, none_left, runDown_pos_iff] at down
      omega
  · rintro ⟨n, last, recent⟩
    rw [remaining_of_lastTyped _ last]
    exact (runDown_pos_iff _ n).mpr recent

theorem after_quitRequested_iff (h : HeldKeys) (history : List Event) :
    (h.after history).quitRequested = true ↔ h.quitRequested = true ∨
      ∃ chars, .feed chars ∈ history ∧ ∃ c ∈ chars, c = '\x1b' ∨ c = '\x03' := by
  induction history generalizing h with
  | nil => simp [after]
  | cons event rest ih =>
    refine (ih (h.perform event)).trans ?_
    cases event with
    | feed chars =>
      simp only [perform, feed_quitRequested, Bool.or_eq_true, List.any_eq_true,
        Keypad.asksToQuit_iff, or_assoc, List.mem_cons, Event.feed.injEq, or_and_right,
        exists_or, exists_eq_left]
    | poll => simp [perform, poll]

/-! ## Characters between two polls -/

theorem feed_append (h : HeldKeys) (chars chars' : List Char) :
    h.feed (chars ++ chars') = (h.feed chars).feed chars' :=
  List.foldl_append

/-- It does not matter how characters are split over feeds. -/
theorem after_eq_untilPoll (h : HeldKeys) (history : List Event) :
    h.after history =
      (behindPolls history).foldl (fun h chars => h.poll.2.feed chars) (h.feed (untilPoll history)) := by
  induction history generalizing h with
  | nil => rfl
  | cons event rest ih =>
    refine (ih (h.perform event)).trans ?_
    cases event with
    | feed chars => rw [perform, untilPoll, behindPolls, feed_append]
    | poll => rfl

/-- Held keys agree on a key. -/
structure Agree (k : Fin 16) (h h' : HeldKeys) : Prop where
  holdFrames : h'.holdFrames = h.holdFrames
  remaining : h'.remaining.get k = h.remaining.get k

theorem Agree.feed {chars chars' : List Char} (same : Agree k h h')
    (typed : Types chars k ↔ Types chars' k) : Agree k (h.feed chars) (h'.feed chars') where
  holdFrames := by rw [feed_holdFrames, feed_holdFrames, same.holdFrames]
  remaining := by
    simp only [feed_remaining, same.holdFrames, same.remaining, typed]

theorem Agree.poll (same : Agree k h h') : Agree k h.poll.2 h'.poll.2 where
  holdFrames := same.holdFrames
  remaining := by rw [poll_remaining, poll_remaining, same.remaining]

theorem Agree.after (same : Agree k h h') (alike : AlikeFor k history history') :
    Agree k (h.after history) (h'.after history') := by
  obtain ⟨first, others⟩ := alike
  rw [after_eq_untilPoll, after_eq_untilPoll]
  replace same := same.feed first
  generalize h.feed (untilPoll history) = h at same ⊢
  generalize h'.feed (untilPoll history') = h' at same ⊢
  generalize behindPolls history = behind at others ⊢
  generalize behindPolls history' = behind' at others ⊢
  induction others generalizing h h' with
  | nil => exact same
  | cons typed _ ih => exact ih _ _ (same.poll.feed typed)

/-- **How long a key is held.** Whatever was typed and polled, and for whatever number of polls a key is
to be held: a poll reports a key down exactly if the key was typed, and fewer polls than this number came
since it was typed last. Quitting is requested exactly if an escape or a Ctrl-C was among the
characters. The state of a key, its count and its next report, is the same after all histories that
between two polls either both type the key or both do not, however often, in what order and among
whatever other characters. -/
theorem held_since_typed (holdFrames : Int) (history : List Event) (k : Fin 16) :
    let h := (idle holdFrames).after history
    (h.poll.1.get k = true ↔ ∃ n : Nat, LastTyped k n history ∧ (n : Int) < holdFrames) ∧
    (h.quitRequested = true ↔
      ∃ chars, .feed chars ∈ history ∧ ∃ c ∈ chars, c = '\x1b' ∨ c = '\x03') ∧
    ∀ history', AlikeFor k history history' →
      let h' := (idle holdFrames).after history'
      h'.remaining.get k = h.remaining.get k ∧ h'.poll.1.get k = h.poll.1.get k := by
  refine ⟨poll_down_iff holdFrames history k, ?_, ?_⟩
  · rw [after_quitRequested_iff]
    simp [idle]
  · intro history' alike h'
    have agree : Agree k _ h' := Agree.after ⟨rfl, rfl⟩ alike
    exact ⟨agree.remaining, by rw [poll_down, poll_down, agree.remaining]⟩

/-- A key that is held for two polls is typed again after the first of three. -/
theorem held_since_typed_again :
    let history : List Event := [.feed ['q'], .poll, .feed ['Q'], .poll]
    let history' : List Event :=
      [.feed ['w', 'Q'], .feed ['q'], .poll, .feed ['q', '\x1b', 'W'], .poll, .feed ['?']]
    let h := (idle 2).after history
    let h' := (idle 2).after history'
    AlikeFor 4 history history' ∧ h.poll.1.get 4 = true ∧ h'.poll.1.get 4 = true ∧
      h'.quitRequested = true ∧ ((idle 2).after (history ++ [.poll])).poll.1.get 4 ≠ true := by
  intro history history' h h'
  have alike : AlikeFor 4 history history' := by
    refine ⟨?_, .cons ?_ (.cons ?_ .nil)⟩ <;> decide +kernel
  obtain ⟨down, -, independent⟩ := held_since_typed 2 history 4
  obtain ⟨-, quits, -⟩ := held_since_typed 2 history' 4
  have last : LastTyped 4 1 history :=
    ⟨[.feed ['q'], .poll], ['Q'], [.poll], rfl, by decide +kernel, by simp, rfl⟩
  have reported := down.mpr ⟨1, last, by decide⟩
  refine ⟨alike, reported, (independent history' alike).2.trans reported, quits.mpr ?_, ?_⟩
  · exact ⟨['q', '\x1b', 'W'], by decide, '\x1b', by decide, .inl rfl⟩
  · decide +kernel

end HeldKeys
end Chip8
