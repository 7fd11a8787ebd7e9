import Chip8.Proofs.PanelLines

/-!
# What the statistics account for

The statistics divide the same entries twice, by rank and by category, and each of the two divisions has
every entry once (`Panel.statistics_account`): the lines that are listed and the one for the rest add up
to the total, and so do the lines of the categories.
-/

-- powers and the empty sum are those of the number types themselves, and a written exponent tells its
-- type for that
attribute [local instance (high)] instPowNat
attribute [local instance (high)] Zero.ofOfNat0

namespace Chip8

/-! ## Categories -/

namespace Category

/-- The mnemonics of a category; the last one has the names that no other category has. -/
def mnemonics : Category → List String
  | flow => ["NOP", "JP", "JP.V0", "CALL", "RET", "SE", "SNE", "SE.V", "SNE.V"]
  | alu => ["LD", "ADD", "RND", "LD.V", "OR", "AND", "XOR", "ADD.V", "SUB", "SHR", "SUBN", "SHL"]
  | memory => ["LD.I", "ADD.I", "LD.F", "BCD", "STORE", "LOAD"]
  | display => ["CLS", "DRW"]
  | io => ["SKP", "SKNP", "LD.K", "LD.DT", "SET.DT", "SET.ST"]
  | other => []

/-- A name belongs to the category that has it among its mnemonics, and to the last one if none has. -/
def Has (c : Category) (name : String) : Prop :=
  match c with
  | other => ∀ known : Category, name ∉ known.mnemonics
  | known => name ∈ known.mnemonics

theorem ofMnemonic_of_mem {c : Category} {name : String} (h : name ∈ c.mnemonics) :
    ofMnemonic name = c := by
  have listed : ∀ c ∈ all, ∀ name ∈ c.mnemonics, ofMnemonic name = c := by decide
  exact listed c (by cases c <;> decide) name h

theorem mnemonic_mem (op : Operation) : op.mnemonic ∈ (ofOperation op).mnemonics := by
  cases op with
  | alu op => cases op <;> decide
  | _ => decide

theorem mem_of_ofMnemonic {c : Category} {name : String} (known : c ≠ other)
    (h : ofMnemonic name = c) : name ∈ c.mnemonics := by
  unfold ofMnemonic at h
  split at h
  · rename_i op found
    have named := List.find?_some found
    rw [← eq_of_beq named, ← h]
    exact mnemonic_mem op
  · exact absurd h.symm known

theorem ofMnemonic_eq_iff {c : Category} {name : String} : ofMnemonic name = c ↔ c.Has name := by
  cases c
  case other =>
    constructor
    · intro unknown known mem
      obtain rfl : known = other := (ofMnemonic_of_mem mem).symm.trans unknown
      exact absurd mem List.not_mem_nil
    · intro unlisted
      by_contra known
      exact unlisted _ (mem_of_ofMnemonic known rfl)
  all_goals exact ⟨mem_of_ofMnemonic (by decide), ofMnemonic_of_mem⟩

instance (c : Category) (name : String) : Decidable (c.Has name) := decidable_of_iff _ ofMnemonic_eq_iff

end Category

namespace Panel

/-! ## Order -/

/-- The same entries by falling count, those of equal count in their old order. -/
structure ByCount (entries sorted : List Entry) : Prop where
  perm : sorted.Perm entries
  falling : sorted.Pairwise fun e e' => e'.2 ≤ e.2
  stable : ∀ count, sorted.filter (·.2 = count) = entries.filter (·.2 = count)

theorem byCount_ranked (entries : List Entry) : ByCount entries (ranked entries) := by
  have trans (a b c : Entry) : decide (b.2 ≤ a.2) = true → decide (c.2 ≤ b.2) = true →
      decide (c.2 ≤ a.2) = true := by
    simp only [decide_eq_true_eq]
    omega
  have total (a b : Entry) : (decide (b.2 ≤ a.2) || decide (a.2 ≤ b.2)) = true := by
    simp only [Bool.or_eq_true, decide_eq_true_eq]
    omega
  have perm : (ranked entries).Perm entries := List.mergeSort_perm _ _
  refine ⟨perm, ?_, ?_⟩
  · exact (List.pairwise_mergeSort trans total entries).imp of_decide_eq_true
  · intro count
    -- the entries of this count are in order before the sort, so the sort keeps theirs
    have level : (entries.filter (·.2 = count)).Pairwise fun a b => decide (b.2 ≤ a.2) = true := by
      refine List.pairwise_of_forall_mem_list fun a ha b hb => ?_
      have first := of_decide_eq_true (List.mem_filter.mp ha).2
      have second := of_decide_eq_true (List.mem_filter.mp hb).2
      exact decide_eq_true (by omega)
    have kept : (entries.filter (·.2 = count)).Sublist (ranked entries) :=
      List.sublist_mergeSort trans total level List.filter_sublist
    have inside := kept.filter (·.2 = count)
    rw [List.filter_filter] at inside
    simp only [Bool.and_self] at inside
    exact (inside.eq_of_length (perm.filter _).length_eq.symm).symm

/-- The first entries up to a limit; a limit below zero counts back from the end. -/
def upTo (limit : Int) (entries : List Entry) : List Entry :=
  entries.take (if limit < 0 then entries.length - limit.natAbs else limit.toNat)

theorem length_upTo (limit : Int) (entries : List Entry) :
    (upTo limit entries).length =
      min (if limit < 0 then entries.length - limit.natAbs else limit.toNat) entries.length :=
  List.length_take

theorem listed_eq (entries : List Entry) (limit : Int) :
    (rankingOf entries limit).listed = upTo limit (ranked entries) := by
  show (ranked entries).take _ = (ranked entries).take _
  congr 1
  unfold listedCount
  split
  · omega
  · rfl

/-- Nothing is listed twice or left out: the rest has what is not listed. -/
theorem totalOf_listed_add_rest (entries : List Entry) (limit : Int) :
    totalOf (rankingOf entries limit).listed + totalOf (rankingOf entries limit).rest =
      totalOf entries := by
  have divided : (rankingOf entries limit).listed ++ (rankingOf entries limit).rest = ranked entries :=
    List.take_append_drop ..
  rw [← totalOf_perm (byCount_ranked entries).perm, ← divided]
  simp only [totalOf, List.map_append, List.sum_append]

/-- Where no limit cuts the entries, there is no rest. -/
theorem rest_eq_nil {entries : List Entry} {limit : Int} (h : ¬ limit < entries.length) :
    (rankingOf entries limit).rest = [] := by
  show (ranked entries).drop (listedCount (ranked entries).length limit) = []
  have length := length_ranked entries
  rw [List.drop_eq_nil_iff, listedCount, if_neg (by omega)]
  omega

/-! ## Sums over categories -/

theorem entriesIn_eq (c : Category) (entries : List Entry) :
    entriesIn c entries = entries.filter fun e => c.Has e.1 := by
  unfold entriesIn
  simp only [Category.ofMnemonic_eq_iff]

theorem categoryTotals_eq (entries : List Entry) :
    categoryTotals entries =
      (Category.all.filter fun c => entriesIn c entries ≠ []).map
        fun c => (c, totalOf (entriesIn c entries)) := by
  unfold categoryTotals
  induction Category.all with
  | nil => rfl
  | cons c rest ih => cases h : entriesIn c entries <;> simp [h, ih]

theorem mem_categoryTotals {entries : List Entry} {c : Category} {n : Int} :
    (c, n) ∈ categoryTotals entries ↔
      (∃ e ∈ entries, c.Has e.1) ∧ n = totalOf (entries.filter fun e => c.Has e.1) := by
  have every : c ∈ Category.all := by cases c <;> decide
  have filled : entries.filter (fun e => c.Has e.1) ≠ [] ↔ ∃ e ∈ entries, c.Has e.1 := by simp
  rw [categoryTotals_eq, List.mem_map, ← filled]
  simp only [List.mem_filter, decide_eq_true_eq, Prod.mk.injEq, entriesIn_eq]
  constructor
  · rintro ⟨_, ⟨-, some_entry⟩, rfl, rfl⟩
    exact ⟨some_entry, rfl⟩
  · rintro ⟨some_entry, rfl⟩
    exact ⟨c, ⟨every, some_entry⟩, rfl, rfl⟩

/-- The categories are shown in their order, and none of them twice. -/
theorem categories_sublist (entries : List Entry) :
    ((categoryTotals entries).map (·.1)).Sublist Category.all := by
  rw [categoryTotals_eq, List.map_map]
  exact (List.map_id _).symm ▸ List.filter_sublist

/-- An entry is of one category, so it counts once. -/
theorem sum_categories (entries : List Entry) :
    (Category.all.map fun c => totalOf (entriesIn c entries)).sum = totalOf entries := by
  induction entries with
  | nil => rfl
  | cons e rest ih =>
    have own (c : Category) : totalOf (entriesIn c (e :: rest)) =
        (if Category.ofMnemonic e.1 = c then e.2 else 0) + totalOf (entriesIn c rest) := by
      unfold entriesIn
      rw [List.filter_cons]
      by_cases h : Category.ofMnemonic e.1 = c <;> simp [h, totalOf_cons]
    simp only [own, totalOf_cons, ← ih]
    cases Category.ofMnemonic e.1 <;> simp [Category.all] <;> omega

theorem sum_categoryTotals (entries : List Entry) :
    ((categoryTotals entries).map (·.2)).sum = totalOf entries := by
  rw [categoryTotals_eq, List.map_map, ← sum_categories]
  induction Category.all with
  | nil => rfl
  | cons c rest ih =>
    have none_counted : totalOf [] = 0 := rfl
    by_cases h : entriesIn c entries = [] <;> simp [h, ← ih, none_counted]

/-! ## Lines -/

/-- The line of an entry: its name filled up to a width, its count, and its share of a total. -/
def ShowsEntry (width : Nat) (total : Int) (e : Entry) (line : String) : Prop :=
  ∃ share, percentage e.2 total = .ok share ∧
    line = String.ofList (Numeral.padRight width e.1.toList) ++ " " ++ decimalGrouped 8 e.2 ++
      " (" ++ String.ofList (Numeral.padLeft 5 (share.fixed 1)) ++ "%)"

/-- The line of a category: its name, its count, and its share of a total. -/
def ShowsCategory (total : Int) (c : Category × Int) (line : String) : Prop :=
  ∃ share, percentage c.2 total = .ok share ∧
    line = c.1.label ++ ": " ++ decimalGrouped 0 c.2 ++ " (" ++ String.ofList (share.fixed 0) ++ "%)"

theorem yields_decimalGrouped (width : Nat) (count : Int) :
    Yields (countText width count) (· = decimalGrouped width count) := by
  unfold countText
  split
  · exact yields_ok rfl
  · exact yields_error _

theorem yields_showsEntry (width : Nat) (total : Int) (e : Entry) :
    Yields (entryLine width total e) (ShowsEntry width total e) := by
  refine yields_bind (fun _ hs => hs) fun share hs => ?_
  refine yields_bind (yields_decimalGrouped 8 e.2) fun count hc => yields_ok ?_
  exact ⟨share, hs, by rw [hc]⟩

theorem yields_showsCategory (total : Int) (c : Category × Int) :
    Yields (categoryLine total c) (ShowsCategory total c) := by
  refine yields_bind (fun _ hs => hs) fun share hs => ?_
  refine yields_bind (yields_decimalGrouped 0 c.2) fun count hc => yields_ok ?_
  exact ⟨share, hs, by rw [hc]⟩

/-- What is computed for one element after another belongs to them in their order. -/
theorem yields_forall₂ {ε α β : Type} {f : α → Except ε β} {r : α → β → Prop} {l : List α}
    (h : ∀ a, Yields (f a) (r a)) : Yields (l.mapM f) (List.Forall₂ r l) := by
  induction l with
  | nil => exact yields_ok .nil
  | cons a rest ih =>
    rw [List.mapM_cons]
    refine yields_bind (h a) fun b hb => ?_
    exact yields_bind ih fun bs hbs => yields_ok (.cons hb hbs)

/-! ## The table -/

/-- What the lines of the statistics tell. -/
structure Table where
  total : Int
  /-- The entries that are listed one by one. -/
  listed : List Entry
  /-- The count of the line for the rest, if there is one. -/
  rest : Option Int
  categories : List (Category × Int)

/-- A table tells of all entries once by rank and once by category. -/
structure Table.AccountsFor (t : Table) (entries : List Entry) (limit : Int) : Prop where
  total_eq : t.total = totalOf entries
  listed_eq : ∃ sorted, ByCount entries sorted ∧ t.listed = upTo limit sorted
  rest_iff : t.rest.isSome ↔ limit < entries.length
  listed_add_rest : totalOf t.listed + t.rest.getD 0 = t.total
  /-- A category is told of if some entry has it, with the sum of its entries. -/
  mem_categories : ∀ c n, (c, n) ∈ t.categories ↔
    (∃ e ∈ entries, c.Has e.1) ∧ n = totalOf (entries.filter fun e => c.Has e.1)
  categories_ordered : (t.categories.map (·.1)).Sublist Category.all
  categories_total : (t.categories.map (·.2)).sum = t.total

/-- How a table is written: the total, the listed entries with their names filled up to the longest of
them, the rest under the name of three dots, and behind an empty line the categories. -/
def Table.Written (t : Table) (lines : List String) : Prop :=
  ∃ width top bottom,
    lines = ("Total: " ++ decimalGrouped 0 t.total) :: top ++ "" :: bottom ∧
    (∃ e ∈ t.listed, e.1.length = width) ∧ (∀ e ∈ t.listed, e.1.length ≤ width) ∧
    List.Forall₂ (ShowsEntry width t.total) (t.listed ++ t.rest.toList.map ("...", ·)) top ∧
    List.Forall₂ (ShowsCategory t.total) t.categories bottom

/-- The table of the statistics. -/
def tableOf (entries : List Entry) (limit : Int) : Table where
  total := totalOf entries
  listed := (rankingOf entries limit).listed
  rest := if limit < entries.length then some (totalOf (rankingOf entries limit).rest) else none
  categories := categoryTotals entries

theorem tableOf_accountsFor (entries : List Entry) (limit : Int) :
    (tableOf entries limit).AccountsFor entries limit where
  total_eq := rfl
  listed_eq := ⟨ranked entries, byCount_ranked entries, listed_eq entries limit⟩
  rest_iff := by
    unfold tableOf
    split <;> simp_all
  listed_add_rest := by
    have whole := totalOf_listed_add_rest entries limit
    unfold tableOf
    split
    · exact whole
    · rename_i all_listed
      rw [rest_eq_nil all_listed] at whole
      exact whole
  mem_categories _ _ := mem_categoryTotals
  categories_ordered := categories_sublist entries
  categories_total := sum_categoryTotals entries

theorem tableOf_written {entries : List Entry} {limit : Int} (counts : ∀ e ∈ entries, 0 ≤ e.2)
    (positive : 0 < totalOf entries) (written : Numeral.isWritable (totalOf entries) = true)
    (shown : (rankingOf entries limit).listed ≠ []) :
    ∃ lines, (tableOf entries limit).Written lines ∧ statisticsLines entries limit = .ok lines := by
  obtain ⟨width, top, bottom, longest, listed, categories, lines⟩ :=
    statisticsLines_ok counts positive written shown
  refine ⟨_, ⟨width, top, bottom, rfl, ?_⟩, lines⟩
  rw [List.max?_eq_some_iff, List.forall_mem_map, List.mem_map] at longest
  refine ⟨longest.1, longest.2, ?_, yields_forall₂ (yields_showsCategory _) _ categories⟩
  have rest : restEntry entries limit = (tableOf entries limit).rest.toList.map ("...", ·) := by
    unfold restEntry tableOf
    split <;> rfl
  rw [← rest]
  exact yields_forall₂ (yields_showsEntry width _) _ listed

/-- **The statistics account for every execution once.** A table of counts with a positive total of which
an entry is listed is shown with all its executions in two divisions. By rank: the entries up to the limit
in the order of falling counts, those of equal count in their old order, and a line for the rest, if the
limit leaves any. By category: a line for each category that an entry has, in the order of the
categories. Either of the two adds up to the total in the first line. There is no such text only if the
total has more digits than a number is written with. -/
theorem statistics_account {entries : List Entry} {limit : Int} (counts : ∀ e ∈ entries, 0 ≤ e.2)
    (positive : 0 < totalOf entries) (shown : upTo limit entries ≠ []) :
    (totalOf entries < (10 ^ Numeral.decimalLimit : Nat) ∧
      ∃ t : Table, t.AccountsFor entries limit ∧
        ∃ lines, t.Written lines ∧ statisticsText entries limit = .ok ("\n".intercalate lines)) ∨
    ((10 ^ Numeral.decimalLimit : Nat) ≤ totalOf entries ∧
      statisticsText entries limit = .error .unwritable) := by
  rcases Int.lt_or_le (totalOf entries) (10 ^ Numeral.decimalLimit : Nat) with short | long
  · have written : Numeral.isWritable (totalOf entries) = true := decide_eq_true (by omega)
    have listed : (rankingOf entries limit).listed ≠ [] := by
      apply List.ne_nil_of_length_pos
      rw [listed_eq, length_upTo, length_ranked, ← length_upTo]
      exact List.length_pos_of_ne_nil shown
    obtain ⟨lines, shows, drawn⟩ := tableOf_written counts positive written listed
    refine .inl ⟨short, _, tableOf_accountsFor entries limit, lines, shows, ?_⟩
    rw [statisticsText, drawn]
  · have unwritten : Numeral.isWritable (totalOf entries) = false := decide_eq_false (by omega)
    exact .inr ⟨long, statisticsText_unwritable limit unwritten⟩

/-- Three entries of four are listed: of the two with equal counts the first one before the other, and
behind them none of what was never executed. -/
theorem statistics_account_ties :
    let entries : List Entry := [("JP", 3), ("RND", 0), ("DRW", 5), ("LD", 3)]
    (∀ e ∈ entries, 0 ≤ e.2) ∧ 0 < totalOf entries ∧ upTo (-1) entries ≠ [] ∧
      ∃ t : Table, t.AccountsFor entries (-1) ∧
        ∃ lines, t.Written lines ∧ statisticsText entries (-1) = .ok ("\n".intercalate lines) := by
  intro entries
  have counts : ∀ e ∈ entries, 0 ≤ e.2 := by decide
  have positive : 0 < totalOf entries := by decide
  have shown : upTo (-1) entries ≠ [] := by decide
  refine ⟨counts, positive, shown, ?_⟩
  rcases statistics_account counts positive shown with ⟨-, account⟩ | ⟨long, -⟩
  · exact account
  · have short : 10 ^ 2 ≤ 10 ^ Numeral.decimalLimit := Nat.pow_le_pow_right (by decide) (by decide)
    have total : totalOf entries = 11 := rfl
    omega

theorem unwritable_of_tenfold {n : Nat} (h : 10 ^ Numeral.decimalLimit = 10 * n) :
    let entries : List Entry := [("JP", (9 * n : Nat)), ("LD", n)]
    (entries.map (·.1)).Nodup ∧ (∀ e ∈ entries, 0 ≤ e.2) ∧ 0 < totalOf entries ∧
      upTo 8 entries ≠ [] ∧ ¬ ∃ text, statisticsText entries 8 = .ok text := by
  intro entries
  have total : totalOf entries = (9 * n : Nat) + ((n : Int) + 0) := rfl
  have positive : 0 < 10 ^ Numeral.decimalLimit := Nat.pow_pos (by decide)
  refine ⟨by simp [entries], ?_, by omega, by simp [entries, upTo], ?_⟩
  · intro e mem
    simp only [entries, List.mem_cons, List.not_mem_nil, or_false] at mem
    rcases mem with rfl | rfl <;> exact Int.natCast_nonneg _
  have unwritten : Numeral.isWritable (totalOf entries) = false := decide_eq_false (by omega)
  rintro ⟨text, drawn⟩
  rw [statisticsText_unwritable 8 unwritten] at drawn
  exact absurd drawn (by simp)

/-- Two counts of 4300 digits can be written, but their total of 4301 digits cannot, and there are no
statistics. -/
theorem statistics_of_unwritable_total :
    let entries : List Entry := [("JP", (9 * 10 ^ (4299 : Nat) : Nat)), ("LD", (10 ^ (4299 : Nat) : Nat))]
    (entries.map (·.1)).Nodup ∧ (∀ e ∈ entries, 0 ≤ e.2) ∧ 0 < totalOf entries ∧
      upTo 8 entries ≠ [] ∧ ¬ ∃ text, statisticsText entries 8 = .ok text := by
  -- the exponent stays a variable here, for a power this large is not to be computed
  have tenfold (k : Nat) (h : Numeral.decimalLimit = k + 1) :
      10 ^ Numeral.decimalLimit = 10 * 10 ^ k := by rw [h, Nat.pow_succ']
  have unwritten := unwritable_of_tenfold (tenfold 4299 rfl)
  exact unwritten

end Panel
end Chip8
