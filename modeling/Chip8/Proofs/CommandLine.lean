import Chip8.Command.Outcome
import Chip8.Proofs.Literals
import Mathlib.Data.List.TakeDrop

/-!
# Command lines of a headless run

A command line that names a program image and gives options their values one after another is read as
the request that holds these values: the switches of the dialect collect, and a rate and a number of
frames are positive integers in any form that is read (`Command.parse_headlessLine`). The switches that
are on are those that are named (`Dialect.ofNames_of_known`).
-/

namespace Chip8

namespace Dialect

/-- The names that are known. -/
def switchNames : List String := ["shift-vy", "logic-vf", "memory-index"]

theorem foldlM_enableNamed {names : List String} (known : ∀ name ∈ names, name ∈ switchNames)
    (d : Dialect) :
    names.foldlM enableNamed d = .ok
      ⟨d.shiftsVy || decide ("shift-vy" ∈ names), d.logicClearsFlag || decide ("logic-vf" ∈ names),
        d.transferMovesIndex || decide ("memory-index" ∈ names)⟩ := by
  induction names generalizing d with
  | nil => simp [pure, Except.pure]
  | cons name rest ih =>
    have later := ih fun n hn => known n (List.mem_cons_of_mem name hn)
    have here := known name List.mem_cons_self
    simp only [switchNames, List.mem_cons, List.not_mem_nil, or_false] at here
    rw [List.foldlM_cons]
    rcases here with rfl | rfl | rfl
    · have on : d.enableNamed "shift-vy" = .ok { d with shiftsVy := true } := rfl
      rw [on]
      exact (later _).trans (by simp)
    · have on : d.enableNamed "logic-vf" = .ok { d with logicClearsFlag := true } := rfl
      rw [on]
      exact (later _).trans (by simp)
    · have on : d.enableNamed "memory-index" = .ok { d with transferMovesIndex := true } := rfl
      rw [on]
      exact (later _).trans (by simp)

/-- A switch is on exactly if it is named, however often. -/
theorem ofNames_of_known {names : List String} (known : ∀ name ∈ names, name ∈ switchNames) :
    ofNames names = .ok ⟨decide ("shift-vy" ∈ names), decide ("logic-vf" ∈ names),
      decide ("memory-index" ∈ names)⟩ := by
  rw [ofNames, foldlM_enableNamed known]
  rfl

end Dialect

namespace Command

variable {κ : Type} {g : Grammar κ} {text : String}

/-! ## Forms -/

/-- The text does not begin like an option. -/
def IsPlain (text : String) : Prop := text.toList.head? ≠ some '-'

instance (text : String) : Decidable (IsPlain text) :=
  inferInstanceAs (Decidable (¬ _))

/-- A number that is not negative is written without a sign. -/
theorem plain_decimal {v : Int} (h : 0 ≤ v) : IsPlain (decimal v) := by
  intro minus
  have signed := List.mem_of_head? minus
  rw [decimal, String.toList_ofList, Numeral.zeroPadded, Numeral.sign, if_neg (Int.not_lt.mpr h)] at signed
  simp only [List.nil_append, List.mem_append] at signed
  rcases signed with filled | digit
  · exact absurd (List.eq_of_mem_replicate filled) (by decide)
  · exact Numeral.minus_notMem_ofNat (by decide) (by decide) _ digit

theorem form_of_plain (h : IsPlain text) : g.form text = .ok .positional := by
  rw [IsPlain] at h
  unfold Grammar.form
  extract_lets chars
  change chars.head? ≠ some '-' at h
  clear_value chars
  split
  · exact absurd rfl h
  · rfl

/-- An argument of a form that is not the marker is a token of that form. -/
theorem tokens_cons {form : Form κ} (h : g.form text = .ok form) (no_marker : form ≠ .marker)
    {rest : List String} {tokens : List (Token κ)} (behind : g.tokens rest = .ok tokens) :
    g.tokens (text :: rest) = .ok (⟨text, form⟩ :: tokens) := by
  rw [Grammar.tokens, h]
  cases form with
  | marker => exact absurd rfl no_marker
  | positional | known use | unknown => simp only [behind]

/-! ## Options with their values -/

/-- An option under one of its names, with the text of its value behind it. -/
structure Assignment (κ : Type) where
  spec : OptionSpec κ
  name : String
  value : String

namespace Assignment

/-- The arguments of an assignment. -/
def texts (a : Assignment κ) : List String := [a.name, a.value]

/-- The tokens that these arguments are read as. -/
def tokens (a : Assignment κ) : List (Token κ) :=
  [⟨a.name, .known ⟨a.spec, a.name.toList, none⟩⟩, ⟨a.value, .positional⟩]

/-- What takes effect. -/
def action (a : Assignment κ) : Action κ := .option a.spec (some a.value)

/-- The grammar has the option, which takes a value, under this name, and the value is none itself. -/
structure In (a : Assignment κ) (g : Grammar κ) : Prop where
  known : g.form a.name = .ok (.known ⟨a.spec, a.name.toList, none⟩)
  takes : a.spec.takesValue = true
  plain : IsPlain a.value

end Assignment

theorem tokens_assignments {all : List (Assignment κ)} (known : ∀ a ∈ all, a.In g) :
    g.tokens (all.flatMap Assignment.texts) = .ok (all.flatMap Assignment.tokens) := by
  induction all with
  | nil => rfl
  | cons a rest ih =>
    have here := known a List.mem_cons_self
    have behind := ih fun b hb => known b (List.mem_cons_of_mem a hb)
    exact tokens_cons here.known (by simp)
      (tokens_cons (form_of_plain here.plain) (by simp) behind)

/-- Behind the positional argument, assignments take effect one by one. -/
theorem scanFrom_assignments {all : List (Assignment κ)} (known : ∀ a ∈ all, a.In g) {fuel : Nat}
    (enough : all.length ≤ fuel) :
    g.scanFrom fuel false (all.flatMap Assignment.tokens) = ⟨all.map Assignment.action, [], none⟩ := by
  induction all generalizing fuel with
  | nil => cases fuel <;> rfl
  | cons a rest ih =>
    obtain ⟨fuel, rfl⟩ : ∃ n, fuel = n + 1 := ⟨fuel - 1, by rw [List.length_cons] at enough; omega⟩
    have here := known a List.mem_cons_self
    have behind := ih (fun b hb => known b (List.mem_cons_of_mem a hb))
      (Nat.le_of_succ_le_succ enough)
    have cluster : g.cluster ⟨a.spec, a.name.toList, none⟩ = .ok ⟨[], some a.spec⟩ := by
      rw [Grammar.cluster, Cluster.plain, if_pos here.takes]
    rw [List.flatMap_cons, Assignment.tokens, List.cons_append, List.cons_append, List.nil_append,
      Grammar.scanFrom]
    simp only [cluster, behind]
    rfl

/-- Up to the marker these are all tokens, if none is the marker. -/
theorem span_marker {tokens : List (Token κ)} (unmarked : ∀ t ∈ tokens, t.isMarker = false) :
    tokens.span Token.isMarker = ([], tokens) := by
  cases tokens with
  | nil => rfl
  | cons t rest =>
    have plain := unmarked t List.mem_cons_self
    rw [List.span_eq_takeWhile_dropWhile, List.takeWhile_cons_of_neg (by simp [plain]),
      List.dropWhile_cons_of_neg (by simp [plain])]

/-- The only positional argument is the first token. -/
theorem take?_single {first : String} {tokens : List (Token κ)}
    (unmarked : ∀ t ∈ tokens, t.isMarker = false) :
    Positional.single.take? (⟨first, .positional⟩ :: tokens) =
      some ([⟨first, .positional⟩], tokens) := by
  have all : ∀ t ∈ (⟨first, .positional⟩ : Token κ) :: tokens, t.isMarker = false :=
    List.forall_mem_cons.mpr ⟨rfl, unmarked⟩
  rw [Positional.take?, span_marker all]
  simp only [Token.isOption, span_marker unmarked]
  rfl

/-- A positional argument and assignments are scanned as what they say. -/
theorem scan_assignments (single : g.positional = .single) {first : String} (plain : IsPlain first)
    {all : List (Assignment κ)} (known : ∀ a ∈ all, a.In g) :
    g.scan (first :: all.flatMap Assignment.texts) =
      ⟨.positional [first] :: all.map Assignment.action, [], none⟩ := by
  have tokens := tokens_cons (form_of_plain plain) (by simp) (tokens_assignments known)
  have unmarked : ∀ t ∈ all.flatMap Assignment.tokens, t.isMarker = false := by
    intro t mem
    obtain ⟨a, -, ht⟩ := List.mem_flatMap.mp mem
    rcases List.mem_cons.mp ht with rfl | ht
    · rfl
    · rw [List.mem_singleton.mp ht]
      rfl
  have length : (all.flatMap Assignment.tokens).length = 2 * all.length := by
    simp [Assignment.tokens, List.length_flatMap, List.map_const', Nat.mul_comm]
  rw [Grammar.scan, tokens]
  simp only [List.length_cons, Grammar.scanFrom, single, take?_single unmarked, if_true]
  rw [scanFrom_assignments known (by omega)]
  rfl

/-! ## The command before its arguments -/

/-- Arguments whose forms are known, and none the marker, have tokens of their texts. -/
theorem tokens_of_forms {texts : List String}
    (h : ∀ text ∈ texts, ∃ form, g.form text = .ok form ∧ form ≠ .marker) :
    ∃ tokens, g.tokens texts = .ok tokens ∧ tokens.map Token.text = texts := by
  induction texts with
  | nil => exact ⟨[], rfl, rfl⟩
  | cons text rest ih =>
    obtain ⟨form, known, no_marker⟩ := h text List.mem_cons_self
    obtain ⟨tokens, behind, same⟩ := ih fun t ht => h t (List.mem_cons_of_mem text ht)
    exact ⟨_, tokens_cons known no_marker behind, by rw [List.map_cons, same]⟩

/-- What follows the name of a command belongs to it. -/
theorem scan_remainder (all : g.positional = .remainder) {name : String} (plain : IsPlain name)
    {args : List String} (h : ∀ text ∈ args, ∃ form, g.form text = .ok form ∧ form ≠ .marker) :
    g.scan (name :: args) = ⟨[.positional (name :: args)], [], none⟩ := by
  obtain ⟨tokens, behind, same⟩ := tokens_of_forms h
  have read := tokens_cons (form_of_plain plain) (by simp) behind
  have taken : Positional.remainder.take? (⟨name, .positional⟩ :: tokens) =
      some (⟨name, .positional⟩ :: tokens, []) := by
    rw [Positional.take?, List.span_eq_takeWhile_dropWhile,
      List.takeWhile_cons_of_neg (by simp [Token.isMarker]),
      List.dropWhile_cons_of_neg (by simp [Token.isMarker])]
    rfl
  have texts : Positional.remainder.texts (⟨name, .positional⟩ :: tokens) = name :: args := by
    rw [Positional.texts, List.map_cons, same]
  rw [Grammar.scan, read]
  simp only [List.length_cons, Grammar.scanFrom, all, taken, if_true, texts]
  cases tokens <;> rfl

/-! ## A headless run -/

/-- The command line of a headless run: a program image, names of switches, a rate and a number of
frames. -/
def headlessLine (rom : String) (names : List String) (rate frames : String) : List String :=
  "headless" :: rom :: names.flatMap (fun name => ["--quirk", name]) ++
    ["--hz", rate, "--frames", frames]

/-- The option that names a switch of the dialect. -/
def switchOption : OptionSpec Setting := ⟨.dialect, ["--quirk"], true⟩

/-- The option that tells the rate. -/
def rateOption : OptionSpec Setting := ⟨.rate, ["--hz"], true⟩

/-- The option that tells the number of frames. -/
def framesOption : OptionSpec Setting := ⟨.frames, ["--frames"], true⟩

/-- The assignments on such a command line. -/
def headlessAssignments (names : List String) (rate frames : String) : List (Assignment Setting) :=
  names.map (fun name => ⟨switchOption, "--quirk", name⟩) ++
    [⟨rateOption, "--hz", rate⟩, ⟨framesOption, "--frames", frames⟩]

theorem headlessLine_eq (rom : String) (names : List String) (rate frames : String) :
    headlessLine rom names rate frames =
      "headless" :: rom :: (headlessAssignments names rate frames).flatMap Assignment.texts := by
  rw [headlessLine, headlessAssignments, List.flatMap_append, List.flatMap_map]
  rfl

/-- The name of a switch begins no option. -/
theorem plain_of_switch {name : String} {switch : Dialect.Switch}
    (h : Dialect.Switch.ofName? name = some switch) : IsPlain name := by
  have named := List.find?_some h
  rw [beq_iff_eq] at named
  rw [← named]
  cases switch <;> exact (by decide)

theorem enableNamed_eq_ok {d d' : Dialect} {name : String} (h : d.enableNamed name = .ok d') :
    ∃ switch, Dialect.Switch.ofName? name = some switch ∧ d' = d.enable switch := by
  unfold Dialect.enableNamed at h
  split at h
  · rename_i switch found
    exact ⟨switch, found, (Except.ok.inj h).symm⟩
  · exact absurd h (by simp)

/-- Switches that are named one after another take effect one after another. -/
theorem act_switches (mode : Mode) (draft : Draft) {names : List String} {dialect : Dialect}
    (known : names.foldlM Dialect.enableNamed draft.dialect = .ok dialect) :
    (∀ name ∈ names, IsPlain name) ∧
    (names.map fun name => Action.option switchOption (some name)).foldlM
      (Draft.act mode) draft = .ok { draft with dialect := dialect } := by
  induction names generalizing draft with
  | nil =>
    rw [List.foldlM_nil] at known
    exact ⟨by simp, by rw [← Except.ok.inj known]; rfl⟩
  | cons name rest ih =>
    rw [List.foldlM_cons] at known
    cases first : draft.dialect.enableNamed name with
    | error e =>
      rw [first] at known
      exact absurd known (by simp [bind, Except.bind])
    | ok enabled =>
      rw [first] at known
      obtain ⟨switch, found, rfl⟩ := enableNamed_eq_ok first
      obtain ⟨plain, later⟩ := ih { draft with dialect := draft.dialect.enable switch } known
      refine ⟨List.forall_mem_cons.mpr ⟨plain_of_switch found, plain⟩, ?_⟩
      have set : Draft.act mode draft (.option switchOption (some name)) =
          .ok { draft with dialect := draft.dialect.enable switch } := by
        simp only [Draft.act, switchOption, Draft.setValue, found]
      rw [List.map_cons, List.foldlM_cons, set]
      exact later

/-- Before the command nothing is known of its options. -/
theorem form_unknown :
    topGrammar.form "--quirk" = .ok .unknown ∧ topGrammar.form "--hz" = .ok .unknown ∧
      topGrammar.form "--frames" = .ok .unknown :=
  ⟨by rfl, by rfl, by rfl⟩

/-- The options of a headless run under their names. -/
theorem form_known :
    (grammarOf .headless).form "--quirk" =
      .ok (.known ⟨switchOption, "--quirk".toList, none⟩) ∧
    (grammarOf .headless).form "--hz" =
      .ok (.known ⟨rateOption, "--hz".toList, none⟩) ∧
    (grammarOf .headless).form "--frames" =
      .ok (.known ⟨framesOption, "--frames".toList, none⟩) :=
  ⟨by rfl, by rfl, by rfl⟩

/-- The assignments of a headless run are options of its grammar, and of no other before it. -/
theorem headlessAssignments_in {names : List String} {rate frames : String}
    (switches : ∀ name ∈ names, IsPlain name) (plainRate : IsPlain rate) (plainFrames : IsPlain frames) :
    ∀ a ∈ headlessAssignments names rate frames,
      a.In (grammarOf .headless) ∧ topGrammar.form a.name = .ok .unknown := by
  intro a mem
  rcases List.mem_append.mp mem with switch | last
  · obtain ⟨name, named, rfl⟩ := List.mem_map.mp switch
    exact ⟨⟨form_known.1, rfl, switches name named⟩, form_unknown.1⟩
  · simp only [List.mem_cons, List.not_mem_nil, or_false] at last
    rcases last with rfl | rfl
    · exact ⟨⟨form_known.2.1, rfl, plainRate⟩, form_unknown.2.1⟩
    · exact ⟨⟨form_known.2.2, rfl, plainFrames⟩, form_unknown.2.2⟩

section

variable {rom rateText framesText : String} {names : List String} {dialect : Dialect} {rate frames : Int}

theorem foldlM_behind {α β ε : Type} {f : β → α → Except ε β} {front behind : List α} {b b' : β}
    (h : front.foldlM f b = .ok b') : (front ++ behind).foldlM f b = behind.foldlM f b' := by
  rw [List.foldlM_append, h]
  rfl

theorem readPositive_of_pos (read : readInteger? rateText = some rate) (positive : 0 < rate) :
    readPositive rateText = .ok rate := by
  rw [readPositive, read]
  exact if_pos positive

/-- The actions of a headless run up to the number of frames set what the command line tells. -/
theorem act_headless (known : Dialect.ofNames names = .ok dialect)
    (rateRead : readInteger? rateText = some rate) (rate_pos : 0 < rate) (framesText : String) :
    (Action.positional [rom] :: (headlessAssignments names rateText framesText).map
        Assignment.action).foldlM (Draft.act .headless) Draft.initial =
      Draft.act .headless ⟨some rom, rate, dialect, none, false, defaultFrames, []⟩
        (.option framesOption (some framesText)) := by
  let named : Draft := { Draft.initial with rom := some rom }
  let spoken : Draft := { named with dialect := dialect }
  have positional : Draft.act .headless Draft.initial (.positional [rom]) = .ok named := rfl
  have switched := (act_switches .headless named known).2
  have rated : Draft.act .headless spoken (.option rateOption (some rateText)) =
      .ok { spoken with rate := rate } := by
    simp only [Draft.act, rateOption, Draft.setValue, readPositive_of_pos rateRead rate_pos]
    rfl
  have actions : (headlessAssignments names rateText framesText).map Assignment.action =
      (names.map fun name => Action.option switchOption (some name)) ++
        [.option rateOption (some rateText),
          .option framesOption (some framesText)] := by
    rw [headlessAssignments, List.map_append, List.map_map]
    rfl
  rw [actions, List.foldlM_cons, positional]
  show List.foldlM _ named _ = _
  rw [foldlM_behind switched, List.foldlM_cons, rated]
  show (Draft.act .headless _ _ >>= pure) = _
  rw [bind_pure]
  rfl

theorem scan_headlessLine (plain : IsPlain rom) (switches : ∀ name ∈ names, IsPlain name)
    (plainRate : IsPlain rateText) (plainFrames : IsPlain framesText) :
    let args := rom :: (headlessAssignments names rateText framesText).flatMap Assignment.texts
    topGrammar.scan (headlessLine rom names rateText framesText) =
        ⟨[.positional ("headless" :: args)], [], none⟩ ∧
      (grammarOf .headless).scan args =
        ⟨.positional [rom] :: (headlessAssignments names rateText framesText).map Assignment.action,
          [], none⟩ := by
  intro args
  have assignments := headlessAssignments_in switches plainRate plainFrames
  have forms : ∀ text ∈ args, ∃ form, topGrammar.form text = .ok form ∧ form ≠ .marker := by
    intro text mem
    rcases List.mem_cons.mp mem with rfl | mem
    · exact ⟨_, form_of_plain plain, by simp⟩
    · obtain ⟨a, ha, ht⟩ := List.mem_flatMap.mp mem
      rcases List.mem_cons.mp ht with rfl | ht
      · exact ⟨_, (assignments a ha).2, by simp⟩
      · rw [List.mem_singleton.mp ht]
        exact ⟨_, form_of_plain (assignments a ha).1.plain, by simp⟩
  rw [headlessLine_eq]
  exact ⟨scan_remainder rfl (by decide) forms,
    scan_assignments rfl plain fun a ha => (assignments a ha).1⟩

/-- **Reading a command line.** A headless run is asked for with the program image, the dialect, the rate
and the number of frames that the command line tells. -/
theorem parse_headlessLine (plain : IsPlain rom) (known : Dialect.ofNames names = .ok dialect)
    (rateRead : readInteger? rateText = some rate) (rate_pos : 0 < rate)
    (framesRead : readInteger? framesText = some frames) (frames_pos : 0 < frames) :
    parse (headlessLine rom names rateText framesText) =
      .ok ⟨.headless, rom, rate, dialect, none, false, frames, []⟩ := by
  have switches := (act_switches .headless Draft.initial known).1
  obtain ⟨top, scanned⟩ := scan_headlessLine plain switches (Literal.minus_ne_head rateRead rate_pos)
    (Literal.minus_ne_head framesRead frames_pos)
  have command : Mode.ofName? "headless" = some .headless := rfl
  have read : parseMode .headless
      (rom :: (headlessAssignments names rateText framesText).flatMap Assignment.texts) =
      .ok (⟨.headless, rom, rate, dialect, none, false, frames, []⟩, []) := by
    rw [parseMode, scanned]
    simp only [act_headless known rateRead rate_pos, Draft.act, framesOption, Draft.setValue,
      readPositive_of_pos framesRead frames_pos]
    rfl
  rw [parse, top]
  simp only [List.foldlM_cons, List.foldlM_nil, actTop, command, read]
  rfl

/-- A number of frames that cannot be read is refused. -/
theorem parse_unread_frames (plain : IsPlain rom) (known : Dialect.ofNames names = .ok dialect)
    (rateRead : readInteger? rateText = some rate) (rate_pos : 0 < rate)
    (unread : readInteger? framesText = none) (plainFrames : IsPlain framesText) :
    parse (headlessLine rom names rateText framesText) =
      .error (.refused (some .headless) (.value "--frames" (.notAnInteger framesText))) := by
  have switches := (act_switches .headless Draft.initial known).1
  obtain ⟨top, scanned⟩ := scan_headlessLine plain switches (Literal.minus_ne_head rateRead rate_pos)
    plainFrames
  have command : Mode.ofName? "headless" = some .headless := rfl
  have refused : readPositive framesText = .error (.notAnInteger framesText) := by
    rw [readPositive, unread]
  have read : parseMode .headless
      (rom :: (headlessAssignments names rateText framesText).flatMap Assignment.texts) =
      .error (.refused (some .headless) (.value "--frames" (.notAnInteger framesText))) := by
    rw [parseMode, scanned]
    simp only [act_headless known rateRead rate_pos, Draft.act, framesOption, Draft.setValue, refused]
    rfl
  rw [parse, top]
  simp only [List.foldlM_cons, List.foldlM_nil, actTop, command, read]
  rfl

end

end Command
end Chip8
