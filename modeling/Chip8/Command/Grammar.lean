import Chip8.Text.DecimalDigit
import Chip8.Text.Quoted

/-!
# Command-line grammar

Divides arguments into options and positional arguments. An option is written out or shortened to
a start that fits no other option; its value follows it, or is attached by `=`; options of one
letter without a value can be joined, also by `=`. After `--` everything is positional, and a value
that is just `--` counts as none. A scan gives the options and positional arguments in the order in
which they take effect, up to the first error.
-/

namespace Chip8.Command

/-- An option with all its names; `key` tells what it is for. -/
structure OptionSpec (κ : Type) where
  key : κ
  names : List String
  takesValue : Bool
  deriving Repr, DecidableEq

/-- What a grammar's positional argument takes. -/
inductive Positional where
  /-- One argument. -/
  | single
  /-- All arguments from the first one on, options too. -/
  | remainder
  deriving Repr, DecidableEq

/-- The options and the positional argument of a command. -/
structure Grammar (κ : Type) where
  options : List (OptionSpec κ)
  positional : Positional
  deriving Repr, DecidableEq

/-- An argument read as an option: its name, and the text attached to the name if there is one. -/
structure OptionUse (κ : Type) where
  spec : OptionSpec κ
  name : List Char
  attached : Option (List Char)
  deriving Repr, DecidableEq

/-- What an argument is by its form. -/
inductive Form (κ : Type) where
  | positional
  | known (use : OptionUse κ)
  | unknown
  /-- The marker `--`. -/
  | marker
  deriving Repr, DecidableEq

/-- An argument with its form. -/
structure Token (κ : Type) where
  text : String
  form : Form κ
  deriving Repr, DecidableEq

/-- Why a scan stopped. -/
inductive ScanError (κ : Type) where
  /-- A shortened option fits several names. -/
  | ambiguous (text : String) (names : List String)
  /-- An option's value is missing. -/
  | missingValue (spec : OptionSpec κ)
  /-- A text is attached to an option that takes none. -/
  | unusedText (spec : OptionSpec κ) (text : String)
  deriving Repr, DecidableEq

variable {κ : Type}

/-- How messages name an option: by all its names. -/
def OptionSpec.title (spec : OptionSpec κ) : String := "/".intercalate spec.names

/-- The message about an argument. -/
def aboutArgument (title what : String) : String := "argument " ++ title ++ ": " ++ what

/-- The text shown to the user. -/
def ScanError.message : ScanError κ → String
  | .ambiguous text names =>
    "ambiguous option: " ++ text ++ " could match " ++ ", ".intercalate names
  | .missingValue spec => aboutArgument spec.title "expected one argument"
  | .unusedText spec text =>
    aboutArgument spec.title ("ignored explicit argument " ++ quoted text)

/-! ## The form of an argument -/

/-- All names with their options, in the order in which the options were declared. -/
def Grammar.names (g : Grammar κ) : List (List Char × OptionSpec κ) :=
  g.options.flatMap fun spec => spec.names.map fun name => (name.toList, spec)

/-- The option of a name. -/
def Grammar.spec? (g : Grammar κ) (name : List Char) : Option (OptionSpec κ) := g.names.lookup name

/-- The text before the first `=`, and the text behind it if there is one. -/
def cutAtEquals (text : List Char) : List Char × Option (List Char) :=
  match text.span (· != '=') with
  | (before, []) => (before, none)
  | (before, _ :: behind) => (before, some behind)

/-- Whether a text is a negative number in decimal notation, up to one line end behind it. -/
def looksNegative (text : List Char) : Bool :=
  let body := if text.getLast? = some '\n' then text.dropLast else text
  let isDigit := fun c => (decimalDigit? c).isSome
  match body with
  | '-' :: rest =>
    match rest.span isDigit with
    | (whole, []) => !whole.isEmpty
    | (_, '.' :: places) => !places.isEmpty && places.all isDigit
    | _ => false
  | _ => false

/-- The options that a text can be a short form of. A text of one dash also counts as a letter with
a text attached. -/
def Grammar.candidates (g : Grammar κ) (text : List Char) : List (OptionUse κ) :=
  match text with
  | '-' :: '-' :: _ =>
    let (start, behind) := cutAtEquals text
    (g.names.filter fun (name, _) => start.isPrefixOf name).map fun (name, spec) =>
      ⟨spec, name, behind⟩
  | _ =>
    g.names.filterMap fun (name, spec) =>
      if name = text.take 2 then some ⟨spec, name, some (text.drop 2)⟩
      else if text.isPrefixOf name then some ⟨spec, name, none⟩
      else none

/-- The option that a name with an attached value stands for. -/
def Grammar.withValue? (g : Grammar κ) (text : List Char) : Option (OptionUse κ) :=
  match cutAtEquals text with
  | (_, none) => none
  | (name, some value) => (g.spec? name).map fun spec => ⟨spec, name, some value⟩

/-- The form of an argument before the marker. -/
def Grammar.form (g : Grammar κ) (text : String) : Except (ScanError κ) (Form κ) :=
  let chars := text.toList
  match chars with
  | '-' :: _ :: _ =>
    if chars = ['-', '-'] then .ok .marker
    else
      match g.spec? chars with
      | some spec => .ok (.known ⟨spec, chars, none⟩)
      | none =>
        match g.withValue? chars with
        | some use => .ok (.known use)
        | none =>
          match g.candidates chars with
          | [use] => .ok (.known use)
          | [] => .ok (if looksNegative chars || chars.contains ' ' then .positional else .unknown)
          | uses => .error (.ambiguous text (uses.map fun use => String.ofList use.name))
  | _ => .ok .positional

/-- The forms of all arguments. After the marker all are positional. -/
def Grammar.tokens (g : Grammar κ) : List String → Except (ScanError κ) (List (Token κ))
  | [] => .ok []
  | text :: rest =>
    match g.form text with
    | .error e => .error e
    | .ok .marker => .ok (⟨text, .marker⟩ :: rest.map fun t => ⟨t, .positional⟩)
    | .ok form =>
      match g.tokens rest with
      | .error e => .error e
      | .ok tokens => .ok (⟨text, form⟩ :: tokens)

/-! ## The scan -/

/-- Something that takes effect. -/
inductive Action (κ : Type) where
  /-- An option with its value. One that takes a value has none if the marker was attached to it. -/
  | option (spec : OptionSpec κ) (value : Option String)
  | positional (texts : List String)
  deriving Repr, DecidableEq

/-- What a scan gives: the actions in order, the arguments that nothing takes, and the error that
ended it. -/
structure Scan (κ : Type) where
  actions : List (Action κ)
  extras : List String
  error : Option (ScanError κ)
  deriving Repr, DecidableEq

/-- Puts an action before a scan. -/
def Scan.act (a : Action κ) (s : Scan κ) : Scan κ := { s with actions := a :: s.actions }

/-- Puts arguments that nothing takes before a scan. -/
def Scan.leave (texts : List String) (s : Scan κ) : Scan κ := { s with extras := texts ++ s.extras }

/-- A scan that ends with an error. -/
def Scan.failed (e : ScanError κ) : Scan κ := ⟨[], [], some e⟩

/-- What an option's argument comes to: its options with their values. `awaits` is the option whose
value is the next argument. -/
structure Cluster (κ : Type) where
  uses : List (OptionSpec κ × Option String)
  awaits : Option (OptionSpec κ)
  deriving Repr, DecidableEq

/-- Puts an option before a cluster. -/
def Cluster.use (spec : OptionSpec κ) (value : Option String) (c : Cluster κ) : Cluster κ :=
  { c with uses := (spec, value) :: c.uses }

/-- A name of one dash and one letter. -/
def isShort (name : List Char) : Bool := (name.drop 1).head? != some '-'

/-- The value that an attached text stands for: the marker is dropped. -/
def attachedValue (text : List Char) : Option String :=
  if text = ['-', '-'] then none else some (String.ofList text)

/-- Reads an option without an attached text. -/
def Cluster.plain (spec : OptionSpec κ) : Cluster κ :=
  if spec.takesValue then ⟨[], some spec⟩ else ⟨[(spec, none)], none⟩

/-- Reads an option and the text attached to its name. A letter without a value is followed by
further letters, and every one of them has to be an option. -/
def Grammar.clusterFrom (g : Grammar κ) (spec : OptionSpec κ) (short : Bool) :
    List Char → Except (ScanError κ) (Cluster κ)
  | [] =>
    if spec.takesValue then .ok ⟨[(spec, some "")], none⟩ else .error (.unusedText spec "")
  | letter :: rest =>
    if spec.takesValue then .ok ⟨[(spec, attachedValue (letter :: rest))], none⟩
    else
      match if short then g.spec? ['-', letter] else none with
      | none => .error (.unusedText spec (String.ofList (letter :: rest)))
      | some next =>
        match if rest.isEmpty then .ok (.plain next) else g.clusterFrom next true rest with
        | .error e => .error e
        | .ok c => .ok (c.use spec none)

/-- Reads the options in one argument. -/
def Grammar.cluster (g : Grammar κ) (u : OptionUse κ) : Except (ScanError κ) (Cluster κ) :=
  match u.attached with
  | none => .ok (.plain u.spec)
  | some text => g.clusterFrom u.spec (isShort u.name) text

/-- Whether an argument is an option by its form. -/
def Token.isOption (t : Token κ) : Bool :=
  match t.form with
  | .known _ | .unknown => true
  | _ => false

/-- Whether an argument is the marker. -/
def Token.isMarker (t : Token κ) : Bool :=
  match t.form with
  | .marker => true
  | _ => false

/-- Divides the arguments at the end of what a positional argument takes, if it can take some: the
markers around one argument belong to it. -/
def Positional.take? (p : Positional) (tokens : List (Token κ)) :
    Option (List (Token κ) × List (Token κ)) :=
  let (markers, rest) := tokens.span Token.isMarker
  match rest with
  | [] => none
  | first :: rest =>
    if first.isOption then none
    else
      match p with
      | .remainder => some (tokens, [])
      | .single =>
        let (after, rest) := rest.span Token.isMarker
        some (markers ++ first :: after, rest)

/-- The texts that a positional argument gets; one that takes a single argument gets no marker. -/
def Positional.texts (p : Positional) (taken : List (Token κ)) : List String :=
  match p with
  | .remainder => taken.map Token.text
  | .single => (taken.filter fun t => !t.isMarker).map Token.text

/-- Scans arguments. `pending` tells that the positional argument has not been taken; every turn
takes at least one argument, and `fuel` is the number of arguments. -/
def Grammar.scanFrom (g : Grammar κ) : Nat → Bool → List (Token κ) → Scan κ
  | 0, _, _ => ⟨[], [], none⟩
  | _, _, [] => ⟨[], [], none⟩
  | fuel + 1, pending, t :: rest =>
    match t.form with
    | .unknown => (g.scanFrom fuel pending rest).leave [t.text]
    | .known use =>
      match g.cluster use with
      | .error e => .failed e
      | .ok c =>
        let act := fun s => c.uses.foldr (fun (spec, value) s => s.act (.option spec value)) s
        match c.awaits with
        | none => act (g.scanFrom fuel pending rest)
        | some spec =>
          match rest with
          | ⟨value, .positional⟩ :: rest =>
            act ((g.scanFrom fuel pending rest).act (.option spec (some value)))
          | _ => .failed (.missingValue spec)
    | _ =>
      match if pending then g.positional.take? (t :: rest) else none with
      | some (taken, rest) =>
        (g.scanFrom fuel false rest).act (.positional (g.positional.texts taken))
      | none =>
        let (skipped, rest) := (t :: rest).span fun t => !t.isOption
        (g.scanFrom fuel pending rest).leave (skipped.map Token.text)

/-- Scans arguments. An argument of ambiguous form is an error before anything takes effect. -/
def Grammar.scan (g : Grammar κ) (args : List String) : Scan κ :=
  match g.tokens args with
  | .error e => .failed e
  | .ok tokens => g.scanFrom tokens.length true tokens

end Chip8.Command
