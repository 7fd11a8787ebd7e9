import Chip8.Clock
import Chip8.Command.Grammar
import Chip8.Dialect
import Chip8.Number.Literal

/-!
# Command line of the virtual machine

The two commands with their options, what a correct command line asks for, and the texts of help
and of usage errors.
-/

namespace Chip8.Command

/-- What an option is for. -/
inductive Setting where
  | help
  | rate
  | dialect
  | seed
  | verbose
  | frames
  deriving Repr, DecidableEq

/-- The two commands. -/
inductive Mode where
  /-- Play in the terminal. -/
  | play
  /-- Run without input and show the final state. -/
  | headless
  deriving Repr, DecidableEq

/-- The name of a command. -/
def Mode.name : Mode → String
  | .play => "run"
  | .headless => "headless"

/-- The command of a name. -/
def Mode.ofName? (name : String) : Option Mode :=
  [Mode.play, Mode.headless].find? fun mode => mode.name == name

/-- The option that shows help. -/
def helpOption : OptionSpec Setting := ⟨.help, ["-h", "--help"], false⟩

/-- The options of a command, as they are declared. -/
def optionsOf (mode : Mode) : List (OptionSpec Setting) :=
  [ helpOption,
    ⟨.rate, ["--hz"], true⟩,
    ⟨.dialect, ["--quirk"], true⟩,
    ⟨.seed, ["--seed"], true⟩,
    ⟨.verbose, ["-v", "--verbose"], false⟩ ] ++
  match mode with
  | .play => []
  | .headless => [⟨.frames, ["--frames"], true⟩]

/-- The grammar before the command: its name takes all that follows it. -/
def topGrammar : Grammar Setting := ⟨[helpOption], .remainder⟩

/-- The grammar of a command: one program image and the options. -/
def grammarOf (mode : Mode) : Grammar Setting := ⟨optionsOf mode, .single⟩

/-- What a command line asks for. -/
structure Request where
  mode : Mode
  /-- The path of the program image. -/
  rom : String
  /-- Instructions per second. -/
  rate : Int
  dialect : Dialect
  /-- What the random bytes start from. -/
  seed : Option Int
  verbose : Bool
  /-- How many frames a headless run has. -/
  frames : Int
  /-- The settings that were given without a value. -/
  blank : List Setting
  deriving Repr, DecidableEq

/-- Why an option's value is refused. -/
inductive ValueError where
  | notAnInteger (text : String)
  /-- The number is not positive; the text is the one that was read. -/
  | notPositive (value : Int) (text : String)
  | badSeed (text : String)
  /-- The text is none of the choices. -/
  | unknownChoice (text : String) (choices : List String)
  deriving Repr, DecidableEq

/-- Why a command line is refused. -/
inductive UsageError where
  | scan (cause : ScanError Setting)
  /-- The value of the argument with this title is refused. -/
  | value (title : String) (cause : ValueError)
  /-- The program image is missing. -/
  | missingRom
  /-- Nothing takes these arguments. -/
  | unrecognized (texts : List String)

/-- The text of a refused value. A number too long to be written out in decimal is told by the text
it was read from. -/
def ValueError.message : ValueError → String
  | .notAnInteger text => "invalid integer '" ++ text ++ "'"
  | .notPositive value text =>
    if Numeral.isWritable value then "must be positive, got " ++ decimal value
    else "invalid _positive_int value: " ++ quoted text
  | .badSeed text => "invalid int value: " ++ quoted text
  | .unknownChoice text choices =>
    "invalid choice: " ++ quoted text ++ " (choose from " ++
      ", ".intercalate (choices.map quoted) ++ ")"

/-- The text of a refused command line. -/
def UsageError.message : UsageError → String
  | .scan cause => cause.message
  | .value title cause => aboutArgument title cause.message
  | .missingRom => "the following arguments are required: rom"
  | .unrecognized texts => "unrecognized arguments: " ++ " ".intercalate texts

/-- Why there is nothing to run. -/
inductive Stop where
  /-- The user asked for help, about a command if one is given. -/
  | help (mode : Option Mode)
  /-- No command was given. -/
  | noCommand
  /-- The command line is refused, by a command if one is given. -/
  | refused (mode : Option Mode) (cause : UsageError)

/-! ## Reading the arguments of a command -/

/-- What the arguments of a command gave so far. -/
structure Draft where
  rom : Option String
  rate : Int
  dialect : Dialect
  seed : Option Int
  verbose : Bool
  frames : Int
  /-- The settings that were given without a value. -/
  blank : List Setting
  deriving Repr, DecidableEq

/-- The frames of a headless run, unless told otherwise. -/
def defaultFrames : Int := 60

/-- What holds without any argument. -/
def Draft.initial : Draft :=
  ⟨none, FrameClock.defaultCpuRate, .modern, none, false, defaultFrames, []⟩

/-- Notes that a setting was given without a value. -/
def Draft.leaveBlank (d : Draft) (setting : Setting) : Draft :=
  { d with blank := setting :: d.blank }

/-- Notes that a setting was given a value, which replaces the one before. -/
def Draft.fill (d : Draft) (setting : Setting) : Draft :=
  { d with blank := d.blank.filter (· ≠ setting) }

/-- A positive integer. -/
def readPositive (text : String) : Except ValueError Int :=
  match readInteger? text with
  | none => .error (.notAnInteger text)
  | some v => if 0 < v then .ok v else .error (.notPositive v text)

/-- Sets an option that takes a value. The dialect collects all its values. -/
def Draft.setValue (d : Draft) (setting : Setting) (text : String) : Except ValueError Draft :=
  match setting with
  | .rate => (readPositive text).map fun v => { d.fill .rate with rate := v }
  | .frames => (readPositive text).map fun v => { d.fill .frames with frames := v }
  | .dialect =>
    match Dialect.Switch.ofName? text with
    | some s => .ok { d with dialect := d.dialect.enable s }
    | none => .error (.unknownChoice text (Dialect.Switch.all.map Dialect.Switch.name))
  | .seed =>
    match readDecimal? text with
    | some v => .ok { d.fill .seed with seed := some v }
    | none => .error (.badSeed text)
  | .help | .verbose => .ok d

/-- Lets the actions of a command's scan take effect, in order. -/
def Draft.act (mode : Mode) (d : Draft) : Action Setting → Except Stop Draft
  | .positional texts => .ok { d with rom := texts.head? }
  | .option spec (some text) =>
    match d.setValue spec.key text with
    | .ok d => .ok d
    | .error e => .error (.refused (some mode) (.value spec.title e))
  | .option spec none =>
    match spec.key with
    | .help => .error (.help (some mode))
    | .verbose => .ok { d with verbose := true }
    | setting => .ok (d.leaveBlank setting)

/-- Reads the arguments of a command. Answers the request with the arguments that nothing takes. -/
def parseMode (mode : Mode) (args : List String) : Except Stop (Request × List String) :=
  let scan := (grammarOf mode).scan args
  match scan.actions.foldlM (Draft.act mode) Draft.initial with
  | .error stop => .error stop
  | .ok d =>
    match scan.error with
    | some e => .error (.refused (some mode) (.scan e))
    | none =>
      match d.rom with
      | none => .error (.refused (some mode) .missingRom)
      | some rom =>
        .ok (⟨mode, rom, d.rate, d.dialect, d.seed, d.verbose, d.frames, d.blank⟩, scan.extras)

/-! ## Reading a command line -/

/-- Lets an action before the command take effect: help, or the command with all its arguments. -/
def actTop (_ : Option (Request × List String)) :
    Action Setting → Except Stop (Option (Request × List String))
  | .option _ _ => .error (.help none)
  | .positional [] => .ok none
  | .positional (name :: args) =>
    match Mode.ofName? name with
    | some mode => (parseMode mode args).map some
    | none =>
      .error (.refused none (.value "command"
        (.unknownChoice name ([Mode.play, Mode.headless].map Mode.name))))

/-- Reads a command line. -/
def parse (args : List String) : Except Stop Request :=
  let scan := topGrammar.scan args
  match scan.actions.foldlM actTop none with
  | .error stop => .error stop
  | .ok command =>
    match scan.error with
    | some e => .error (.refused none (.scan e))
    | none =>
      let extras := scan.extras ++ (command.map (·.2)).getD []
      match extras, command with
      | [], none => .error .noCommand
      | [], some (request, _) => .ok request
      | texts, _ => .error (.refused none (.unrecognized texts))

/-! ## Help -/

/-- The name of the program. -/
def programName : String := "chip8-vm"

/-- The name under which a command reports. -/
def titleOf : Option Mode → String
  | none => programName
  | some mode => programName ++ " " ++ mode.name

/-- The help about the program. -/
def topHelp : List String :=
  [ "usage: chip8-vm [-h] \x7brun,headless\x7d ...",
    "",
    "CHIP-8 virtual machine",
    "",
    "positional arguments:",
    "  \x7brun,headless\x7d",
    "    run           Play a ROM in the terminal",
    "    headless      Run a ROM without input and print the final screen",
    "",
    "options:",
    "  -h, --help      show this help message and exit" ]

/-- The help about the arguments that both commands have. -/
def argumentHelp : List String :=
  [ "",
    "positional arguments:",
    "  rom                   Path to a CHIP-8 ROM image",
    "",
    "options:",
    "  -h, --help            show this help message and exit",
    "  --hz HZ               Instructions per second (default 700)",
    "  --quirk \x7blogic-vf,memory-index,shift-vy\x7d",
    "                        Enable an interpreter quirk (repeatable)",
    "  --seed SEED           Seed for the RND instruction",
    "  -v, --verbose         Enable debug logging" ]

/-- The help about a command. -/
def modeHelp : Mode → List String
  | .play =>
    [ "usage: chip8-vm run [-h] [--hz HZ] [--quirk \x7blogic-vf,memory-index,shift-vy\x7d] " ++
        "[--seed SEED] [-v]",
      "                    rom" ] ++ argumentHelp
  | .headless =>
    [ "usage: chip8-vm headless [-h] [--hz HZ] [--quirk \x7blogic-vf,memory-index,shift-vy\x7d] " ++
        "[--seed SEED]",
      "                         [-v] [--frames FRAMES]",
      "                         rom" ] ++ argumentHelp ++
    [ "  --frames FRAMES       Number of 60 Hz frames to run (default 60)" ]

/-- The help about a command, or about the program. -/
def helpFor : Option Mode → List String
  | none => topHelp
  | some mode => modeHelp mode

end Chip8.Command
