import Chip8.Command.Outcome

/-!
# The program

Carries out the command line with the files of the system, and prints what the command leaves behind.
The terminal cannot be switched to reading single keys from here, so playing ends as it does when
standard input is no terminal. The console is a plain one: it shows no styles, and markup as it stands.
-/

-- powers are those of the number types themselves
attribute [local instance (high)] instPowNat

namespace Chip8.Program

/-- The refusal of a number. The system may answer the number as a negative one of 32 bits. -/
def numberedError (code : UInt32) (words : String) : FileError :=
  match if code < 0x80000000 then code else 0 - code with
  | 2 => .notFound
  | 20 => .notADirectory
  | 21 => .isADirectory
  | 36 => .nameTooLong
  | n => .other n.toNat words

/-- Why the system refused a file. -/
def fileErrorOf : IO.Error → FileError
  | .noFileOrDirectory _ _ _ => .notFound
  | .inappropriateType _ code words => numberedError code words
  | .invalidArgument _ code words => numberedError code words
  | .permissionDenied _ code words => numberedError code words
  | .resourceExhausted _ code words => numberedError code words
  | e => .other 5 (toString e)

/-- The bytes of a file. -/
def bytesAt (path : String) : IO (Except AccessError ByteArray) := do
  if path.toList.contains (Char.ofNat 0) then return .error .badPath
  try return .ok (← IO.FS.readBinFile path)
  catch e => return .error (.refused (fileErrorOf e))

/-- The files of the system. The size of a file is counted here. -/
def files : FileSystem IO where
  size path := return (← bytesAt path).map fun bytes => UInt64.ofNat bytes.size
  content path := return (← bytesAt path).map ByteArray.toList

/-- The random bytes of this program: the top byte of the `n`th state of a counter, scrambled by two
rounds of multiply and shift. They are its own. The machine takes any source, and only asks it for a byte
each time, so other programs that run it draw other bytes for the same seed. -/
def scrambled (seed : UInt64) : RandomSource where
  sequence := fun n =>
    let z := seed + 0x9E3779B97F4A7C15 * (UInt64.ofNat n + 1)
    let z := (z ^^^ (z >>> 30)) * 0xBF58476D1CE4E5B9
    let z := (z ^^^ (z >>> 27)) * 0x94D049BB133111EB
    (z >>> 56).toUInt8
  drawn := 0

/-- The random bytes of a run: those of the seed, or others each time if there is none. -/
def randomFor : Option Int → IO RandomSource
  | some seed => return scrambled (UInt64.ofInt seed)
  | none => return scrambled (UInt64.ofNat (← IO.rand 0 (2 ^ (62 : Nat))))

/-- Prints on the console. -/
def display : Command.Printout → IO Unit
  | .lines texts => texts.forM IO.println
  | .styled _ text => IO.println text
  | .markup text => IO.println text

/-- Prints what a command leaves behind, and answers the exit code. -/
def finish (o : Command.Outcome) : IO UInt32 := do
  o.printed.forM display
  o.errors.forM IO.eprintln
  return UInt32.ofNat o.code

/-- Tells why a command came to no outcome, and answers the exit code. -/
def giveUp : Command.Breakdown → IO UInt32
  | .badPath => finish (.failure "embedded null byte")
  | .blank _ => finish (.failure "an option has no value")
  | .unloadable fault => finish (.failure fault.message)
  | .unwritableRate => finish (.failure "the clock rate is too long to be logged")
  | .clock _ => finish (.failure "the clock rate is too large")
  | .unwritable printed => do
    printed.forM display
    finish (.failure "a count is too long to be written")

/-- Carries out a command line, and answers the exit code. -/
def run (args : List String) : IO UInt32 := do
  match ← Command.perform files randomFor args with
  | .ok outcome => finish outcome
  | .error breakdown => giveUp breakdown

end Chip8.Program

/-- The program. -/
def main (args : List String) : IO UInt32 := Chip8.Program.run args
