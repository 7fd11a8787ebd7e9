import Chip8.Machine.State
import Chip8.Text.Quoted

/-!
# Program images

Reading a program from the files of a system. The system is a parameter: it is asked for the size of a
file and for its content, which need not agree. The size is checked first, so the content of a file that
is too large is never asked for.
-/

namespace Chip8

/-- Why the system refuses a file. -/
inductive FileError where
  | notFound
  | notADirectory
  | isADirectory
  | nameTooLong
  /-- Another refusal, with its number and words. -/
  | other (number : Nat) (words : String)
  deriving Repr, DecidableEq

namespace FileError

/-- The number of the error. -/
def number : FileError → Nat
  | notFound => 2
  | notADirectory => 20
  | isADirectory => 21
  | nameTooLong => 36
  | other number _ => number

/-- The words of the error. -/
def words : FileError → String
  | notFound => "No such file or directory"
  | notADirectory => "Not a directory"
  | isADirectory => "Is a directory"
  | nameTooLong => "File name too long"
  | other _ words => words

/-- The text shown to the user, with the path that was refused. -/
def message (e : FileError) (path : String) : String :=
  "[Errno " ++ decimal e.number ++ "] " ++ e.words ++ ": " ++ quoted path

end FileError

/-- Why a system gives nothing at a path. -/
inductive AccessError where
  | refused (cause : FileError)
  /-- The path holds a NUL, so it can name nothing. -/
  | badPath
  deriving Repr, DecidableEq

/-- The files of a system, each asked for by its path. -/
structure FileSystem (m : Type → Type) where
  /-- The number of bytes that the system tells for a file. -/
  size : String → m (Except AccessError UInt64)
  /-- The bytes that are read from a file. -/
  content : String → m (Except AccessError (List UInt8))

/-- A file can be read, and the system tells as many bytes as are read. -/
structure FileSystem.Holds (files : FileSystem Id) (path : String) (content : List UInt8) : Prop where
  size_eq : ∃ size : UInt64, files.size path = .ok size ∧ size.toNat = content.length
  content_eq : files.content path = .ok content

/-- Why a program image was not read. -/
inductive RomError where
  /-- The system gave nothing at this path. -/
  | access (cause : AccessError) (path : String)
  /-- The image is too large to be loaded. -/
  | tooLarge (fault : Fault)
  deriving Repr, DecidableEq

/-- The components of a path without those that stay where they are. -/
def pathParts (path : String) : List String :=
  (path.splitOn "/").filter fun part => part != "" && part != "."

/-- What a path begins with if it begins at the root: one slash, or two if it has exactly two. -/
def pathRoot (path : String) : String :=
  match path.toList with
  | '/' :: '/' :: '/' :: _ => "/"
  | '/' :: '/' :: _ => "//"
  | '/' :: _ => "/"
  | _ => ""

/-- The plain form of a path. -/
def plainPath (path : String) : String :=
  match pathRoot path ++ "/".intercalate (pathParts path) with
  | "" => "."
  | plain => plain

/-- A program image of a given size, unless it is too large to be loaded. -/
def checkSize (size : Nat) : Except RomError Unit :=
  if Machine.programCapacity < size then
    .error (.tooLarge (.programTooLarge size Machine.programCapacity))
  else .ok ()

/-- Reads a program image. -/
def readRom {m : Type → Type} [Monad m] (files : FileSystem m) (path : String) :
    m (Except RomError (List UInt8)) := do
  let plain := plainPath path
  match ← files.size plain with
  | .error e => return .error (.access e plain)
  | .ok size =>
    match checkSize size.toNat with
    | .error e => return .error e
    | .ok () =>
      match ← files.content plain with
      | .error e => return .error (.access e plain)
      | .ok content => return .ok content

end Chip8
