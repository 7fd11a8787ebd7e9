import Chip8.Keypad.Held
import Chip8.Keypad.InputStream
import Chip8.Text.Utf8

/-!
# Keys from a terminal

Reads what is waiting on an input stream and holds the keys typed there. The stream is read in
pieces, and each piece is decoded by itself, so a character that a piece boundary cuts is lost.
-/

namespace Chip8

/-- Held keys with the stream on which they are typed. -/
structure TerminalKeys where
  held : HeldKeys
  stream : InputStream
  deriving Repr, DecidableEq

namespace TerminalKeys

/-- The most bytes read at once. -/
def pieceSize : Nat := 64

/-- The refusal to read keys one by one from a stream that is no terminal. -/
def noTerminal : String := "[Errno 25] Inappropriate ioctl for device"

/-- Nothing typed. -/
def idle (holdFrames : Int) : TerminalKeys := ⟨.idle holdFrames, .opened⟩

/-- Bytes arrive on the stream. -/
def receive (t : TerminalKeys) (bytes : List UInt8) : TerminalKeys :=
  { t with stream := t.stream.write bytes }

/-- Nobody types on the stream any more. -/
def close (t : TerminalKeys) : TerminalKeys := { t with stream := t.stream.close }

/-- Takes what is waiting, and answers the keys held now. -/
def poll (t : TerminalKeys) : Keypad × TerminalKeys :=
  let (pieces, stream) := t.stream.drain pieceSize
  let (keys, held) := (t.held.feed (pieces.flatMap Utf8.decode)).poll
  (keys, ⟨held, stream⟩)

end TerminalKeys
end Chip8
