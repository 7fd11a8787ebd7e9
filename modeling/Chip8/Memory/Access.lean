import Chip8.Memory

/-!
# Accesses to a memory

The accesses to a memory as values, so that what a memory goes through is a list of them. An access
that is refused answers its fault and leaves the memory as it was.
-/

namespace Chip8.Memory

/-- An access to a memory. -/
inductive Access where
  | readByte (address : Int)
  | readWord (address : Int)
  | readBlock (address : Int) (length : Nat)
  | writeByte (address value : Int)
  | writeWord (address value : Int)
  | writeBlock (address : Int) (block : List UInt8)
  | clear
  deriving Repr, DecidableEq

/-- What an access answers. -/
inductive Answer where
  | byte (value : UInt8)
  | word (value : UInt16)
  | block (bytes : List UInt8)
  | done
  deriving Repr, DecidableEq

/-- The memory behind a write, and what the write answers. -/
def behindWrite (m : Memory) : Except Fault Memory → Memory × Except Fault Answer
  | .ok m' => (m', .ok .done)
  | .error f => (m, .error f)

/-- Carries out an access. -/
def perform (m : Memory) : Access → Memory × Except Fault Answer
  | .readByte address => (m, (m.readByte address).map .byte)
  | .readWord address => (m, (m.readWord address).map .word)
  | .readBlock address length => (m, (m.readBlock address length).map .block)
  | .writeByte address value => m.behindWrite (m.writeByte address value)
  | .writeWord address value => m.behindWrite (m.writeWord address value)
  | .writeBlock address block => m.behindWrite (m.writeBlock address block)
  | .clear => (m.clear, .ok .done)

/-- The memory after some accesses, whatever was refused on the way. -/
def after (m : Memory) (history : List Access) : Memory :=
  history.foldl (fun m x => (m.perform x).1) m

theorem after_snoc (m : Memory) (history : List Access) (x : Access) :
    m.after (history ++ [x]) = ((m.after history).perform x).1 := by
  rw [after, List.foldl_append]
  rfl

end Chip8.Memory
