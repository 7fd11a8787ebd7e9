import Chip8.Machine.State

/-!
# Well-formed machines

The states that a machine reaches by itself. The registers, the memory cells and the keys have
their ranges by their types; what remains are the sizes of the containers and the ranges of the
numbers that a host could assign freely.
-/

namespace Chip8.Machine

/-- The bound of the program counter: behind a taken skip it is at most four above the last word,
and the largest jump is to `FFF` plus the largest register value. -/
def pcLimit : Int := 4350

/-- A state that a machine reaches by itself. The index fits in sixteen bits, and return addresses
are at most the size of memory, for a call needs its own word in memory. -/
structure WellFormed (m : Machine) : Prop where
  memory_size : m.memory.size = memorySize
  display_width : m.display.width = screenWidth
  display_height : m.display.height = screenHeight
  pixels_size : m.display.pixels.size = screenWidth * screenHeight
  capacity_eq : m.stack.capacity = stackSize
  slots_size : m.stack.slots.size = stackSize
  slots_le : ∀ a ∈ m.stack.slots, a.toNat ≤ memorySize
  pointer_le : m.stack.pointer ≤ stackSize
  pc_nonneg : 0 ≤ m.pc
  pc_le : m.pc ≤ pcLimit
  index_nonneg : 0 ≤ m.index
  index_le : m.index ≤ 0xFFFF
  delay_nonneg : 0 ≤ m.delayTimer
  delay_le : m.delayTimer ≤ 0xFF
  sound_nonneg : 0 ≤ m.soundTimer
  sound_le : m.soundTimer ≤ 0xFF

/-- The ranges of the parts that have them by their types. -/
structure InRange (m : Machine) : Prop where
  registers_length : m.registers.toList.length = 16
  registers_le : ∀ v ∈ m.registers.toList, v.toNat ≤ 0xFF
  bytes_le : ∀ b ∈ m.memory.bytes, b.toNat ≤ 0xFF
  keys_length : m.keys.toList.length = 16
  keysSeen_length : m.keysSeen.toList.length = 16
  waiting_le : ∀ r, m.waiting = some r → r.val ≤ 0xF

/-- The containers have the sizes with which a machine is built. -/
structure Sized (m : Machine) : Prop where
  memory_size : m.memory.size = memorySize
  display_width : m.display.width = screenWidth
  display_height : m.display.height = screenHeight
  pixels_size : m.display.pixels.size = screenWidth * screenHeight
  capacity_eq : m.stack.capacity = stackSize

theorem WellFormed.sized {m : Machine} (h : m.WellFormed) : m.Sized := { h with }

/-- Clearing every part in its place leaves nothing of what was there before. -/
theorem Sized.reset_eq {m : Machine} (h : m.Sized) : m.reset = powerOn m.dialect m.random := by
  have memory : m.memory.clear.put Font.address Font.bytes = initialMemory := by
    rw [Memory.clear, h.memory_size, initialMemory]
  have stack : m.stack.clear = .empty stackSize := by
    rw [CallStack.clear, h.capacity_eq]
  have display : m.display.clear = .blank screenWidth screenHeight := by
    simp only [Display.clear, Array.map_const', h.pixels_size, h.display_width, h.display_height]
    rfl
  rw [reset, memory, stack, display]
  rfl

/-- The font lies within the memory, so it takes the place of as many zeros. -/
theorem font_inBounds : (Memory.zeroed memorySize).InBounds Font.address Font.bytes.length := by
  rw [Memory.InBounds, Memory.size_zeroed]
  decide

@[simp] theorem size_initialMemory : initialMemory.size = memorySize := by
  rw [initialMemory, Memory.size_put font_inBounds, Memory.size_zeroed]

/-- A program that is not too large lies within the memory. -/
theorem program_inBounds {memory : Memory} (size : memory.size = memorySize) {program : List UInt8}
    (fits : program.length ≤ programCapacity) :
    memory.InBounds programStart program.length := by
  unfold programCapacity memorySize programStart at fits
  rw [Memory.InBounds, size]
  unfold memorySize programStart
  omega

/-- A machine that was just switched on is well-formed. -/
theorem powerOn_wellFormed (dialect : Dialect) (random : RandomSource) :
    (powerOn dialect random).WellFormed := by
  constructor <;> simp [powerOn, memorySize, stackSize, screenWidth, screenHeight,
    Display.blank, CallStack.empty, programStart, pcLimit]

/-- What a machine was before does not matter to what is loaded into it. -/
theorem Sized.load_eq {m : Machine} (h : m.Sized) (program : List UInt8) :
    m.load program = (powerOn m.dialect m.random).load program := by
  have fresh := (powerOn_wellFormed m.dialect m.random).sized.reset_eq
  rw [powerOn_dialect, powerOn_random] at fresh
  rw [load, load, h.reset_eq, fresh]

end Chip8.Machine
