/-!
# Dialects

Three instruction families behave differently on different interpreters. A dialect fixes each of
them by a switch; with all switches off it is the common modern behaviour.
-/

namespace Chip8

/-- The behaviour of the disputed instruction families. -/
structure Dialect where
  /-- `8xy6` and `8xyE` shift `Vy` into `Vx` instead of shifting `Vx`. -/
  shiftsVy : Bool
  /-- `8xy1`, `8xy2` and `8xy3` clear `VF`. -/
  logicClearsFlag : Bool
  /-- `Fx55` and `Fx65` leave `I` behind the last byte transferred. -/
  transferMovesIndex : Bool
  deriving Repr, DecidableEq

/-- A switch of a dialect, as a user names it. -/
inductive Dialect.Switch where
  | shiftVy
  | logicVf
  | memoryIndex
  deriving Repr, DecidableEq

namespace Dialect

/-- The common modern behaviour. -/
def modern : Dialect := ⟨false, false, false⟩

/-- The name of a switch. -/
def Switch.name : Switch → String
  | .shiftVy => "shift-vy"
  | .logicVf => "logic-vf"
  | .memoryIndex => "memory-index"

/-- All switches in the order of their names. -/
def Switch.all : List Switch := [.logicVf, .memoryIndex, .shiftVy]

/-- The switch of a name. -/
def Switch.ofName? (name : String) : Option Switch := all.find? fun s => s.name == name

/-- Turns a switch on. -/
def enable (d : Dialect) : Switch → Dialect
  | .shiftVy => { d with shiftsVy := true }
  | .logicVf => { d with logicClearsFlag := true }
  | .memoryIndex => { d with transferMovesIndex := true }

/-- A name that no switch has. -/
structure UnknownSwitch where
  name : String
  deriving Repr, DecidableEq

/-- The text shown to the user, with all names that would have been understood. -/
def UnknownSwitch.message (e : UnknownSwitch) : String :=
  "Unknown quirk '" ++ e.name ++ "' (known: " ++
    ", ".intercalate (Switch.all.map Switch.name) ++ ")"

/-- Turns the switch of a name on. -/
def enableNamed (d : Dialect) (name : String) : Except UnknownSwitch Dialect :=
  match Switch.ofName? name with
  | some s => .ok (d.enable s)
  | none => .error ⟨name⟩

/-- The dialect with the named switches on. The first unknown name is refused. -/
def ofNames (names : List String) : Except UnknownSwitch Dialect := names.foldlM enableNamed modern

end Dialect
end Chip8
