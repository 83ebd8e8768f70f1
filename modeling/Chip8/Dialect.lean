import Chip8.Error

namespace Chip8

/-- How a machine reads the instructions on which interpreters disagree. -/
structure Dialect where
  /-- Bitwise operations set the flag register to zero. -/
  clearsFlag : Bool := false
  /-- Shifts take their operand from the second register. -/
  shiftsSecond : Bool := false
  /-- Block store and block load leave the index past the last byte. -/
  advancesIndex : Bool := false
  /-- Indexed jumps add the register named by the high digit of the address. -/
  jumpsByDigit : Bool := false
  /-- Sprites are cut off at the right and bottom edge. -/
  clipsSprites : Bool := false
deriving DecidableEq, Ord

/-- An interpreter whose dialect has a name. -/
inductive Preset where
  | chip8
  | cosmacVip
  | superChip
deriving DecidableEq, Ord

namespace Dialect

/-- All five points set alike. -/
def uniform (value : Bool) : Dialect :=
  ⟨value, value, value, value, value⟩

/-- Everything that either dialect does. -/
def union (left right : Dialect) : Dialect where
  clearsFlag := left.clearsFlag || right.clearsFlag
  shiftsSecond := left.shiftsSecond || right.shiftsSecond
  advancesIndex := left.advancesIndex || right.advancesIndex
  jumpsByDigit := left.jumpsByDigit || right.jumpsByDigit
  clipsSprites := left.clipsSprites || right.clipsSprites

end Dialect

namespace Preset

def dialect : Preset → Dialect
  | chip8 => {}
  | cosmacVip =>
    { clearsFlag := true, shiftsSecond := true, advancesIndex := true, clipsSprites := true }
  | superChip => { jumpsByDigit := true, clipsSprites := true }

/-- The preset of a name in any mix of cases. No letter of these names is the small form of a letter outside
ASCII, so folding ASCII capitals is enough. -/
def ofName (name : String) : Except Error Preset :=
  match name.toLower with
  | "chip8" | "chip-8" => .ok chip8
  | "vip" | "cosmac" => .ok cosmacVip
  | "schip" | "superchip" => .ok superChip
  | _ => .error (.unknownPreset name)

end Preset

end Chip8
