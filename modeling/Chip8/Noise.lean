import Chip8.Word

namespace Chip8

/-- The random byte of each step, counted from the start of the run. -/
abbrev Noise := Nat → Byte

namespace Noise

/-- Spreads the bits of a counter over a whole word. -/
def mix (value : UInt64) : UInt64 :=
  let first := (value ^^^ (value >>> 30)) * 0xbf58476d1ce4e5b9
  let second := (first ^^^ (first >>> 27)) * 0x94d049bb133111eb
  second ^^^ (second >>> 31)

/-- The noise that follows from a seed. -/
def ofSeed (seed : UInt64) : Noise := fun step =>
  (mix (seed + UInt64.ofNat (step + 1) * 0x9e3779b97f4a7c15) >>> 56).toUInt8

end Noise

end Chip8
