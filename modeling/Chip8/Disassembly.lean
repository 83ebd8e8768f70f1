import Chip8.Instruction.Decode
import Chip8.Instruction.Text
import Chip8.Text.Ink

namespace Chip8

/-- The colours of a disassembly. -/
structure Palette where
  /-- For words that spell an instruction. -/
  known : Ink
  /-- For all other words. -/
  unknown : Ink
deriving DecidableEq

namespace Palette

def plain : Palette := ⟨.plain, .plain⟩

def coloured : Palette := ⟨.green, .boldRed⟩

/-- One word as a line of assembly. A word that spells no instruction is shown in hexadecimal. -/
def word (palette : Palette) (word : Word) : String :=
  match Instruction.decode word with
  | some instruction => palette.known.paint instruction.text
  | none => palette.unknown.paint (Column.left 7 "inval" ++ Numeral.hex 4 word.toNat)

/-- A line of a listing: where the word stands, what it says, and the word itself. -/
def listingLine (palette : Palette) (address content : Word) : String :=
  Numeral.hex 3 address.toNat ++ ": " ++ palette.word content ++ " " ++
    Ink.dim.paint (Numeral.hex 4 content.toNat)

/-- One line for each two bytes, the first pair standing at `base`. A single byte at the end is left out. -/
def listing (palette : Palette) (base : Word) : List Byte → List String
  | high :: low :: rest =>
    palette.listingLine base (Word.ofBytes high low) :: palette.listing (base + 2) rest
  | _ => []

end Palette

end Chip8
