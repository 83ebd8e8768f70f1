import Chip8.CommandLine.Program
import Chip8.Disassembly

namespace Chip8.CommandLine

/-- What a user may choose for a listing. -/
structure ListingChoices where
  /-- Where the first byte of the file is loaded. -/
  loadAddress : Word := 0x200
  /-- How many bytes at the start of the file are left out. -/
  offset : Nat := 0

namespace ListingChoices

def switches : List (Switch ListingChoices) := [
  ⟨"help", 'h', "Show this text", .help⟩,
  ⟨"loadaddr", 'l', "Load address in hexadecimal (200)", .value fun text choices => do
    return { choices with loadAddress := UInt16.ofNat (← readNumber 16 0xffff text) }⟩,
  ⟨"offset", 'o', "Bytes to leave out (0)", .value fun text choices => do
    return { choices with offset := ← readNumber 10 countLimit text }⟩]

/-- The lines for the content of a file. An offset past the end leaves nothing to list. -/
def listing (choices : ListingChoices) (content : List Byte) : List String :=
  let start := min choices.offset content.length
  Palette.coloured.listing (choices.loadAddress + UInt16.ofNat start) (content.drop start)

end ListingChoices

/-- Lists a file. A file that cannot be read is reported in record notation. -/
def listFile (choices : ListingChoices) (content : FileContent) : Outcome :=
  match content with
  | .error failure => ⟨1, "", "Error: IoError(" ++ failure.description ++ ")\n"⟩
  | .ok bytes => ⟨0, lines (choices.listing bytes), ""⟩

def listingProgram : Program ListingChoices where
  name := "chirp-disasm"
  switches := ListingChoices.switches
  defaults := {}
  perform := listFile

end Chip8.CommandLine
