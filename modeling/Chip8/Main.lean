import Chip8.CommandLine.Disassemble
import Chip8.CommandLine.Run

/-! The first argument names the program, the others are its own. -/

namespace Chip8.CommandLine

/-- An error of the system keeps its number and its text. -/
def readFailure : IO.Error → ReadFailure
  | .alreadyExists _ code text | .invalidArgument _ code text | .permissionDenied _ code text
  | .resourceExhausted _ code text | .inappropriateType _ code text | .noSuchThing _ code text
  | .interrupted _ code text | .noFileOrDirectory _ code text
  | .otherError code text | .resourceBusy code text | .resourceVanished code text
  | .unsupportedOperation code text | .hardwareFault code text | .unsatisfiedConstraints code text
  | .illegalOperation code text | .protocolError code text | .timeExpired code text =>
    .ofSystem code.toNat text
  | .unexpectedEof => .ofText "UnexpectedEof" "unexpected end of file"
  | .userError text => .ofText "Other" text

/-- The content of a file, or why it cannot be read. -/
def readFile (name : String) : IO FileContent := do
  try
    let content ← IO.FS.withFile name .read fun handle => handle.readBinToEnd
    return .ok content.toList
  catch error =>
    return .error (readFailure error)

/-- Writes what a program has to say, and returns its exit code. -/
def emit (outcome : Outcome) : IO UInt32 := do
  IO.print outcome.output
  IO.eprint outcome.errors
  return UInt32.ofNat outcome.code

def launch {Choices : Type} (program : Program Choices) (arguments : List String) : IO UInt32 := do
  let content ← match program.file? arguments with
    | none => pure (.error .notFound)
    | some name => readFile name
  emit (program.outcome (fun _ => content) arguments)

end Chip8.CommandLine

open Chip8 CommandLine

def main (arguments : List String) : IO UInt32 := do
  match arguments with
  | "chirp-run" :: rest =>
    let seed ← IO.rand 0 countLimit
    launch (runProgram (Noise.ofSeed (UInt64.ofNat seed))) rest
  | "chirp-disasm" :: rest => launch listingProgram rest
  | _ => emit ⟨2, "", "expected chirp-run or chirp-disasm\n"⟩
