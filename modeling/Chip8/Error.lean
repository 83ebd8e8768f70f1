import Chip8.File

namespace Chip8

/-- Why a request of the host was refused. -/
inductive Error where
  | oversizeProgram (length limit : Nat)
  | noSuchKey (key : Nat)
  | unknownPreset (name : String)
  | unreadable (failure : ReadFailure)
deriving DecidableEq

def Error.message : Error → String
  | .oversizeProgram length limit =>
    "rom is " ++ Numeral.decimal 1 length ++ " bytes, but program space only holds "
      ++ Numeral.decimal 1 limit
  | .noSuchKey key => "tried to press key " ++ Numeral.upperHex key ++ " which does not exist"
  | .unknownPreset name => "no suitable conversion of \"" ++ name ++ "\" into Mode"
  | .unreadable failure => failure.message

/-- A pattern for hosts that do not ask why a file could not be read. -/
@[match_pattern] abbrev Error.missingFile {failure : ReadFailure} : Error :=
  .unreadable failure

end Chip8
