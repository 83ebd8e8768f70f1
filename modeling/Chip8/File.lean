import Chip8.Text.Record
import Chip8.Word

/-! Files as a host finds them: their bytes, or the reason why there are none. -/

namespace Chip8

/-- Why a file could not be read, in the words for a user and in record notation. -/
structure ReadFailure where
  message : String
  description : String
deriving DecidableEq

namespace ReadFailure

/-- The kind of an error of the system. -/
def kindName (code : Nat) : String :=
  match code with
  | 1 | 13 => "PermissionDenied"
  | 2 => "NotFound"
  | 4 => "Interrupted"
  | 11 => "WouldBlock"
  | 12 => "OutOfMemory"
  | 16 => "ResourceBusy"
  | 20 => "NotADirectory"
  | 21 => "IsADirectory"
  | 22 => "InvalidInput"
  | 26 => "ExecutableFileBusy"
  | 27 => "FileTooLarge"
  | 36 => "InvalidFilename"
  | 38 | 95 => "Unsupported"
  | 40 => "FilesystemLoop"
  | 110 => "TimedOut"
  | 116 => "StaleNetworkFileHandle"
  | _ => "Uncategorized"

/-- An error of the system, by its number and its text. -/
def ofSystem (code : Nat) (text : String) : ReadFailure where
  message := text ++ " (os error " ++ Record.nat code ++ ")"
  description := Record.text "Os"
    [("code", Record.nat code), ("kind", kindName code), ("message", "\"" ++ text ++ "\"")]

/-- An error that did not come from the system. -/
def ofText (kind text : String) : ReadFailure where
  message := text
  description := Record.text "Error" [("kind", kind), ("message", "\"" ++ text ++ "\"")]

def notFound : ReadFailure :=
  ofSystem 2 "No such file or directory"

end ReadFailure

/-- What reading a file gives. -/
abbrev FileContent := Except ReadFailure (List Byte)

/-- What every file name gives. -/
abbrev Files := String → FileContent

/-- A file that may not exist. -/
instance : Coe (Option (List Byte)) FileContent where
  coe content := content.elim (.error .notFound) .ok

/-- Files of which some may not exist. -/
instance : Coe (String → Option (List Byte)) Files where
  coe files name := files name

end Chip8
