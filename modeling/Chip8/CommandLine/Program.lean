import Chip8.CommandLine.Options
import Chip8.File
import Chip8.Text.Column

namespace Chip8.CommandLine

/-- How a program ended, and what it wrote. -/
structure Outcome where
  code : Nat
  output : String
  errors : String
deriving DecidableEq

/-- A program that can be called with options and a file. -/
structure Program (Choices : Type) where
  name : String
  switches : List (Switch Choices)
  defaults : Choices
  /-- What the program does with the content of its file. -/
  perform : Choices → FileContent → Outcome

namespace Program

variable {Choices : Type}

def invocation (program : Program Choices) (arguments : List String) :
    Except UsageError (Invocation Choices) :=
  read program.switches program.defaults arguments

/-- The file that the program will ask for. -/
def file? (program : Program Choices) (arguments : List String) : Option String :=
  match program.invocation arguments with
  | .ok (.run _ file) => some file
  | _ => none

def helpLine (switch : Switch Choices) : String :=
  "  -" ++ switch.short.toString ++ ", --" ++ Column.left 12 switch.long ++ switch.about ++ "\n"

def helpText (program : Program Choices) : String :=
  "Usage: " ++ program.name ++ " [OPTIONS] FILE\n\n" ++ String.join (program.switches.map helpLine)

/-- The whole run of a program, given what every file holds. -/
def outcome (program : Program Choices) (files : Files) (arguments : List String) : Outcome :=
  match program.invocation arguments with
  | .error error => ⟨2, "", program.name ++ ": " ++ error.message ++ "\n"⟩
  | .ok .help => ⟨0, program.helpText, ""⟩
  | .ok (.run choices file) => program.perform choices (files file)

end Program

/-- Each text on a line of its own. -/
def lines (texts : List String) : String :=
  String.join (texts.map (· ++ "\n"))

/-- The largest count that an option takes. -/
def countLimit : Nat := 0xffffffffffffffff

/-- A text as a number up to a limit, or the reason why it is none. -/
def readNumber (radix limit : Nat) (text : String) : Except String Nat :=
  (Numeral.read radix limit text).mapError Numeral.ReadError.message

end Chip8.CommandLine
