import Chip8.Fault
import Chip8.Memory

namespace Chip8

/-- One record of the log. -/
inductive LogRecord where
  | loaded (length : Nat)
  | raised (fault : Fault)
deriving DecidableEq

/-- How urgent a record is. -/
inductive LogLevel where
  | debug
  | warning
deriving DecidableEq

def LogLevel.label : LogLevel → String
  | debug => "DEBUG"
  | warning => "WARN"

namespace LogRecord

def level : LogRecord → LogLevel
  | loaded _ => .debug
  | raised _ => .warning

def message : LogRecord → String
  | loaded length =>
    "loaded " ++ Record.nat length ++ " byte program at " ++ Numeral.hex 3 Memory.programStart
  | raised fault => fault.message

/-- The record as a line, level first. -/
def text (entry : LogRecord) : String :=
  entry.level.label ++ " " ++ entry.message

end LogRecord

end Chip8
