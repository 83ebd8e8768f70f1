import Chip8.Dialect
import Chip8.Text.Record

/-! What belongs to the run of a machine rather than to the machine. -/

namespace Chip8

/-- The switches that a host may set at any time. -/
structure Settings where
  /-- Every instruction is printed before it runs. -/
  tracing : Bool := false
  /-- The last instruction waits for a key. -/
  waiting : Bool := false
  dialect : Dialect := {}
deriving DecidableEq, Ord

namespace Settings

def toggleTracing (settings : Settings) : Settings :=
  { settings with tracing := !settings.tracing }

/-- The settings in record notation. -/
def describe (settings : Settings) : String :=
  let dialect := settings.dialect
  Record.text "Flags" [
    ("debug", Record.bool settings.tracing),
    ("keypause", Record.bool settings.waiting),
    ("quirks", Record.text "Quirks" [
      ("bin_ops", Record.bool dialect.clearsFlag),
      ("shift", Record.bool dialect.shiftsSecond),
      ("dma_inc", Record.bool dialect.advancesIndex),
      ("jump_vx", Record.bool dialect.jumpsByDigit),
      ("clip", Record.bool dialect.clipsSprites)])]

end Settings

end Chip8
