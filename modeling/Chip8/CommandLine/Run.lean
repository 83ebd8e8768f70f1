import Chip8.CommandLine.Program
import Chip8.Screen.Picture
import Chip8.Session

namespace Chip8.CommandLine

/-- What a user may choose for a run. -/
structure RunChoices where
  tracing : Bool := false
  cycles : Nat := 1000
  /-- Keys held during the whole run, in the order in which they were given. -/
  keys : List Nat := []
  preset : Preset := .chip8
  /-- Points of dialect chosen beside those of the preset. -/
  extras : Dialect := {}

namespace RunChoices

def settings (choices : RunChoices) : Settings where
  tracing := choices.tracing
  dialect := choices.preset.dialect.union choices.extras

def switches : List (Switch RunChoices) := [
  ⟨"help", 'h', "Show this text", .help⟩,
  ⟨"debug", 'd', "Show every instruction before it runs",
    .flag fun choices => { choices with tracing := true }⟩,
  ⟨"cycles", 'C', "How many steps to take (1000)", .value fun text choices => do
    return { choices with cycles := ← readNumber 10 countLimit text }⟩,
  ⟨"key", 'k', "Hold a key, 0 to f; may be repeated", .value fun text choices => do
    return { choices with keys := choices.keys ++ [← readNumber 16 countLimit text] }⟩,
  ⟨"mode", 'm', "Take a dialect by its name", .value fun text choices => do
    return { choices with preset := ← (Preset.ofName text).mapError Error.message }⟩,
  ⟨"vfreset", 'z', "Bitwise operations clear vF",
    .flag fun choices => { choices with extras.clearsFlag := true }⟩,
  ⟨"shift", 'v', "Shifts read their second register",
    .flag fun choices => { choices with extras.shiftsSecond := true }⟩,
  ⟨"memory", 'c', "Block transfers move the index",
    .flag fun choices => { choices with extras.advancesIndex := true }⟩,
  ⟨"jumping", 'b', "Indexed jumps add the register their address names",
    .flag fun choices => { choices with extras.jumpsByDigit := true }⟩,
  ⟨"clip", 'w', "Sprites end at the edges of the screen",
    .flag fun choices => { choices with extras.clipsSprites := true }⟩]

end RunChoices

/-- Holds a key for the rest of the session. -/
def holdKey (session : Session) (key : Nat) : Except Error Session :=
  if key < 16 then .ok (session.withMachine (session.machine.setKey key true).1)
  else .error (.noSuchKey key)

/-- The session before its first step. The file is looked at before the keys. -/
def prepare (choices : RunChoices) (content : FileContent) : Except Error Session := do
  let loaded ← (Session.ofMachine (.new choices.settings)).loadFile content
  choices.keys.foldlM holdKey loaded

/-- What is shown of a machine after its run. -/
def closingReport (machine : Machine) : String :=
  machine.screen.braille ++ machine.dump ++
    lines (if machine.timers.beeping then [Ink.brightYellow.paint "BEEP"] else []) ++
    lines (if machine.settings.waiting then [Ink.dim.paint "Waiting for a key press"] else []) ++
    lines (machine.faults.faults.map fun fault => Ink.red.paint fault.message)

/-- Runs a file. Nothing is printed unless the file can be loaded and all the keys exist. -/
def runFile (noise : Noise) (choices : RunChoices) (content : FileContent) : Outcome :=
  match prepare choices content with
  | .error error => ⟨1, "", Ink.alarm error.message ++ "\n"⟩
  | .ok session =>
    let final := session.run noise choices.cycles
    ⟨0, lines final.printed.toList ++ closingReport final.machine,
      lines (final.alerts.toList.map Session.alertText)⟩

def runProgram (noise : Noise) : Program RunChoices where
  name := "chirp-run"
  switches := RunChoices.switches
  defaults := {}
  perform := runFile noise

end Chip8.CommandLine
