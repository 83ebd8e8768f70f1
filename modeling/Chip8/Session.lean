import Chip8.Log
import Chip8.Machine.Report
import Chip8.Noise

/-! A machine together with all that it has printed and logged. Tracing prints instructions and faults;
faults and loads are logged in any case. -/

namespace Chip8

structure Session where
  machine : Machine
  /-- Lines on standard output, oldest first. -/
  printed : Array String := #[]
  /-- Faults shown on standard error, oldest first. -/
  alerts : Array Fault := #[]
  /-- Records of the log, oldest first. -/
  log : Array LogRecord := #[]

/-- What a host may ask of a session. -/
inductive Request where
  | load (program : List Byte)
  | step (random : Byte)
  | run (count : Nat) (noise : Noise)
  | setKey (key : Nat) (pressed : Bool)
  | setSettings (settings : Settings)
  | takeRedraw
  | takeFaults
  | reset

/-- What a session answers. -/
inductive Reply where
  | done
  | refused (error : Error)
  | flag (value : Bool)
  | faults (taken : List Fault)

namespace Session

def ofMachine (machine : Machine) : Session := { machine }

/-- The same machine with nothing printed and nothing logged. -/
def quiet (session : Session) : Session := ofMachine session.machine

def step (session : Session) (random : Byte) : Session :=
  let machine := session.machine
  let tracing := machine.settings.tracing
  let (stepped, raised) := machine.step random
  { machine := stepped
    printed := if tracing then session.printed.push machine.traceLine else session.printed
    alerts := if tracing then session.alerts ++ raised else session.alerts
    log := session.log ++ raised.map LogRecord.raised }

/-- Takes a number of steps, each with its own byte of the noise. -/
def run (session : Session) (noise : Noise) (count : Nat) : Session :=
  count.fold (fun step _ current => current.step (noise step)) session

/-- Loads a program. One that does not fit changes nothing and is not logged. -/
def load (session : Session) (program : List Byte) : Except Error Session :=
  (session.machine.load program).map fun machine =>
    { session with machine, log := session.log.push (.loaded program.length) }

/-- Loads the content of a file, if the file can be read. -/
def loadFile (session : Session) (content : FileContent) : Except Error Session :=
  match content with
  | .error failure => .error (.unreadable failure)
  | .ok program => session.load program

def withMachine (session : Session) (machine : Machine) : Session :=
  { session with machine }

/-- Carries out one request. -/
def perform (session : Session) : Request → Session × Reply
  | .load program =>
    match session.load program with
    | .ok loaded => (loaded, .done)
    | .error error => (session, .refused error)
  | .step random => (session.step random, .done)
  | .run count noise => (session.run noise count, .done)
  | .setKey key pressed =>
    let (machine, changed) := session.machine.setKey key pressed
    (session.withMachine machine, .flag changed)
  | .setSettings settings => (session.withMachine { session.machine with settings }, .done)
  | .takeRedraw =>
    let (machine, drawn) := session.machine.takeRedraw
    (session.withMachine machine, .flag drawn)
  | .takeFaults =>
    let (machine, taken) := session.machine.takeFaults
    (session.withMachine machine, .faults taken)
  | .reset => (session.withMachine session.machine.reset, .done)

/-- The fault as it is shown on standard error. -/
def alertText (fault : Fault) : String :=
  Ink.alarm fault.message

end Session

end Chip8
