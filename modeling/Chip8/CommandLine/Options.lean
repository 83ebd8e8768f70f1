/-! Command lines. Options stand anywhere before a lone `--`, short ones may share an argument, and a value
is the rest of its argument or the next one, whatever it looks like. -/

namespace Chip8.CommandLine

/-- An option as it was written. -/
inductive OptionName where
  | long (name : String)
  | short (letter : Char)
deriving DecidableEq

def OptionName.text : OptionName → String
  | long name => "--" ++ name
  | short letter => "-" ++ letter.toString

/-- Why a command line was refused. -/
inductive UsageError where
  | unknownOption (option : OptionName)
  | missingValue (option : OptionName)
  | needlessValue (option : OptionName)
  | badValue (option : OptionName) (reason : String)
  | secondFile (text : String)
  | missingFile
deriving DecidableEq

def quoted (text : String) : String :=
  "`" ++ text ++ "`"

def UsageError.message : UsageError → String
  | unknownOption option => "unrecognized option " ++ quoted option.text
  | missingValue option => "missing argument to option " ++ quoted option.text
  | needlessValue option => "option " ++ quoted option.text ++ " does not accept an argument"
  | badValue option reason => "invalid argument to option " ++ quoted option.text ++ ": " ++ reason
  | secondFile text => "unexpected free argument " ++ quoted text
  | missingFile => "missing required free argument"

/-- What an option does to the choices made so far. A value may be refused with a reason. -/
inductive Action (Choices : Type) where
  | help
  | flag (apply : Choices → Choices)
  | value (apply : String → Choices → Except String Choices)

/-- An option under both of its names. -/
structure Switch (Choices : Type) where
  long : String
  short : Char
  about : String
  action : Action Choices

/-- An option that still lacks its value. -/
structure Pending (Choices : Type) where
  option : OptionName
  apply : String → Choices → Except String Choices

/-- What has been read of a command line. -/
structure Progress (Choices : Type) where
  choices : Choices
  help : Bool := false
  file : Option String := none
  pending : Option (Pending Choices) := none

namespace Progress

variable {Choices : Type}

def addFile (progress : Progress Choices) (text : String) : Except UsageError (Progress Choices) :=
  match progress.file with
  | none => .ok { progress with file := some text }
  | some _ => .error (.secondFile text)

def addValue (progress : Progress Choices) (pending : Pending Choices) (text : String) :
    Except UsageError (Progress Choices) :=
  match pending.apply text progress.choices with
  | .ok choices => .ok { progress with choices, pending := none }
  | .error reason => .error (.badValue pending.option reason)

/-- Takes the name of a long option and the value written after the equals sign, if there is one. -/
def addLong (switches : List (Switch Choices)) (progress : Progress Choices) (name : String)
    (value : Option String) : Except UsageError (Progress Choices) :=
  let option := OptionName.long name
  match (switches.find? fun switch => switch.long = name).map Switch.action, value with
  | none, _ => .error (.unknownOption option)
  | some .help, none => .ok { progress with help := true }
  | some (.flag apply), none => .ok { progress with choices := apply progress.choices }
  | some .help, some _ => .error (.needlessValue option)
  | some (.flag _), some _ => .error (.needlessValue option)
  | some (.value apply), none => .ok { progress with pending := some ⟨option, apply⟩ }
  | some (.value apply), some text => progress.addValue ⟨option, apply⟩ text

/-- Takes short options that share an argument. -/
def addShort (switches : List (Switch Choices)) (progress : Progress Choices) :
    List Char → Except UsageError (Progress Choices)
  | [] => .ok progress
  | letter :: rest =>
    let option := OptionName.short letter
    match (switches.find? fun switch => switch.short = letter).map Switch.action with
    | none => .error (.unknownOption option)
    | some .help => addShort switches { progress with help := true } rest
    | some (.flag apply) => addShort switches { progress with choices := apply progress.choices } rest
    | some (.value apply) =>
      if rest.isEmpty then .ok { progress with pending := some ⟨option, apply⟩ }
      else progress.addValue ⟨option, apply⟩ (String.ofList rest)

/-- Takes one argument where an option may stand. A dash alone is a file. -/
def addArgument (switches : List (Switch Choices)) (progress : Progress Choices) (argument : String) :
    Except UsageError (Progress Choices) :=
  match argument.toList with
  | '-' :: '-' :: long =>
    let name := String.ofList (long.takeWhile (· ≠ '='))
    let value := match long.dropWhile (· ≠ '=') with
      | [] => none
      | _ :: text => some (String.ofList text)
    addLong switches progress name value
  | '-' :: letter :: rest => addShort switches progress (letter :: rest)
  | _ => progress.addFile argument

/-- Reads the arguments that are left. -/
def addAll (switches : List (Switch Choices)) :
    Progress Choices → List String → Except UsageError (Progress Choices)
  | progress, [] =>
    match progress.pending with
    | none => .ok progress
    | some pending => .error (.missingValue pending.option)
  | progress, argument :: rest =>
    match progress.pending with
    | some pending => do addAll switches (← progress.addValue pending argument) rest
    | none =>
      if argument = "--" then rest.foldlM addFile progress
      else do addAll switches (← addArgument switches progress argument) rest

end Progress

/-- What a command line asks for. -/
inductive Invocation (Choices : Type) where
  | help
  | run (choices : Choices) (file : String)

/-- Reads a command line. The first error in the order of the arguments counts, and a file that is not named
comes last. -/
def read {Choices : Type} (switches : List (Switch Choices)) (defaults : Choices)
    (arguments : List String) : Except UsageError (Invocation Choices) := do
  let progress ← Progress.addAll switches { choices := defaults } arguments
  if progress.help then .ok .help
  else match progress.file with
    | none => .error .missingFile
    | some file => .ok (.run progress.choices file)

end Chip8.CommandLine
