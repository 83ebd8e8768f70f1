import Chip8.CommandLine.Run
import Chip8.Proofs.Image
import Chip8.Proofs.KeyEvents

namespace Chip8

namespace Keypad

/-- The keypad with more keys held. -/
def press (keypad : Keypad) (keys : List Nat) : Keypad :=
  keypad.setAll (keys.map fun key => ⟨key, true⟩)

theorem press_cons (keypad : Keypad) (key : Nat) (rest : List Nat) :
    keypad.press (key :: rest) = (keypad.set key true).1.press rest := rfl

theorem isHeld_press_iff (keypad : Keypad) (keys : List Nat) (key : Key) :
    (keypad.press keys).isHeld key = true ↔ keypad.isHeld key = true ∨ key.val ∈ keys := by
  induction keys generalizing keypad with
  | nil => simp [press, setAll]
  | cons pressed rest ih =>
    rw [press_cons, ih, List.mem_cons]
    by_cases same : key.val = pressed
    · subst same
      simp [keypad.isHeld_set_self true key.isLt]
    · simp [keypad.isHeld_set_of_ne true same, same]

/-- Pressing the same keys in another order, or some of them again, makes no difference. -/
theorem press_congr (keypad : Keypad) {left right : List Nat} (same : ∀ key, key ∈ left ↔ key ∈ right) :
    keypad.press left = keypad.press right := by
  refine ext_isHeld fun key => ?_
  rw [isHeld_press_iff, isHeld_press_iff, same]

end Keypad

namespace Session

variable {session : Session} {error : Error}

theorem load_eq_error_iff {program : List Byte} :
    session.load program = .error error ↔
      Memory.programCapacity < program.length ∧
        error = .oversizeProgram program.length Memory.programCapacity := by
  have refused : session.load program = .error error ↔
      session.machine.memory.load program = .error error := by
    simp only [load, Machine.load]
    cases session.machine.memory.load program <;> simp [Except.map]
  exact refused.trans Memory.load_eq_error_iff

end Session

namespace CommandLine

/-- Why a run is refused before its first step. The first key in the list that does not exist counts. -/
inductive Refusal (keys : List Nat) : FileContent → Error → Prop where
  | unreadable {failure : ReadFailure} : Refusal keys (.error failure) (.unreadable failure)
  | oversizeProgram {program : List Byte} (long : Memory.programCapacity < program.length) :
    Refusal keys (.ok program) (.oversizeProgram program.length Memory.programCapacity)
  | noSuchKey {program : List Byte} {key : Nat} (fits : program.length ≤ Memory.programCapacity)
    (first : (keys.find? fun key => 15 < key) = some key) :
    Refusal keys (.ok program) (.noSuchKey key)

/-- The session after the last step, or why there is none. -/
def finalSession (noise : Noise) (choices : RunChoices) (content : FileContent) :
    Except Error Session :=
  (prepare choices content).map fun session => session.run noise choices.cycles

theorem holdKey_of_le (session : Session) {key : Nat} (real : key ≤ 15) :
    holdKey session key = .ok (session.withKeypad (session.machine.keypad.set key true).1) := by
  rw [holdKey, if_pos (Nat.lt_succ_of_le real)]
  rfl

theorem holdKey_of_missing (session : Session) {key : Nat} (missing : 15 < key) :
    holdKey session key = .error (.noSuchKey key) := by
  rw [holdKey, if_neg (Nat.not_lt_of_le missing)]

/-- Keys are held one after the other until one does not exist. -/
theorem foldlM_holdKey (session : Session) (keys : List Nat) :
    keys.foldlM holdKey session =
      match keys.find? fun key => 15 < key with
      | some key => .error (.noSuchKey key)
      | none => .ok (session.withKeypad (session.machine.keypad.press keys)) := by
  induction keys generalizing session with
  | nil => rfl
  | cons key rest ih =>
    rw [List.foldlM_cons, List.find?_cons]
    by_cases missing : 15 < key
    · rw [holdKey_of_missing session missing, decide_eq_true missing]
      rfl
    · rw [holdKey_of_le session (Nat.le_of_not_lt missing), decide_eq_false missing]
      exact ih _

section Prepare

variable {choices : RunChoices} {content : FileContent} {program : List Byte} {error : Error}

/-- A loaded program that is going to run with these keys held. -/
def readySession (settings : Settings) (program : List Byte)
    (fits : program.length ≤ Memory.programCapacity) (keys : List Nat) : Session where
  machine := (Machine.loaded settings program fits).withKeypad (Keypad.empty.press keys)
  log := #[.loaded program.length]

theorem prepare_of_long (long : Memory.programCapacity < program.length) :
    prepare choices (.ok program) =
      .error (.oversizeProgram program.length Memory.programCapacity) := by
  have refused : (Session.ofMachine (.new choices.settings)).load program = .error _ :=
    Session.load_eq_error_iff.mpr ⟨long, rfl⟩
  rw [prepare, Session.loadFile, refused]
  rfl

theorem prepare_of_fits (fits : program.length ≤ Memory.programCapacity) :
    prepare choices (.ok program) =
      match choices.keys.find? fun key => 15 < key with
      | some key => .error (.noSuchKey key)
      | none => .ok (readySession choices.settings program fits choices.keys) := by
  have loaded : (Session.ofMachine (.new choices.settings)).load program =
      .ok { Session.ofMachine (.loaded choices.settings program fits) with log := #[.loaded program.length] } := by
    rw [Session.load, Session.ofMachine, Machine.load_new choices.settings fits]
    rfl
  rw [prepare, Session.loadFile, loaded]
  exact foldlM_holdKey _ choices.keys

theorem prepare_of_refusal (refusal : Refusal choices.keys content error) :
    prepare choices content = .error error := by
  cases refusal with
  | unreadable => rfl
  | oversizeProgram long => exact prepare_of_long long
  | noSuchKey fits first => rw [prepare_of_fits fits, first]

theorem prepare_of_exist (fits : program.length ≤ Memory.programCapacity)
    (exist : ∀ key ∈ choices.keys, key ≤ 15) :
    prepare choices (.ok program) = .ok (readySession choices.settings program fits choices.keys) := by
  have first : (choices.keys.find? fun key => 15 < key) = none := by simpa using exist
  rw [prepare_of_fits fits, first]

/-- A run that nothing speaks against has a program and keys that exist. -/
theorem ready_of_no_refusal (keys : List Nat) (allowed : ∀ error, ¬ Refusal keys content error) :
    ∃ program, content = .ok program ∧ program.length ≤ Memory.programCapacity ∧
      ∀ key ∈ keys, key ≤ 15 := by
  cases content with
  | error failure => exact absurd .unreadable (allowed _)
  | ok program =>
    have fits : program.length ≤ Memory.programCapacity := by
      by_contra long
      exact allowed _ (.oversizeProgram (Nat.lt_of_not_le long))
    refine ⟨program, rfl, fits, ?_⟩
    cases first : keys.find? fun key => 15 < key with
    | none => simpa using first
    | some key => exact absurd (.noSuchKey fits first) (allowed _)

/-- Exactly these runs are refused, each for its own reason. -/
theorem prepare_eq_error_iff :
    prepare choices content = .error error ↔ Refusal choices.keys content error := by
  refine ⟨fun refused => ?_, prepare_of_refusal⟩
  by_cases reason : ∃ other, Refusal choices.keys content other
  · obtain ⟨other, refusal⟩ := reason
    rw [prepare_of_refusal refusal] at refused
    exact Except.error.inj refused ▸ refusal
  · obtain ⟨program, rfl, fits, exist⟩ := ready_of_no_refusal choices.keys (not_exists.mp reason)
    rw [prepare_of_exist fits exist] at refused
    contradiction

/-- Lists of the same keys make the same session ready. -/
theorem readySession_congr (settings : Settings) (fits : program.length ≤ Memory.programCapacity)
    {left right : List Nat} (same : ∀ key, key ∈ left ↔ key ∈ right) :
    readySession settings program fits left = readySession settings program fits right := by
  rw [readySession, Keypad.press_congr _ same]
  rfl

end Prepare

section Run

variable {noise : Noise} {choices : RunChoices} {content : FileContent}

theorem finalSession_eq_error_iff {error : Error} :
    finalSession noise choices content = .error error ↔ Refusal choices.keys content error := by
  rw [← prepare_eq_error_iff, finalSession]
  cases prepare choices content <;> simp [Except.map]

theorem finalSession_of_exist {program : List Byte} (fits : program.length ≤ Memory.programCapacity)
    (exist : ∀ key ∈ choices.keys, key ≤ 15) :
    finalSession noise choices (.ok program) =
      .ok ((readySession choices.settings program fits choices.keys).run noise choices.cycles) := by
  rw [finalSession, prepare_of_exist fits exist]
  rfl

theorem runFile_of_refusal {error : Error} (refusal : Refusal choices.keys content error) :
    runFile noise choices content = ⟨1, "", Ink.alarm error.message ++ "\n"⟩ := by
  rw [runFile, prepare_of_refusal refusal]

theorem runFile_of_ok {final : Session} (ended : finalSession noise choices content = .ok final) :
    runFile noise choices content =
      ⟨0, lines final.printed.toList ++ closingReport final.machine,
        lines (final.alerts.toList.map Session.alertText)⟩ := by
  rw [finalSession] at ended
  rw [runFile]
  cases ready : prepare choices content with
  | error error =>
    rw [ready] at ended
    contradiction
  | ok session =>
    rw [ready] at ended
    obtain rfl := Except.ok.inj ended
    rfl

theorem outcome_run {files : Files} {file : String} {arguments : List String}
    (asked : (runProgram noise).invocation arguments = .ok (.run choices file)) :
    (runProgram noise).outcome files arguments = runFile noise choices (files file) := by
  rw [Program.outcome, asked]
  rfl

end Run

/-- Neither the order of the keys nor how often one is named can be seen. A run that is refused reports its
first reason and prints nothing. -/
theorem keys_as_set (noise : Noise) (choices : RunChoices) (content : FileContent) :
    (∀ error, finalSession noise choices content = .error error ↔
      Refusal choices.keys content error) ∧
    (∀ error, Refusal choices.keys content error →
      runFile noise choices content = ⟨1, "", Ink.alarm error.message ++ "\n"⟩) ∧
    ((∀ error, ¬ Refusal choices.keys content error) →
      ∃ final : Session,
        runFile noise choices content =
          ⟨0, lines final.printed.toList ++ closingReport final.machine,
            lines (final.alerts.toList.map Session.alertText)⟩ ∧
        ∀ others, (∀ key, key ∈ others ↔ key ∈ choices.keys) →
          finalSession noise { choices with keys := others } content = .ok final ∧
          runFile noise { choices with keys := others } content = runFile noise choices content) := by
  refine ⟨fun error => finalSession_eq_error_iff, fun error => runFile_of_refusal, fun allowed => ?_⟩
  obtain ⟨program, rfl, fits, exist⟩ := ready_of_no_refusal choices.keys allowed
  let final := (readySession choices.settings program fits choices.keys).run noise choices.cycles
  have ended (others : List Nat) (same : ∀ key, key ∈ others ↔ key ∈ choices.keys) :
      finalSession noise { choices with keys := others } (.ok program) = .ok final := by
    have ready : readySession choices.settings program fits others = _ :=
      readySession_congr choices.settings fits same
    rw [finalSession_of_exist fits fun key member => exist key ((same key).mp member)]
    exact congrArg (fun session => Except.ok (session.run noise choices.cycles)) ready
  have own := runFile_of_ok (ended choices.keys fun _ => Iff.rfl)
  refine ⟨final, own, fun others same => ⟨ended others same, ?_⟩⟩
  exact (runFile_of_ok (ended others same)).trans own.symm

/-- A program that waits for a key. -/
def keyProgram : List Byte := [0xf0, 0x0a]

/-- A program that can be run, one that is too long, a directory, and no other files. -/
def keyFiles (name : String) : FileContent :=
  if name = "rom" then .ok keyProgram
  else if name = "tape" then .ok (List.replicate 3585 0)
  else if name = "roms" then .error (.ofSystem 21 "Is a directory")
  else .error .notFound

/-- Of two keys that do not exist the first is reported, and before any key that there is nothing to load. -/
theorem keys_as_set_keyProgram :
    let program := runProgram fun _ => 0
    program.outcome keyFiles ["-dk", "A", "rom", "-k3", "--key=a", "-C1"] =
        program.outcome keyFiles ["--cycles", "1", "-k", "3", "-kA", "rom", "--debug"] ∧
      program.outcome keyFiles ["-d", "rom", "-k2", "-k", "1f", "-k10"] =
        ⟨1, "", "\x1b[31m\x1b[1mtried to press key 1F which does not exist\x1b[0m\x1b[39m\n"⟩ ∧
      program.outcome keyFiles ["tape", "-k", "10"] =
        ⟨1, "", "\x1b[31m\x1b[1mrom is 3585 bytes, but program space only holds 3584\x1b[0m\x1b[39m\n"⟩ ∧
      program.outcome keyFiles ["-d", "none", "-k10"] =
        ⟨1, "", "\x1b[31m\x1b[1mNo such file or directory (os error 2)\x1b[0m\x1b[39m\n"⟩ ∧
      program.outcome keyFiles ["-k10", "roms"] =
        ⟨1, "", "\x1b[31m\x1b[1mIs a directory (os error 21)\x1b[0m\x1b[39m\n"⟩ := by
  intro program
  have twice : program.invocation ["-dk", "A", "rom", "-k3", "--key=a", "-C1"] =
      .ok (.run { tracing := true, cycles := 1, keys := [10, 3, 10] } "rom") := rfl
  have once : program.invocation ["--cycles", "1", "-k", "3", "-kA", "rom", "--debug"] =
      .ok (.run { tracing := true, cycles := 1, keys := [3, 10] } "rom") := rfl
  have stray : program.invocation ["-d", "rom", "-k2", "-k", "1f", "-k10"] =
      .ok (.run { tracing := true, keys := [2, 31, 16] } "rom") := rfl
  have tape : program.invocation ["tape", "-k", "10"] = .ok (.run { keys := [16] } "tape") := rfl
  have missing : program.invocation ["-d", "none", "-k10"] =
      .ok (.run { tracing := true, keys := [16] } "none") := rfl
  have directory : program.invocation ["-k10", "roms"] = .ok (.run { keys := [16] } "roms") := rfl
  refine ⟨?_, ?_, ?_, ?_, ?_⟩
  · rw [outcome_run twice, outcome_run once]
    have allowed (error : Error) : ¬ Refusal [10, 3, 10] (.ok keyProgram) error := by
      intro refusal
      cases refusal with
      | oversizeProgram long => exact absurd long (by decide)
      | noSuchKey fits first => exact absurd first (by simp)
    obtain ⟨_, _, same⟩ := (keys_as_set (fun _ => 0) { tracing := true, cycles := 1, keys := [10, 3, 10] }
      (.ok keyProgram)).2.2 allowed
    exact (same [3, 10] (by simp [or_comm])).2.symm
  · rw [outcome_run stray]
    refine ((keys_as_set _ _ _).2.1 (.noSuchKey 31) (.noSuchKey (by decide) rfl)).trans ?_
    decide +kernel
  · rw [outcome_run tape]
    have length : (List.replicate 3585 (0 : Byte)).length = 3585 := List.length_replicate
    have long : Memory.programCapacity < (List.replicate 3585 (0 : Byte)).length := by
      rw [length]
      decide
    refine ((keys_as_set _ _ _).2.1 _ (.oversizeProgram long)).trans ?_
    rw [length]
    decide +kernel
  · rw [outcome_run missing]
    refine ((keys_as_set _ _ _).2.1 (.unreadable .notFound) .unreadable).trans ?_
    decide +kernel
  · rw [outcome_run directory]
    refine ((keys_as_set _ _ _).2.1 (.unreadable (.ofSystem 21 "Is a directory")) .unreadable).trans ?_
    decide +kernel

end CommandLine

end Chip8
