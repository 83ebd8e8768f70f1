import Chip8.Proofs.Counter
import Chip8.Proofs.Frame
import Chip8.Proofs.Run
import Mathlib.Data.List.DropRight

/-! Every step ticks the timers after it has run its instruction, so the newest setting of a timer has lost
one for its own step, too. -/

namespace Chip8

/-- One of the two countdowns. -/
inductive Timer where
  | delay
  | sound

namespace Timers

def value (timers : Timers) : Timer → Byte
  | .delay => timers.delay
  | .sound => timers.sound

def withValue (timers : Timers) (value : Byte) : Timer → Timers
  | .delay => { timers with delay := value }
  | .sound => { timers with sound := value }

theorem value_withValue_of_ne {timer other : Timer} (timers : Timers) (value : Byte)
    (different : other ≠ timer) : (timers.withValue value other).value timer = timers.value timer := by
  cases timer <;> cases other <;> first | rfl | contradiction

theorem beeping_iff (timers : Timers) : timers.beeping = true ↔ 0 < (timers.value .sound).toNat := by
  rw [beeping, bne_iff_ne, ne_eq, ← UInt8.toNat_inj]
  exact Nat.pos_iff_ne_zero.symm

end Timers

/-- The register that the instruction copies into the timer, if it sets that timer. -/
def Instruction.timerSource? : Instruction → Timer → Option Nat
  | .setDelay x, .delay => some x
  | .setSound x, .sound => some x
  | _, _ => none

namespace Machine

/-- What the next step puts into the timer before it ticks, if it sets the timer. -/
def setting? (machine : Machine) (timer : Timer) : Option Nat :=
  (machine.next?.bind (·.timerSource? timer)).map machine.valueAt

variable {machine : Machine}

/-- A timer that the instruction does not set goes on by a tick. -/
theorem value_step_of_unset {timer : Timer} (random : Byte)
    (unset : ∀ instruction, machine.next? = some instruction → instruction.timerSource? timer = none) :
    (machine.step random).1.timers.value timer = Timers.countDown (machine.timers.value timer) := by
  cases timer with
  | delay =>
    refine machine.sameIn_step random .delay fun instruction next => ?_
    have unsetHere := unset instruction next
    cases instruction with
    | setDelay x => contradiction
    | _ => rfl
  | sound =>
    refine machine.sameIn_step random .sound fun instruction next => ?_
    have unsetHere := unset instruction next
    cases instruction with
    | setSound x => contradiction
    | _ => rfl

/-- A timer that the instruction sets is set first and then ticks. -/
theorem toNat_value_step_of_set {timer : Timer} {instruction : Instruction} {x : Nat} (random : Byte)
    (next : machine.next? = some instruction) (source : instruction.timerSource? timer = some x) :
    ((machine.step random).1.timers.value timer).toNat = machine.valueAt x - 1 := by
  have fits := Instruction.fits_of_decode next
  rw [step_of_next random next]
  cases instruction with
  | setDelay x =>
    cases timer with
    | sound => contradiction
    | delay =>
      obtain rfl := Option.some.inj source
      rw [valueAt_eq fits]
      exact Timers.toNat_countDown _
  | setSound x =>
    cases timer with
    | delay => contradiction
    | sound =>
      obtain rfl := Option.some.inj source
      rw [valueAt_eq fits]
      exact Timers.toNat_countDown _
  | _ => contradiction

/-- A step sets a timer or leaves it, and then it ticks. -/
theorem toNat_value_step (machine : Machine) (random : Byte) (timer : Timer) :
    ((machine.step random).1.timers.value timer).toNat =
      (machine.setting? timer).getD (machine.timers.value timer).toNat - 1 := by
  cases source : machine.next?.bind (·.timerSource? timer) with
  | none =>
    have unset := fun instruction next => Option.bind_eq_none_iff.mp source instruction next
    rw [value_step_of_unset random unset, Timers.toNat_countDown, setting?, source]
    rfl
  | some x =>
    obtain ⟨instruction, next, copied⟩ := Option.bind_eq_some_iff.mp source
    rw [toNat_value_step_of_set random next copied, setting?, source]
    rfl

theorem valueAt_step_of_getDelay {x : Nat} (random : Byte) (reading : machine.next? = some (.getDelay x)) :
    (machine.step random).1.valueAt x = machine.timers.delay.toNat := by
  have fits : x < 16 := Instruction.fits_of_decode reading
  rw [valueAt_eq fits, step_of_next random reading]
  exact congrArg UInt8.toNat (Registers.get_set_self ..)

/-- In a step neither timer looks at the other. -/
theorem value_step_of_other {timer other : Timer} (random value : Byte) (different : other ≠ timer) :
    (({ machine with timers := machine.timers.withValue value other } : Machine).step random).1.timers.value
        timer =
      (machine.step random).1.timers.value timer := by
  apply UInt8.toNat_inj.mp
  rw [toNat_value_step, toNat_value_step, Timers.value_withValue_of_ne _ _ different]
  rfl

end Machine

namespace Moment

/-- The steps of a run, oldest first. -/
def steps (past : List Moment) : List Moment :=
  past.filter fun moment => !moment.request.isHost

/-- What the step at that moment puts into the timer, if it sets the timer. -/
def setting? (timer : Timer) (moment : Moment) : Option Nat :=
  (moment.executed?.bind (·.timerSource? timer)).map moment.session.machine.valueAt

section Concat

variable (past : List Moment) {moment : Moment}

theorem steps_concat_of_step {random : Byte} (stepping : moment.request = .step random) :
    steps (past ++ [moment]) = steps past ++ [moment] := by
  simp [steps, stepping, Request.isHost]

theorem steps_concat_of_host (host : moment.request.isHost = true) :
    steps (past ++ [moment]) = steps past := by
  simp [steps, host]

end Concat

theorem setting?_of_step {moment : Moment} {random : Byte} (timer : Timer)
    (stepping : moment.request = .step random) :
    moment.setting? timer = moment.session.machine.setting? timer := by
  simp only [setting?, executed?, stepping, Machine.setting?]

end Moment

namespace Timer

/-- What a timer shows after some steps: its newest setting, or else what it showed before them, less one
for each step from there on. -/
def shown (timer : Timer) (start : Nat) (steps : List Moment) : Nat :=
  let since := steps.rtakeWhile fun moment => (moment.setting? timer).isNone
  match (steps.filterMap (Moment.setting? timer)).getLast? with
  | none => start - steps.length
  | some value => value - (since.length + 1)

/-- One more step sets the timer or leaves it, and then ticks. -/
theorem shown_concat (timer : Timer) (start : Nat) (steps : List Moment) (moment : Moment) :
    timer.shown start (steps ++ [moment]) =
      (moment.setting? timer).getD (timer.shown start steps) - 1 := by
  cases setting : moment.setting? timer with
  | some value => simp [shown, setting]
  | none =>
    simp only [shown, List.filterMap_append, List.filterMap_cons_none setting, List.filterMap_nil,
      List.append_nil, List.rtakeWhile_concat, setting, Option.isNone_none, if_true, List.length_append,
      List.length_singleton, Option.getD_none]
    cases (steps.filterMap (Moment.setting? timer)).getLast? <;> simp only <;> omega

end Timer

/-- The timers of a machine show what the steps of its past have made of the timers from before them, and so
did each step that has read the delay timer. -/
structure Machine.TimersFollow (machine : Machine) (start : Timers) (past : List Moment) : Prop where
  shown (timer : Timer) :
    (machine.timers.value timer).toNat = timer.shown (start.value timer).toNat (Moment.steps past)
  read {number x : Nat} {moment : Moment} (member : (Moment.steps past)[number]? = some moment)
    (reading : moment.executed? = some (.getDelay x)) :
    (moment.session.perform moment.request).1.machine.valueAt x =
      Timer.delay.shown start.delay.toNat ((Moment.steps past).take number)

namespace Session

variable {start : Timers} {past : List Moment} {moment : Moment}

theorem timersFollow_step {random : Byte} (stepping : moment.request = .step random)
    (before : moment.session.machine.TimersFollow start past) :
    (moment.session.perform moment.request).1.machine.TimersFollow start (past ++ [moment]) := by
  constructor
  case shown =>
    intro timer
    rw [stepping, machine_perform_step, Machine.toNat_value_step, Moment.steps_concat_of_step past stepping,
      Timer.shown_concat, Moment.setting?_of_step timer stepping, before.shown]
  case read =>
    intro number x reader member reading
    rw [Moment.steps_concat_of_step past stepping] at member ⊢
    rcases Nat.lt_or_ge number (Moment.steps past).length with earlier | newest
    · rw [List.getElem?_append_left earlier] at member
      rw [List.take_append_of_le_length (Nat.le_of_lt earlier)]
      exact before.read member reading
    · have last : number = (Moment.steps past).length := by
        have inside := (List.getElem?_eq_some_iff.mp member).1
        rw [List.length_append, List.length_singleton] at inside
        omega
      subst last
      rw [List.getElem?_concat_length] at member
      obtain rfl := Option.some.inj member
      rw [Moment.executed?, stepping] at reading
      rw [stepping, machine_perform_step, Machine.valueAt_step_of_getDelay random reading, List.take_left]
      exact before.shown .delay

/-- Between steps a host touches the timers by a reset only. -/
theorem timers_perform_of_host {session : Session} {request : Request} (host : request.isHost = true)
    (running : request ≠ .reset) :
    (session.perform request).1.machine.timers = session.machine.timers := by
  cases request with
  | reset => contradiction
  | step | run => simp [Request.isHost] at host
  | load program => exact part_perform_load Machine.timers (fun _ _ => rfl) session program
  | _ => rfl

theorem timersFollow_host (host : moment.request.isHost = true) (running : moment.request ≠ .reset)
    (before : moment.session.machine.TimersFollow start past) :
    (moment.session.perform moment.request).1.machine.TimersFollow start (past ++ [moment]) := by
  have same := Moment.steps_concat_of_host past host
  constructor
  case shown =>
    intro timer
    rw [timers_perform_of_host host running, same]
    exact before.shown timer
  case read =>
    intro number x reader member reading
    rw [same] at member ⊢
    exact before.read member reading

theorem timersFollow_performAll (session : Session) {requests : List Request}
    (running : .reset ∉ requests) :
    (session.performAll requests).machine.TimersFollow session.machine.timers (session.history requests) := by
  refine history_past_invariant (fun past current => (∀ moment ∈ past, moment.request ≠ .reset) →
    current.machine.TimersFollow session.machine.timers past) ?_ ?_ requests ?_
  · intro past moment single before unreset
    have earlier := before fun other member => unreset other (List.mem_append_left _ member)
    rcases single with ⟨random, stepping⟩ | host
    · exact timersFollow_step stepping earlier
    · exact timersFollow_host host (unreset moment (by simp)) earlier
  · exact fun _ => ⟨fun timer => rfl, fun member => by simp [Moment.steps] at member⟩
  · exact fun moment member => request_ne_of_mem_history member running rfl

/-- Over a run without resets each timer shows its newest setting, less one for each step from there on.
Neither of them knows of the other. -/
theorem timers_exact (session : Session) (requests : List Request) (running : .reset ∉ requests) :
    let before := session.machine.timers
    let after := (session.performAll requests).machine.timers
    let steps := Moment.steps (session.history requests)
    (∀ timer, (after.value timer).toNat = timer.shown (before.value timer).toNat steps) ∧
      (after.beeping = true ↔ 0 < Timer.sound.shown before.sound.toNat steps) ∧
      (∀ number moment x, steps[number]? = some moment → moment.executed? = some (.getDelay x) →
        (moment.session.perform moment.request).1.machine.valueAt x =
          Timer.delay.shown before.delay.toNat (steps.take number)) ∧
      ∀ (machine : Machine) (random value : Byte) (timer other : Timer), other ≠ timer →
        let changed := { machine with timers := machine.timers.withValue value other }
        (changed.step random).1.timers.value timer = (machine.step random).1.timers.value timer := by
  intro before after steps
  have follow := session.timersFollow_performAll running
  refine ⟨follow.shown, ?_, fun number moment x => follow.read, fun machine random value timer other => ?_⟩
  · rw [Timers.beeping_iff, follow.shown .sound]
    rfl
  · exact Machine.value_step_of_other random value

/-- A program that sets both timers, passes over a word that spells nothing, reads the delay timer and waits
for a key. -/
def timedProgram : List Byte :=
  [0x61, 0x09, 0xf1, 0x15, 0xf1, 0x18, 0xff, 0xff, 0xf2, 0x07, 0xf5, 0x0a]

def atTimedProgram : Session :=
  ofMachine (.loaded {} timedProgram (by decide))

/-- Seven steps, of which the last two wait, with a touch of a key among them. -/
def sevenSteps : List Request :=
  [.run 3 fun _ => 0, .setKey 2 true, .takeFaults, .step 0, .setKey 2 false, .run 3 fun _ => 0]

theorem steps_sevenSteps :
    let steps := Moment.steps (atTimedProgram.history sevenSteps)
    Timer.delay.shown 0 steps = 3 ∧ Timer.sound.shown 0 steps = 4 ∧ Timer.delay.shown 0 (steps.take 4) = 6 ∧
      steps[4]?.bind Moment.executed? = some (.getDelay 2) := by
  decide +kernel

/-- The delay timer was set to nine by the second of the steps and the sound timer by the third. -/
theorem timers_exact_sevenSteps :
    let steps := Moment.steps (atTimedProgram.history sevenSteps)
    let after := (atTimedProgram.performAll sevenSteps).machine.timers
    after.delay.toNat = 3 ∧ after.sound.toNat = 4 ∧ after.beeping = true ∧
      ∃ reader, steps[4]? = some reader ∧
        (reader.session.perform reader.request).1.machine.valueAt 2 = 6 := by
  intro steps after
  obtain ⟨delay, sound, earlier, fifth⟩ := steps_sevenSteps
  obtain ⟨values, beeping, reads, _⟩ := timers_exact atTimedProgram sevenSteps (by simp [sevenSteps])
  obtain ⟨reader, member, reading⟩ := Option.bind_eq_some_iff.mp fifth
  refine ⟨(values .delay).trans delay, (values .sound).trans sound, ?_, reader, member, ?_⟩
  · exact beeping.mpr (Nat.lt_of_lt_of_eq (by decide) sound.symm)
  · exact (reads 4 reader 2 member reading).trans earlier

end Session

end Chip8
