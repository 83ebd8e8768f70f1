import Chip8.Proofs.KeySet
import Chip8.Proofs.Waiting

namespace Chip8

/-- Both timers after so many ticks. -/
def Timers.elapsed (timers : Timers) (ticks : Nat) : Timers :=
  ⟨UInt8.ofNat (timers.delay.toNat - ticks), UInt8.ofNat (timers.sound.toNat - ticks)⟩

theorem Timers.countDown_ofNat_sub (value : Byte) (ticks : Nat) :
    countDown (UInt8.ofNat (value.toNat - ticks)) = UInt8.ofNat (value.toNat - (ticks + 1)) := by
  have bound := value.toNat_lt
  apply UInt8.toNat_inj.mp
  simp only [toNat_countDown, UInt8.toNat_ofNat']
  omega

theorem Timers.tick_elapsed (timers : Timers) (ticks : Nat) :
    (timers.elapsed ticks).tick = timers.elapsed (ticks + 1) := by
  simp only [tick, elapsed, countDown_ofNat_sub]

theorem Keypad.heldKeys_ne_nil_of_lowestHeld {keypad : Keypad} {key : Key}
    (lowest : keypad.lowestHeld = some key) : keypad.heldKeys ≠ [] := by
  intro none
  rw [lowestHeld_eq_head?, none] at lowest
  contradiction

/-- A host that waits together with the machine makes such requests only: they take steps, touch a key or
read a report. -/
def Request.IsPatient : Request → Prop
  | .load _ | .setSettings _ | .reset => False
  | _ => True

instance : DecidablePred Request.IsPatient
  | .load _ | .setSettings _ | .reset => inferInstanceAs (Decidable False)
  | .step _ | .run .. | .setKey .. | .takeRedraw | .takeFaults => inferInstanceAs (Decidable True)

namespace Moment

/-- How many steps were taken. -/
def stepCount (past : List Moment) : Nat :=
  past.countP fun moment => !moment.request.isHost

/-- What the host has asked for between the steps. -/
def hosted (past : List Moment) : List Request :=
  (past.map Moment.request).filter Request.isHost

/-- The host is patient at that moment, and a step finds no key held. -/
def Uneventful (moment : Moment) : Prop :=
  moment.request.IsPatient ∧
    (moment.request.isHost = false → moment.session.machine.keypad.heldKeys = [])

instance (moment : Moment) : Decidable moment.Uneventful :=
  inferInstanceAs (Decidable (_ ∧ (_ → _)))

section Concat

variable (past : List Moment) {moment : Moment}

theorem stepCount_concat (moment : Moment) :
    stepCount (past ++ [moment]) = stepCount past + if moment.request.isHost then 0 else 1 := by
  cases host : moment.request.isHost <;> simp [stepCount, host]

theorem hosted_concat_of_step {random : Byte} (stepping : moment.request = .step random) :
    hosted (past ++ [moment]) = hosted past := by
  simp [hosted, stepping, Request.isHost]

theorem hosted_concat_of_host (host : moment.request.isHost = true) :
    hosted (past ++ [moment]) = hosted past ++ [moment.request] := by
  simp [hosted, host]

end Concat

end Moment

namespace Machine

/-- The machine after so many steps that have found no key. -/
def waited (machine : Machine) (steps : Nat) : Machine :=
  { machine with
    settings := { machine.settings with waiting := machine.settings.waiting || decide (0 < steps) }
    timers := machine.timers.elapsed steps
    cycle := machine.cycle + UInt64.ofNat steps }

/-- The machines differ in the keys, the unread faults and the latch at most. -/
def AgreeExceptReports (left right : Machine) : Prop :=
  right = { left with
    keypad := right.keypad
    faults := right.faults
    screen := { left.screen with redraw := right.screen.redraw } }

theorem AgreeExceptReports.trans {first second third : Machine} (left : first.AgreeExceptReports second)
    (right : second.AgreeExceptReports third) : first.AgreeExceptReports third := by
  unfold AgreeExceptReports at left right ⊢
  rw [left] at right
  exact right

theorem AgreeExceptReports.parts {left right : Machine} (agree : left.AgreeExceptReports right) :
    right.settings = left.settings ∧ right.timers = left.timers ∧ right.cycle = left.cycle ∧
      right.registers = left.registers ∧ right.pc = left.pc ∧ right.next? = left.next? := by
  unfold AgreeExceptReports at agree
  rw [agree]
  exact ⟨rfl, rfl, rfl, rfl, rfl, rfl⟩

theorem waited_zero (machine : Machine) : machine.waited 0 = machine := by
  have timers : machine.timers.elapsed 0 = machine.timers := by simp [Timers.elapsed]
  have cycle : machine.cycle + UInt64.ofNat 0 = machine.cycle := UInt64.add_zero _
  simp only [waited, timers, cycle, Nat.lt_irrefl, decide_false, Bool.or_false]

/-- A step that finds no key adds itself to the steps before it. -/
theorem step_waited {machine : Machine} {x : Nat} (random : Byte) (steps : Nat)
    (next : machine.next? = some (.waitForKey x)) (unheld : machine.keypad.heldKeys = []) :
    ((machine.waited steps).step random).1 = machine.waited (steps + 1) := by
  have cycle : machine.cycle + UInt64.ofNat steps + 1 = machine.cycle + UInt64.ofNat (steps + 1) := by
    rw [UInt64.ofNat_add, UInt64.add_assoc]
    rfl
  have waitingNext : (machine.waited steps).next? = some (.waitForKey x) := next
  rw [step_of_blocked random waitingNext unheld]
  simp only [counted, waited, cycle, Timers.tick_elapsed, Nat.zero_lt_succ, decide_true, Bool.or_true]

/-- A wait that finds a key goes on with the lowest one. -/
theorem step_of_held {machine : Machine} {x : Register} {key : Key} (random : Byte)
    (next : machine.next? = some (.waitForKey x.val)) (lowest : machine.keypad.lowestHeld = some key) :
    (machine.step random).1 =
      { machine.counted.advance with
        settings := { machine.settings with waiting := false }
        registers := machine.registers.set x (UInt8.ofNat key.val)
        timers := machine.timers.tick } := by
  have countedLowest : machine.counted.keypad.lowestHeld = some key := lowest
  rw [step_of_next random next]
  simp only [execute, waitForKey, countedLowest]
  rfl

/-- What a wait that finds keys held leaves behind. -/
theorem resumed_step {machine : Machine} {x : Register} (random : Byte)
    (next : machine.next? = some (.waitForKey x.val)) (held : machine.keypad.heldKeys ≠ []) :
    let resumed := (machine.step random).1
    (∃ key, machine.keypad.isHeld key = true ∧
      (∀ other, machine.keypad.isHeld other = true → key ≤ other) ∧
      (resumed.registers.get x).toNat = key.val) ∧
    (∀ other, other ≠ x → resumed.registers.get other = machine.registers.get other) ∧
    resumed.pc = machine.pc + 2 ∧ resumed.settings.waiting = false := by
  obtain ⟨key, _, lowest⟩ := List.exists_cons_of_ne_nil held
  have found : machine.keypad.lowestHeld = some key := by
    rw [Keypad.lowestHeld_eq_head?, lowest, List.head?_cons]
  obtain ⟨isHeld, least⟩ := Keypad.lowestHeld_eq_some_iff.mp found
  rw [step_of_held random next found]
  refine ⟨⟨key, isHeld, least, ?_⟩, fun other different => ?_, rfl, rfl⟩
  · rw [Registers.get_set_self, UInt8.toNat_ofNat']
    omega
  · exact Registers.get_set_of_ne _ _ different

end Machine

namespace Session

section Host

variable {left right : Session} {request : Request}

theorem agreeExceptReports_perform (session : Session) (host : request.isHost = true)
    (patient : request.IsPatient) :
    session.machine.AgreeExceptReports (session.perform request).1.machine := by
  cases request with
  | step | run => contradiction
  | load | setSettings | reset => contradiction
  | setKey | takeRedraw | takeFaults => rfl

/-- A patient host can ask for the same things before the steps of a wait and after them. -/
theorem machine_perform_waited {steps : Nat} (host : request.isHost = true) (patient : request.IsPatient)
    (same : left.machine = right.machine.waited steps) :
    (left.perform request).1.machine = (right.perform request).1.machine.waited steps := by
  cases request with
  | step | run => contradiction
  | load | setSettings | reset => contradiction
  | setKey | takeRedraw | takeFaults =>
    simp only [perform, withMachine, same]
    rfl

end Host

theorem agreeExceptReports_performAll (session : Session) {requests : List Request}
    (host : ∀ request ∈ requests, request.isHost = true)
    (patient : ∀ request ∈ requests, request.IsPatient) :
    session.machine.AgreeExceptReports (session.performAll requests).machine := by
  induction requests generalizing session with
  | nil => rfl
  | cons request rest ih =>
    have first := session.agreeExceptReports_perform (host request (List.mem_cons_self ..))
      (patient request (List.mem_cons_self ..))
    refine first.trans (ih _ ?_ ?_)
    · exact fun other later => host other (List.mem_cons_of_mem _ later)
    · exact fun other later => patient other (List.mem_cons_of_mem _ later)

theorem map_request_moments (session : Session) (requests : List Request) :
    (session.moments requests).map Moment.request = requests := by
  induction requests generalizing session with
  | nil => rfl
  | cons request rest ih => exact congrArg (request :: ·) (ih (session.perform request).1)

/-- Taking the steps of a request one at a time does not change what the host asks for. -/
theorem hosted_history (session : Session) (requests : List Request) :
    Moment.hosted (session.history requests) = requests.filter Request.isHost := by
  rw [Moment.hosted, history, map_request_moments]
  induction requests with
  | nil => rfl
  | cons request rest ih =>
    rw [List.flatMap_cons, List.filter_append, ih]
    cases request with
    | run count noise => simp [Request.single, Request.isHost]
    | _ => rfl

section Wait

variable {session : Session} {requests : List Request} {x : Nat}

theorem hosted_of_uneventful {past : List Moment} (uneventful : ∀ moment ∈ past, moment.Uneventful) :
    (∀ request ∈ Moment.hosted past, request.isHost = true) ∧
      ∀ request ∈ Moment.hosted past, request.IsPatient := by
  constructor
  · intro request member
    exact (List.mem_filter.mp member).2
  · intro request member
    obtain ⟨moment, present, rfl⟩ := List.mem_map.mp (List.mem_filter.mp member).1
    exact (uneventful moment present).1

/-- While no step finds a key, the machine is what the host alone would have made of it, with the steps of
the wait on top. -/
theorem machine_performAll_of_uneventful (next : session.machine.next? = some (.waitForKey x))
    (uneventful : ∀ moment ∈ session.history requests, moment.Uneventful) :
    (session.performAll requests).machine =
      (session.performAll (requests.filter Request.isHost)).machine.waited
        (Moment.stepCount (session.history requests)) := by
  rw [← hosted_history session requests]
  -- The invariant compares the machine with the one that the host's past requests lead to.
  refine history_past_invariant (fun past current => (∀ moment ∈ past, moment.Uneventful) →
    current.machine =
      (session.performAll (Moment.hosted past)).machine.waited (Moment.stepCount past)) ?_ ?_
    requests uneventful
  · intro past moment single before calm
    have calmBefore : ∀ other ∈ past, other.Uneventful :=
      fun other member => calm other (List.mem_append_left _ member)
    have earlier := before calmBefore
    have now : moment.Uneventful := calm moment (by simp)
    rcases single with ⟨random, stepping⟩ | host
    · -- The host writes neither memory nor the program counter, so the wait is fetched again.
      obtain ⟨onlyHost, onlyPatient⟩ := hosted_of_uneventful calmBefore
      have agree := session.agreeExceptReports_performAll onlyHost onlyPatient
      obtain ⟨_, _, _, _, _, sameNext⟩ := agree.parts
      have unheld := now.2 (by rw [stepping]; rfl)
      rw [earlier] at unheld
      rw [Moment.hosted_concat_of_step past stepping, Moment.stepCount_concat, stepping,
        machine_perform_step, earlier]
      exact Machine.step_waited random _ (sameNext.trans next) unheld
    · rw [Moment.hosted_concat_of_host past host, Moment.stepCount_concat, if_pos host, performAll_append]
      exact machine_perform_waited host now.1 earlier
  · exact fun _ => session.machine.waited_zero.symm

end Wait

/-- A wait stays where it is until a step finds a key held, whatever keys come and go in between, and then
takes the lowest one. -/
theorem wait_until_key (session : Session) (x : Register) (requests : List Request)
    (next : session.machine.next? = some (.waitForKey x.val))
    (uneventful : ∀ moment ∈ session.history requests, moment.Uneventful) :
    let before := session.machine
    let hosted := (session.performAll (requests.filter Request.isHost)).machine
    let after := (session.performAll requests).machine
    let steps := Moment.stepCount (session.history requests)
    hosted = { before with
        keypad := hosted.keypad
        faults := hosted.faults
        screen := { before.screen with redraw := hosted.screen.redraw } } ∧
      (0 < steps →
        after = { hosted with
          settings := { before.settings with waiting := true }
          timers := before.timers.elapsed steps
          cycle := before.cycle + UInt64.ofNat steps }) ∧
      ∀ random, after.keypad.heldKeys ≠ [] →
        let resumed := (after.step random).1
        (∃ key, after.keypad.isHeld key = true ∧
          (∀ other, after.keypad.isHeld other = true → key ≤ other) ∧
          (resumed.registers.get x).toNat = key.val) ∧
        (∀ other, other ≠ x → resumed.registers.get other = before.registers.get other) ∧
        resumed.pc = before.pc + 2 ∧ resumed.settings.waiting = false := by
  intro before hosted after steps
  obtain ⟨onlyHost, onlyPatient⟩ := hosted_of_uneventful uneventful
  have agree : before.AgreeExceptReports hosted := by
    have made := session.agreeExceptReports_performAll onlyHost onlyPatient
    rwa [hosted_history] at made
  have waited : after = hosted.waited steps := machine_performAll_of_uneventful next uneventful
  obtain ⟨settings, timers, cycle, registers, pc, hostedNext⟩ := agree.parts
  refine ⟨agree, fun stepped => ?_, fun random held => ?_⟩
  · rw [waited]
    simp only [Machine.waited, settings, timers, cycle, stepped, decide_true, Bool.or_true]
  · have afterNext : after.next? = some (.waitForKey x.val) := by
      rw [waited]
      exact hostedNext.trans next
    have afterRegisters : after.registers = before.registers := by
      rw [waited]
      exact registers
    have afterPc : after.pc = before.pc := by
      rw [waited]
      exact pc
    rw [← afterRegisters, ← afterPc]
    exact Machine.resumed_step random afterNext held

/-- A program that starts the delay timer and waits for a key. -/
def timedWaitProgram : List Byte := [0x61, 0x02, 0xf1, 0x15, 0xf5, 0x0a]

/-- The session that has come to the wait. -/
def atTimedWait : Session :=
  (ofMachine (.loaded {} timedWaitProgram (by decide))).run (fun _ => 0) 2

/-- A host that touches a key between the steps of the wait, and then holds two. -/
def lateKeys : List Request :=
  [.step 0, .setKey 2 true, .setKey 2 false, .takeRedraw, .run 2 fun _ => 0, .setKey 9 true, .setKey 4 true]

theorem atTimedWait_state :
    atTimedWait.machine.next? = some (.waitForKey 5) ∧ atTimedWait.machine.pc = 0x204 ∧
      atTimedWait.machine.timers.delay = 1 ∧ (∀ moment ∈ atTimedWait.history lateKeys, moment.Uneventful) ∧
      Moment.stepCount (atTimedWait.history lateKeys) = 3 ∧
      (atTimedWait.performAll lateKeys).machine.keypad.lowestHeld = some 4 := by
  decide +kernel

/-- Three steps run the timer out, and the lower one of the two keys is taken. -/
theorem wait_until_key_lateKeys :
    let after := (atTimedWait.performAll lateKeys).machine
    let resumed := (after.step 0).1
    after.settings.waiting = true ∧ after.timers.delay = 0 ∧
      (resumed.registers.get 5).toNat = 4 ∧ resumed.pc = 0x206 := by
  obtain ⟨next, pc, delay, uneventful, count, lowest⟩ := atTimedWait_state
  obtain ⟨_, waited, goesOn⟩ := wait_until_key atTimedWait 5 lateKeys next uneventful
  rw [count] at waited
  have stayed := waited (by decide)
  obtain ⟨held, least⟩ := Keypad.lowestHeld_eq_some_iff.mp lowest
  obtain ⟨⟨key, keyHeld, keyLeast, value⟩, _, moved, _⟩ :=
    goesOn 0 (Keypad.heldKeys_ne_nil_of_lowestHeld lowest)
  have same : key.val = 4 := congrArg Fin.val (Fin.le_antisymm (keyLeast 4 held) (least key keyHeld))
  refine ⟨congrArg (·.settings.waiting) stayed, (congrArg (·.timers.delay) stayed).trans ?_,
    value.trans same, moved.trans (congrArg (· + 2) pc)⟩
  exact congrArg (fun start : Byte => UInt8.ofNat (start.toNat - 3)) delay

end Session

end Chip8
