import Chip8.Proofs.Effect
import Chip8.Proofs.Interpreter
import Chip8.Proofs.Run
import Mathlib.Data.List.DropRight

namespace Chip8

/-- Whether the request starts the machine over. -/
def Request.isReset : Request → Bool
  | .reset => true
  | _ => false

namespace Moment

/-- The steps of a run since the machine was made or last reset, oldest first. -/
def recentSteps (past : List Moment) : List Moment :=
  (past.rtakeWhile fun moment => !moment.request.isReset).filter fun moment => !moment.request.isHost

/-- The step at that moment waits for a key, to be stored in the given register, and finds none held. -/
def Blocks (moment : Moment) (x : Nat) : Prop :=
  moment.executed? = some (.waitForKey x) ∧ moment.session.machine.keypad.heldKeys = []

/-- The host leaves it to the machine to say whether it waits, and puts no program into a machine that
waits. -/
def LeavesWaiting (moment : Moment) : Prop :=
  match moment.request with
  | .setSettings settings => settings.waiting = moment.session.machine.settings.waiting
  | .load program =>
    program.length ≤ Memory.programCapacity → moment.session.machine.settings.waiting = false
  | _ => True

section RecentSteps

variable (past : List Moment) {moment : Moment}

theorem recentSteps_concat_of_reset (resetting : moment.request = .reset) :
    recentSteps (past ++ [moment]) = [] := by
  simp [recentSteps, resetting, Request.isReset]

theorem recentSteps_concat_of_host (host : moment.request.isHost = true)
    (running : moment.request ≠ .reset) : recentSteps (past ++ [moment]) = recentSteps past := by
  have kept : moment.request.isReset = false := by
    cases request : moment.request with
    | reset => exact absurd request running
    | _ => rfl
  simp [recentSteps, kept, host]

theorem recentSteps_concat_of_step {random : Byte} (stepping : moment.request = .step random) :
    recentSteps (past ++ [moment]) = recentSteps past ++ [moment] := by
  simp [recentSteps, stepping, Request.isReset, Request.isHost]

end RecentSteps

end Moment

namespace Machine

/-- A wait at which no key is held leaves the machine where it is. -/
theorem step_of_blocked {machine : Machine} {x : Nat} (random : Byte)
    (next : machine.next? = some (.waitForKey x)) (unheld : machine.keypad.heldKeys = []) :
    (machine.step random).1 =
      { machine.counted with
        settings := { machine.settings with waiting := true }
        timers := machine.timers.tick } := by
  have lowest : machine.counted.keypad.lowestHeld = none := by
    rw [counted, Keypad.lowestHeld_eq_head?, unheld, List.head?_nil]
  rw [step_of_next random next]
  simp only [execute, waitForKey, lowest]
  rfl

theorem waiting_step_of_wait {machine : Machine} {x : Nat} (random : Byte)
    (next : machine.next? = some (.waitForKey x)) :
    (machine.step random).1.settings.waiting = true ↔ machine.keypad.heldKeys = [] := by
  rw [settings_step, next]
  simp [Keypad.lowestHeld_eq_head?]

/-- Only a wait says anything new about waiting. -/
theorem waiting_step_of_not_wait {machine : Machine} (random : Byte)
    (other : ∀ x, machine.next? ≠ some (.waitForKey x)) :
    (machine.step random).1.settings.waiting = machine.settings.waiting := by
  rw [settings_step]
  cases decoded : machine.next? with
  | none => rfl
  | some instruction =>
    cases instruction with
    | waitForKey x => exact absurd decoded (other x)
    | _ => rfl

/-- The settings of a machine agree with its past. If they say that it waits, then it still stands at
the wait that its newest step has run. -/
structure TellsWaiting (machine : Machine) (past : List Moment) : Prop where
  told {moment : Moment} {x : Nat} (newest : (Moment.recentSteps past).getLast? = some moment)
    (blocked : moment.Blocks x) : machine.settings.waiting = true
  standing (waiting : machine.settings.waiting = true) :
    ∃ moment x, (Moment.recentSteps past).getLast? = some moment ∧ moment.Blocks x ∧
      machine.next? = some (.waitForKey x) ∧ machine.pc = moment.session.machine.pc

theorem tellsWaiting_of_no_step {machine : Machine} {past : List Moment}
    (none : Moment.recentSteps past = []) (idle : machine.settings.waiting = false) :
    machine.TellsWaiting past where
  told newest _ := by simp [none] at newest
  standing waiting := by simp [idle] at waiting

end Machine

namespace Session

/-- A step keeps the settings true to the past. -/
theorem tellsWaiting_step {past : List Moment} {moment : Moment} {random : Byte}
    (stepping : moment.request = .step random) (before : moment.session.machine.TellsWaiting past) :
    (moment.session.step random).machine.TellsWaiting (past ++ [moment]) := by
  have newest : (Moment.recentSteps (past ++ [moment])).getLast? = some moment := by
    rw [Moment.recentSteps_concat_of_step past stepping, List.getLast?_concat]
  have executed : moment.executed? = moment.session.machine.next? := by
    simp only [Moment.executed?, stepping]
  constructor
  case told =>
    intro other x last blocked
    obtain rfl := Option.some.inj (newest.symm.trans last)
    have next := executed.symm.trans blocked.1
    exact (Machine.waiting_step_of_wait random next).mpr blocked.2
  case standing =>
    intro waiting
    by_cases wait : ∃ x, moment.session.machine.next? = some (.waitForKey x)
    · obtain ⟨x, next⟩ := wait
      have unheld := (Machine.waiting_step_of_wait random next).mp waiting
      have stayed : (moment.session.step random).machine = _ := Machine.step_of_blocked random next unheld
      refine ⟨moment, x, newest, ⟨executed.trans next, unheld⟩, ?_, ?_⟩
      · rw [stayed]
        exact next
      · rw [stayed]
        rfl
    · -- A machine that waited would stand at a wait.
      have other : ∀ x, moment.session.machine.next? ≠ some (.waitForKey x) := not_exists.mp wait
      have waited := (Machine.waiting_step_of_not_wait random other).symm.trans waiting
      obtain ⟨_, x, _, _, next, _⟩ := before.standing waited
      exact absurd next (other x)

/-- Between steps the settings go on to say what they said, and a machine that waits is left where it
is. -/
theorem waiting_perform_of_host {moment : Moment} (host : moment.request.isHost = true)
    (running : moment.request ≠ .reset) (left : moment.LeavesWaiting) :
    let before := moment.session.machine
    let after := (moment.session.perform moment.request).1.machine
    after.settings.waiting = before.settings.waiting ∧
      (before.settings.waiting = true → after.next? = before.next? ∧ after.pc = before.pc) := by
  obtain ⟨session, request⟩ := moment
  cases request with
  | reset => contradiction
  | step | run => simp [Request.isHost] at host
  | setSettings settings => exact ⟨left, fun _ => ⟨rfl, rfl⟩⟩
  | load program =>
    rcases session.machine_perform_load_cases program with ⟨memory, success, loaded⟩ | refused
    · have idle : session.machine.settings.waiting = false := left (Memory.length_le_of_load success)
      rw [loaded]
      exact ⟨rfl, fun waiting => absurd waiting (by simp [idle])⟩
    · rw [refused]
      exact ⟨rfl, fun _ => ⟨rfl, rfl⟩⟩
  | _ => exact ⟨rfl, fun _ => ⟨rfl, rfl⟩⟩

theorem tellsWaiting_host {past : List Moment} {moment : Moment}
    (host : moment.request.isHost = true) (left : moment.LeavesWaiting)
    (before : moment.session.machine.TellsWaiting past) :
    (moment.session.perform moment.request).1.machine.TellsWaiting (past ++ [moment]) := by
  by_cases resetting : moment.request = .reset
  · apply Machine.tellsWaiting_of_no_step
    case none => exact Moment.recentSteps_concat_of_reset past resetting
    case idle =>
      rw [resetting]
      rfl
  · have steps := Moment.recentSteps_concat_of_host past host resetting
    obtain ⟨same, kept⟩ := waiting_perform_of_host host resetting left
    constructor
    case told =>
      intro newest x last blocked
      rw [steps] at last
      exact same.trans (before.told last blocked)
    case standing =>
      intro waiting
      have waited := same.symm.trans waiting
      obtain ⟨newest, x, last, blocked, next, pc⟩ := before.standing waited
      obtain ⟨sameNext, samePc⟩ := kept waited
      exact ⟨newest, x, steps ▸ last, blocked, sameNext.trans next, samePc.trans pc⟩

theorem tellsWaiting_performAll {settings : Settings} (idle : settings.waiting = false)
    (requests : List Request)
    (left : ∀ moment ∈ (ofMachine (.new settings)).history requests, moment.LeavesWaiting) :
    ((ofMachine (.new settings)).performAll requests).machine.TellsWaiting
      ((ofMachine (.new settings)).history requests) := by
  refine history_past_invariant (fun past current =>
    (∀ moment ∈ past, moment.LeavesWaiting) → current.machine.TellsWaiting past) ?_ ?_ requests left
  · intro past moment single before left
    have earlier : moment.session.machine.TellsWaiting past :=
      before fun other member => left other (List.mem_append_left _ member)
    rcases single with ⟨random, stepping⟩ | host
    · rw [stepping]
      exact tellsWaiting_step stepping earlier
    · exact tellsWaiting_host host (left moment (by simp)) earlier
  · exact fun _ => Machine.tellsWaiting_of_no_step rfl idle

/-- As long as the host leaves that to the machine, its settings say that it waits exactly when its newest
step ran a wait and found no key. -/
theorem waiting_iff_blocked (settings : Settings) (idle : settings.waiting = false)
    (requests : List Request)
    (left : ∀ moment ∈ (ofMachine (.new settings)).history requests, moment.LeavesWaiting) :
    let past := (ofMachine (.new settings)).history requests
    let machine := ((ofMachine (.new settings)).performAll requests).machine
    (machine.settings.waiting = true ↔
        ∃ moment x, (Moment.recentSteps past).getLast? = some moment ∧ moment.Blocks x) ∧
      (machine.settings.waiting = true →
        ∃ moment x, (Moment.recentSteps past).getLast? = some moment ∧
          moment.executed? = some (.waitForKey x) ∧ machine.next? = some (.waitForKey x) ∧
          machine.pc = moment.session.machine.pc) := by
  intro past machine
  have tells : machine.TellsWaiting past := tellsWaiting_performAll idle requests left
  refine ⟨⟨?_, ?_⟩, ?_⟩
  · intro waiting
    obtain ⟨moment, x, newest, blocked, _⟩ := tells.standing waiting
    exact ⟨moment, x, newest, blocked⟩
  · rintro ⟨moment, x, newest, blocked⟩
    exact tells.told newest blocked
  · intro waiting
    obtain ⟨moment, x, newest, blocked, next, pc⟩ := tells.standing waiting
    exact ⟨moment, x, newest, blocked.1, next, pc⟩

/-- A program that clears the screen and waits for a key. -/
def waitingProgram : List Byte := [0x00, 0xe0, 0xf5, 0x0a]

/-- A host that has the program traced, and touches a key while it waits. -/
def tracedWait : List Request :=
  [.load waitingProgram, .setSettings { tracing := true }, .run 2 fun _ => 0, .setKey 2 true,
    .setKey 2 false, .step 0]

theorem waiting_performAll_tracedWait :
    ((ofMachine (.new {})).performAll tracedWait).machine.settings.waiting = true := by
  rw [tracedWait, machine_performAll_load_new {} (by decide)]
  decide +kernel

/-- The machine waits, and stands where its newest step found no key. -/
theorem waiting_iff_blocked_tracedWait :
    let past := (ofMachine (.new {})).history tracedWait
    let machine := ((ofMachine (.new {})).performAll tracedWait).machine
    machine.settings.waiting = true ∧
      ∃ moment x, (Moment.recentSteps past).getLast? = some moment ∧
        moment.executed? = some (.waitForKey x) ∧ machine.next? = some (.waitForKey x) ∧
        machine.pc = moment.session.machine.pc := by
  intro past
  have loaded : ((ofMachine (.new {})).perform (.load waitingProgram)).1.machine =
      .loaded {} waitingProgram (by decide) :=
    machine_perform_load (Machine.load_new {} (by decide))
  have left : ∀ moment ∈ past, moment.LeavesWaiting := by
    intro moment member
    simp only [past, tracedWait, history, List.flatMap_cons, List.flatMap_nil, Request.single,
      List.append_nil, List.cons_append, List.nil_append, List.range_succ, List.range_zero, List.map_nil,
      List.map_cons, moments, List.mem_cons, List.not_mem_nil, or_false] at member
    rcases member with rfl | rfl | rfl | rfl | rfl | rfl | rfl
    · exact fun _ => rfl
    · exact (congrArg (·.settings.waiting) loaded).symm
    · trivial
    · trivial
    · trivial
    · trivial
    · trivial
  obtain ⟨_, standing⟩ := waiting_iff_blocked {} rfl tracedWait left
  exact ⟨waiting_performAll_tracedWait, standing waiting_performAll_tracedWait⟩

end Session

end Chip8
