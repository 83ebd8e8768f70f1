import Chip8.Proofs.Bare.Refinement
import Chip8.Proofs.Effect
import Chip8.Proofs.Run

namespace Chip8

namespace Bare

/-- Takes a number of steps, each with its own byte of the noise. -/
def multistep (full : WhenFull) (bare : Bare) (noise : Noise) (count : Nat) : Checked Bare :=
  (List.range count).foldlM (fun current step => current.step full (noise step)) bare

/-- Carries out one request. -/
def perform (full : WhenFull) (bare : Bare) : Request → Checked (Bare × Reply)
  | .load program => bare.load program
  | .step random => do return (← bare.step full random, .done)
  | .run count noise => do return (← bare.multistep full noise count, .done)
  | .setKey key pressed => bare.setKey key pressed
  | .setSettings settings => .ok ({ bare with settings }, .done)
  | .takeRedraw => .ok ({ bare with redraw := false }, .flag bare.redraw)
  | .takeFaults => .ok ({ bare with faults := [] }, .faults bare.faults)
  | .reset => do return (← bare.reset, .done)

/-- The bare machine after a list of requests. -/
def performAll (full : WhenFull) (bare : Bare) (requests : List Request) : Checked Bare :=
  requests.foldlM (fun current request => do return (← current.perform full request).1) bare

/-- Starts with a new machine and carries out a list of requests. -/
def run (full : WhenFull) (settings : Settings) (requests : List Request) : Checked Bare := do
  (← new settings).performAll full requests

variable (full : WhenFull)

theorem performAll_append (bare : Bare) (first second : List Request) :
    bare.performAll full (first ++ second) =
      (bare.performAll full first >>= fun reached => reached.performAll full second) :=
  List.foldlM_append

theorem performAll_cons (bare : Bare) (request : Request) (rest : List Request) :
    bare.performAll full (request :: rest) =
      (bare.perform full request >>= fun answered => answered.1.performAll full rest) := by
  rw [performAll, List.foldlM_cons]
  cases bare.perform full request <;> rfl

theorem performAll_single (bare : Bare) (request : Request) :
    bare.performAll full request.single = do return (← bare.perform full request).1 := by
  cases request with
  | run count noise =>
    simp [Request.single, performAll, List.foldlM_map, perform, multistep]
  | _ => simp [Request.single, performAll]

/-- Taking the steps of every request one at a time leads to the same machine. -/
theorem performAll_flatMap_single (bare : Bare) (requests : List Request) :
    bare.performAll full (requests.flatMap Request.single) = bare.performAll full requests := by
  induction requests generalizing bare with
  | nil => rfl
  | cons request rest continued =>
    rw [List.flatMap_cons, performAll_append, performAll_single, performAll_cons]
    cases bare.perform full request with
    | error trap => rfl
    | ok answered => exact continued answered.1

end Bare

namespace Machine

variable (machine : Machine)

/-- A counter of fixed width starts over by itself, so it differs from a checked one only where that
stops. -/
theorem count_bare (full : Bare.WhenFull) :
    Bare.count full machine.cycle.toNat =
      if full = .stop ∧ machine.cycle.toNat + 1 = UInt64.size then .error .counterFull
      else .ok (machine.cycle + 1).toNat := by
  have bound := machine.cycle.toNat_lt
  simp only [Bare.count, UInt64.toNat_add, UInt64.size]
  by_cases room : machine.cycle.toNat + 1 < 18446744073709551616
  · have notLast : ¬ (full = .stop ∧ machine.cycle.toNat + 1 = 18446744073709551616) := by omega
    have kept : (machine.cycle.toNat + UInt64.toNat 1) % 2 ^ 64 = machine.cycle.toNat + 1 :=
      Nat.mod_eq_of_lt room
    rw [if_pos room, if_neg notLast, kept]
  · have last : machine.cycle.toNat + 1 = 18446744073709551616 := by omega
    have restarted : (machine.cycle.toNat + UInt64.toNat 1) % 2 ^ 64 = 0 := by
      change (machine.cycle.toNat + 1) % 2 ^ 64 = 0
      omega
    rw [if_neg room, restarted]
    cases full with
    | stop => rw [if_pos ⟨rfl, last⟩]
    | startOver => rfl

/-- A step of the bare machine is a step of the machine, unless its counter is full and stops it. -/
theorem step_bare (full : Bare.WhenFull) (random : Byte) :
    machine.bare.step full random =
      if full = .stop ∧ machine.cycle.toNat + 1 = UInt64.size then .error .counterFull
      else .ok (machine.step random).1.bare := by
  rw [Bare.step]
  have counting : Bare.count full machine.bare.cycle = _ := machine.count_bare full
  rw [counting]
  by_cases stopped : full = .stop ∧ machine.cycle.toNat + 1 = UInt64.size
  · rw [if_pos stopped, if_pos stopped]
    rfl
  · rw [if_neg stopped, if_neg stopped, Checked.ok_bind]
    have fetched : machine.counted.bare.readWord machine.counted.bare.pc = .ok machine.fetch :=
      machine.counted.readWord_bare machine.pc
    refine (congrArg (· >>= _) fetched).trans ?_
    rw [Checked.ok_bind]
    cases decoded : machine.next? with
    | none =>
      have unknown : Instruction.decode machine.fetch = none := decoded
      have faulted := machine.counted.fault_bare (.unrecognized machine.pc machine.fetch)
      rw [unknown, step_of_unrecognized random decoded]
      exact congrArg (fun faulted : Bare =>
        Except.ok { faulted.advance with timers := machine.timers.tick }) faulted
    | some instruction =>
      have spelled : Instruction.decode machine.fetch = some instruction := decoded
      have executed := machine.counted.execute_bare random instruction (Instruction.fits_of_decode decoded)
      rw [spelled, step_of_next random decoded]
      refine (congrArg (· >>= _) executed).trans ?_
      rfl

end Machine

namespace Session

variable (full : Bare.WhenFull)

/-- What a host does between steps always succeeds, and gets the same answer. -/
theorem perform_bare (session : Session) {request : Request} (host : request.isHost = true) :
    session.machine.bare.perform full request =
      .ok ((session.perform request).1.machine.bare, (session.perform request).2) := by
  cases request with
  | step random => contradiction
  | run count noise => contradiction
  | load program =>
    rw [Bare.perform, Machine.load_bare, perform, load]
    cases session.machine.load program with
    | ok loaded => rfl
    | error error => rfl
  | setKey key pressed => exact session.machine.setKey_bare key pressed
  | setSettings settings => rfl
  | takeRedraw => rfl
  | takeFaults => rfl
  | reset =>
    rw [Bare.perform, Machine.reset_bare]
    rfl

/-- A request of one step at most is answered alike, unless it is a step that the counter stops. -/
theorem perform_bare_of_single (session : Session) {request : Request}
    (short : (∃ random, request = .step random) ∨ request.isHost = true) :
    session.machine.bare.perform full request =
        .ok ((session.perform request).1.machine.bare, (session.perform request).2) ∨
      ∃ random, request = .step random ∧ full = .stop ∧
        session.machine.cycle.toNat + 1 = UInt64.size := by
  rcases short with ⟨random, rfl⟩ | host
  · by_cases stopped : full = .stop ∧ session.machine.cycle.toNat + 1 = UInt64.size
    · exact Or.inr ⟨random, rfl, stopped⟩
    · left
      rw [Bare.perform, Machine.step_bare, if_neg stopped]
      rfl
  · exact Or.inl (session.perform_bare full host)

/-- Requests of one step at most keep the two machines together, up to a step that finds its counter
full. -/
theorem performAll_bare_of_single (session : Session) {requests : List Request}
    (short : ∀ request ∈ requests, (∃ random, request = .step random) ∨ request.isHost = true) :
    session.machine.bare.performAll full requests = .ok (session.performAll requests).machine.bare ∨
      full = .stop ∧ session.machine.bare.performAll full requests = .error .counterFull ∧
        ∃ before random after, requests = before ++ .step random :: after ∧
          session.machine.bare.performAll full before = .ok (session.performAll before).machine.bare ∧
          (session.performAll before).machine.cycle.toNat + 1 = UInt64.size := by
  induction requests generalizing session with
  | nil => exact Or.inl rfl
  | cons request rest continued =>
    -- Either the first request stops the machine, or the rest decides.
    rcases session.perform_bare_of_single full (short request (List.mem_cons_self ..)) with
      answered | ⟨random, rfl, stopping, last⟩
    · have moved : ∀ requests, session.machine.bare.performAll full (request :: requests) =
          (session.perform request).1.machine.bare.performAll full requests := by
        intro requests
        rw [Bare.performAll_cons, answered]
        rfl
      have later : ∀ other ∈ rest, (∃ random, other = .step random) ∨ other.isHost = true :=
        fun other member => short other (List.mem_cons_of_mem _ member)
      rcases continued (session.perform request).1 later with
        reached | ⟨stopping, failed, before, random, after, same, reached, last⟩
      · exact Or.inl ((moved rest).trans reached)
      · right
        refine ⟨stopping, (moved rest).trans failed, request :: before, random, after, ?_, ?_, last⟩
        · rw [same, List.cons_append]
        · exact (moved before).trans reached
    · right
      refine ⟨stopping, ?_, [], random, rest, rfl, rfl, last⟩
      rw [Bare.performAll_cons, Bare.perform, Machine.step_bare, if_pos ⟨stopping, last⟩]
      rfl

end Session

namespace Bare

/-- A run makes no access out of range and no sum or product out of its width, unless it has to count a step
more than fits and stops at that. -/
theorem run_wellFormed (full : WhenFull) (settings : Settings) (requests : List Request) :
    (∃ bare, run full settings requests = .ok bare ∧ bare.WellFormed ∧
        bare = ((Session.ofMachine (.new settings)).performAll requests).machine.bare ∧
        ∃ live, bare.live = .ok live ∧ live.length = bare.depth) ∨
      (full = .stop ∧ run full settings requests = .error .counterFull ∧
        ∃ before random after bare, requests.flatMap Request.single = before ++ .step random :: after ∧
          run full settings before = .ok bare ∧ bare.cycle = UInt64.size - 1) := by
  have started : ∀ requests, run full settings requests =
      (Machine.new settings).bare.performAll full requests := by
    intro requests
    rw [run, Machine.new_bare, Checked.ok_bind]
  have short : ∀ request ∈ requests.flatMap Request.single,
      (∃ random, request = .step random) ∨ request.isHost = true :=
    fun request member => (Session.mem_flatMap_single member).imp_right And.right
  let session := Session.ofMachine (.new settings)
  rcases session.performAll_bare_of_single full short with
    reached | ⟨stopping, failed, before, random, after, same, reached, last⟩
  · left
    rw [performAll_flatMap_single, Session.performAll_flatMap_single] at reached
    have live := Machine.live_bare (session.performAll requests).machine
    exact ⟨_, (started requests).trans reached, Machine.wellFormed_bare _, rfl, _, live,
      CallStack.length_live _⟩
  · right
    rw [performAll_flatMap_single] at failed
    have counted : (session.performAll before).machine.bare.cycle = UInt64.size - 1 :=
      Nat.eq_sub_of_add_eq last
    exact ⟨stopping, (started requests).trans failed, before, random, after, _, same,
      (started before).trans reached, counted⟩

end Bare

end Chip8
