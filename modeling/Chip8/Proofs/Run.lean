import Chip8.Session

/-! The moments of a run. A request for many steps counts as that many moments, so a history shows every
instruction that was executed. -/

namespace Chip8

/-- The request as requests that take at most one step each. -/
def Request.single : Request → List Request
  | .run count noise => (List.range count).map fun step => .step (noise step)
  | request => [request]

/-- Whether the request is carried out between steps. -/
def Request.isHost : Request → Bool
  | .step _ | .run .. => false
  | _ => true

/-- The request takes one step, or is carried out between steps. -/
def Request.IsSingle (request : Request) : Prop :=
  (∃ random, request = .step random) ∨ request.isHost = true

/-- One request on the way, and the session that it meets. -/
structure Moment where
  session : Session
  request : Request

/-- The instruction that runs at that moment, if one does. -/
def Moment.executed? (moment : Moment) : Option Instruction :=
  match moment.request with
  | .step _ => moment.session.machine.next?
  | _ => none

namespace Session

/-- The session after a list of requests. -/
def performAll (session : Session) (requests : List Request) : Session :=
  requests.foldl (fun current request => (current.perform request).1) session

/-- Each request of a list with the session that it meets. -/
def moments (session : Session) : List Request → List Moment
  | [] => []
  | request :: rest => ⟨session, request⟩ :: (session.perform request).1.moments rest

/-- The moments of a run, one for each step. -/
def history (session : Session) (requests : List Request) : List Moment :=
  session.moments (requests.flatMap Request.single)

@[simp] theorem performAll_nil (session : Session) : session.performAll [] = session := rfl

@[simp] theorem performAll_cons (session : Session) (request : Request) (rest : List Request) :
    session.performAll (request :: rest) = (session.perform request).1.performAll rest := rfl

theorem machine_perform_step (session : Session) (random : Byte) :
    (session.perform (.step random)).1.machine = (session.machine.step random).1 := rfl

theorem machine_perform_load {session : Session} {program : List Byte} {machine : Machine}
    (success : session.machine.load program = .ok machine) :
    (session.perform (.load program)).1.machine = machine := by
  simp only [perform, load, success, Except.map]

/-- A load puts the program into memory, if it fits there, and touches no other part of the machine. -/
theorem machine_perform_load_cases (session : Session) (program : List Byte) :
    (∃ memory, session.machine.memory.load program = .ok memory ∧
      (session.perform (.load program)).1.machine = { session.machine with memory }) ∨
      (session.perform (.load program)).1.machine = session.machine := by
  simp only [perform, load, Machine.load]
  cases session.machine.memory.load program with
  | error error => exact .inr rfl
  | ok memory => exact .inl ⟨memory, rfl, rfl⟩

theorem part_perform_load {Part : Type} (part : Machine → Part)
    (apart : ∀ machine memory, part { machine with memory } = part machine) (session : Session)
    (program : List Byte) :
    part (session.perform (.load program)).1.machine = part session.machine := by
  rcases session.machine_perform_load_cases program with ⟨memory, _, loaded⟩ | refused
  · rw [loaded, apart]
  · rw [refused]

theorem performAll_append (session : Session) (first second : List Request) :
    session.performAll (first ++ second) = (session.performAll first).performAll second :=
  List.foldl_append

theorem run_succ (session : Session) (noise : Noise) (count : Nat) :
    session.run noise (count + 1) = (session.run noise count).step (noise count) :=
  Nat.fold_succ _ _ _

/-- What no step changes is the same after a run. -/
theorem part_run {Part : Type} (part : Machine → Part)
    (kept : ∀ (machine : Machine) (random : Byte), part (machine.step random).1 = part machine)
    (session : Session) (noise : Noise) (count : Nat) :
    part (session.run noise count).machine = part session.machine := by
  induction count with
  | zero => rfl
  | succ count ih =>
    rw [run_succ]
    exact (kept (session.run noise count).machine (noise count)).trans ih

/-- What each step of a run keeps between two sessions holds after the run. -/
theorem run_related (related : Session → Session → Prop) {left right : Session} (noise : Noise)
    (count : Nat) (start : related left right)
    (stepped : ∀ step < count, ∀ other, related (left.run noise step) other →
      related ((left.run noise step).step (noise step)) (other.step (noise step))) :
    related (left.run noise count) (right.run noise count) := by
  induction count with
  | zero => exact start
  | succ count ih =>
    have before := ih fun step bound => stepped step (Nat.lt_succ_of_lt bound)
    rw [run_succ, run_succ]
    exact stepped count (Nat.lt_succ_self count) _ before

private theorem performAll_steps (session : Session) (noise : Noise) (count : Nat) :
    session.performAll ((List.range count).map fun step => .step (noise step)) =
      session.run noise count := by
  induction count with
  | zero => rfl
  | succ count ih =>
    rw [List.range_succ, List.map_append, performAll_append, ih, run_succ]
    rfl

theorem performAll_single (session : Session) (request : Request) :
    session.performAll request.single = (session.perform request).1 := by
  cases request with
  | run count noise => exact performAll_steps session noise count
  | _ => rfl

/-- Taking the steps of every request one at a time leads to the same session. -/
theorem performAll_flatMap_single (session : Session) (requests : List Request) :
    session.performAll (requests.flatMap Request.single) = session.performAll requests := by
  induction requests generalizing session with
  | nil => rfl
  | cons request rest ih =>
    rw [List.flatMap_cons, performAll_append, performAll_single, ih, performAll_cons]

theorem mem_flatMap_single {request : Request} {requests : List Request}
    (member : request ∈ requests.flatMap Request.single) :
    (∃ random, request = .step random) ∨ (request ∈ requests ∧ request.isHost = true) := by
  obtain ⟨whole, present, part⟩ := List.mem_flatMap.mp member
  cases whole with
  | run count noise =>
    obtain ⟨step, _, same⟩ := List.mem_map.mp part
    exact .inl ⟨noise step, same.symm⟩
  | step random => exact .inl ⟨random, List.mem_singleton.mp part⟩
  | _ =>
    obtain rfl := List.mem_singleton.mp part
    exact .inr ⟨present, rfl⟩

theorem isSingle_of_mem_flatMap_single {request : Request} {requests : List Request}
    (member : request ∈ requests.flatMap Request.single) : request.IsSingle :=
  (mem_flatMap_single member).imp_right And.right

theorem moments_append (session : Session) (first second : List Request) :
    session.moments (first ++ second) =
      session.moments first ++ (session.performAll first).moments second := by
  induction first generalizing session with
  | nil => rfl
  | cons request rest ih => exact congrArg _ (ih (session.perform request).1)

/-- A moment lies between what came before it and what comes after it. -/
theorem split_of_mem_moments {session : Session} {requests : List Request} {moment : Moment}
    (member : moment ∈ session.moments requests) :
    ∃ before after, requests = before ++ moment.request :: after ∧
      moment.session = session.performAll before := by
  induction requests generalizing session with
  | nil => simp [moments] at member
  | cons request rest ih =>
    rcases List.mem_cons.mp member with first | later
    · exact ⟨[], rest, by simp [first], by simp [first]⟩
    · obtain ⟨before, after, same, reached⟩ := ih later
      exact ⟨request :: before, after, by simp [same], reached⟩

theorem request_of_mem_history {session : Session} {requests : List Request} {moment : Moment}
    (member : moment ∈ session.history requests) :
    (∃ random, moment.request = .step random) ∨
      (moment.request ∈ requests ∧ moment.request.isHost = true) := by
  obtain ⟨before, after, same, _⟩ := split_of_mem_moments member
  exact mem_flatMap_single (same ▸ List.mem_append_right before (List.mem_cons_self ..))

/-- A host that never makes a request makes it at no moment. -/
theorem request_ne_of_mem_history {session : Session} {requests : List Request} {moment : Moment}
    {request : Request} (member : moment ∈ session.history requests) (absent : request ∉ requests)
    (host : request.isHost = true) : moment.request ≠ request := by
  rintro rfl
  rcases request_of_mem_history member with ⟨random, stepping⟩ | ⟨present, _⟩
  · rw [stepping] at host
    contradiction
  · exact absent present

theorem moments_invariant (invariant : Session → Prop) {session : Session} {requests : List Request}
    (start : invariant session)
    (kept : ∀ moment ∈ session.moments requests, invariant moment.session →
      invariant (moment.session.perform moment.request).1) :
    invariant (session.performAll requests) := by
  induction requests generalizing session with
  | nil => exact start
  | cons request rest ih =>
    have next := kept ⟨session, request⟩ (List.mem_cons_self ..) start
    exact ih next fun moment later => kept moment (List.mem_cons_of_mem _ later)

/-- What every moment of a run keeps holds after the run. -/
theorem history_invariant (invariant : Session → Prop) {session : Session} {requests : List Request}
    (start : invariant session)
    (kept : ∀ moment ∈ session.history requests, invariant moment.session →
      invariant (moment.session.perform moment.request).1) :
    invariant (session.performAll requests) := by
  rw [← performAll_flatMap_single]
  exact moments_invariant invariant start kept

private theorem moments_past_invariant (invariant : List Moment → Session → Prop)
    (kept : ∀ past moment, moment.request.IsSingle → invariant past moment.session →
      invariant (past ++ [moment]) (moment.session.perform moment.request).1)
    {past : List Moment} {session : Session} {requests : List Request} (start : invariant past session)
    (single : ∀ request ∈ requests, request.IsSingle) :
    invariant (past ++ session.moments requests) (session.performAll requests) := by
  induction requests generalizing past session with
  | nil => simpa [moments] using start
  | cons request rest ih =>
    have first := kept past ⟨session, request⟩ (single request (List.mem_cons_self ..)) start
    have later := ih first fun other member => single other (List.mem_cons_of_mem _ member)
    simpa [moments] using later

/-- What a session has to do with its past, if every moment keeps it, holds after the run. -/
theorem history_past_invariant (invariant : List Moment → Session → Prop)
    (kept : ∀ past moment, moment.request.IsSingle → invariant past moment.session →
      invariant (past ++ [moment]) (moment.session.perform moment.request).1)
    {session : Session} (start : invariant [] session) (requests : List Request) :
    invariant (session.history requests) (session.performAll requests) := by
  rw [← performAll_flatMap_single]
  exact moments_past_invariant invariant kept start fun _ => isSingle_of_mem_flatMap_single

/-- What steps and the host keep between two sessions holds after the same run of both. -/
theorem performAll_related (related : Session → Session → Prop)
    (stepped : ∀ left right random, related left right →
      related (left.step random) (right.step random))
    (hosted : ∀ left right request, request.isHost = true → related left right →
      related (left.perform request).1 (right.perform request).1)
    {left right : Session} (start : related left right) (requests : List Request) :
    related (left.performAll requests) (right.performAll requests) := by
  have kept (singles : List Request) (single : ∀ request ∈ singles, request.IsSingle) :
      related (left.performAll singles) (right.performAll singles) := by
    induction singles generalizing left right with
    | nil => exact start
    | cons request rest ih =>
      refine ih ?_ fun other member => single other (List.mem_cons_of_mem _ member)
      rcases single request (List.mem_cons_self ..) with ⟨random, rfl⟩ | host
      · exact stepped left right random start
      · exact hosted left right request host start
  rw [← performAll_flatMap_single left, ← performAll_flatMap_single right]
  exact kept _ fun _ => isSingle_of_mem_flatMap_single

section Congruence

variable {left right : Session}

/-- What a machine does is not a matter of what the session has printed and logged before. -/
theorem machine_performAll_congr (same : left.machine = right.machine) (requests : List Request) :
    (left.performAll requests).machine = (right.performAll requests).machine := by
  apply performAll_related fun left right => left.machine = right.machine
  case start => exact same
  case stepped => exact fun left right random same => congrArg (fun machine => (machine.step random).1) same
  case hosted =>
    intro left right request host same
    cases request with
    | step | run => contradiction
    | load program =>
      simp only [perform, load, same]
      cases right.machine.load program with
      | error error => exact same
      | ok machine => rfl
    | _ => simp only [perform, withMachine, same]

theorem reply_congr (same : left.machine = right.machine) (request : Request) :
    (left.perform request).2 = (right.perform request).2 := by
  cases request with
  | load program =>
    simp only [perform, load, same]
    cases right.machine.load program <;> rfl
  | _ => simp only [perform, same]

end Congruence

end Session

end Chip8
