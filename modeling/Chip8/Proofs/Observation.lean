import Chip8.Proofs.Alike
import Chip8.Proofs.Image

namespace Chip8

/-- Whether the request only looks at a machine of that dialect, or changes how it is watched. -/
def Request.isObservation (dialect : Dialect) : Request → Bool
  | .takeRedraw | .takeFaults => true
  | .setSettings settings => settings.dialect = dialect
  | _ => false

/-- The dialect of a machine after the request. -/
def Request.dialectAfter (dialect : Dialect) : Request → Dialect
  | .setSettings settings => settings.dialect
  | _ => dialect

/-- What a program may notice of a request, as requests of one step at most. Of new settings it is the
dialect. -/
def Request.noticeable : Request → List Request
  | .setSettings settings => [.setSettings { dialect := settings.dialect }]
  | request => request.single

/-- The requests that matter to a program on a machine of that dialect. Observations are left out. -/
def Request.essential (dialect : Dialect) : List Request → List Request
  | [] => []
  | request :: rest =>
    (if request.isObservation dialect then [] else request.noticeable) ++
      essential (request.dialectAfter dialect) rest

theorem Word.congruence_eq : Word.Congruence Eq where
  refl _ := rfl
  add same _ := congrArg (· + _) same
  location := congrArg Address.ofWord

theorem Fault.eq_of_alike {left right : Fault} (alike : Fault.Alike Eq left right) : left = right := by
  cases alike with
  | unrecognized same word => rw [same]
  | stackOverflow same => rw [same]
  | stackUnderflow same => rw [same]
  | protectedWrite same target => rw [same]

/-- A program cannot tell the two machines apart. They may differ in tracing, counters, reports and the
slots of the stack not in use. -/
abbrev Machine.Similar : Machine → Machine → Prop := Machine.Alike Eq

namespace Machine.Similar

variable {left middle right : Machine}

theorem refl (machine : Machine) : Similar machine machine where
  dialect := rfl
  memory := rfl
  pixels := rfl
  stack := List.forall₂_refl _
  pc := rfl
  index := rfl
  registers := rfl
  timers := rfl
  keypad := rfl

theorem symm (similar : Similar left right) : Similar right left where
  dialect := similar.dialect.symm
  memory := similar.memory.symm
  pixels := similar.pixels.symm
  stack := by
    have live := similar.stack
    rw [List.forall₂_eq_eq_eq] at live ⊢
    exact live.symm
  pc := similar.pc.symm
  index := similar.index.symm
  registers := similar.registers.symm
  timers := similar.timers.symm
  keypad := similar.keypad.symm

theorem trans (first : Similar left middle) (second : Similar middle right) : Similar left right where
  dialect := first.dialect.trans second.dialect
  memory := first.memory.trans second.memory
  pixels := first.pixels.trans second.pixels
  stack := by
    have before := first.stack
    have after := second.stack
    rw [List.forall₂_eq_eq_eq] at before after ⊢
    exact before.trans after
  pc := first.pc.trans second.pc
  index := first.index.trans second.index
  registers := first.registers.trans second.registers
  timers := first.timers.trans second.timers
  keypad := first.keypad.trans second.keypad

/-- A step raises the same faults on both machines. -/
theorem faults_step (similar : Similar left right) (random : Byte) :
    (left.step random).2 = (right.step random).2 := by
  have alike := (similar.step Word.congruence_eq random).faults.imp fun _ _ => Fault.eq_of_alike
  rwa [List.forall₂_eq_eq_eq] at alike

end Machine.Similar

namespace Session

variable {left right : Session}

theorem similar_performAll (similar : left.machine.Similar right.machine) (requests : List Request) :
    (left.performAll requests).machine.Similar (right.performAll requests).machine :=
  alike_performAll Word.congruence_eq similar requests

theorem similar_perform (similar : left.machine.Similar right.machine) (request : Request) :
    (left.perform request).1.machine.Similar (right.perform request).1.machine :=
  similar_performAll similar [request]

/-- Only the latch and the queue of faults answer differently on similar machines. -/
theorem reply_eq_of_similar (similar : left.machine.Similar right.machine) {request : Request}
    (unlooked : request ≠ .takeRedraw) (unread : request ≠ .takeFaults) :
    (left.perform request).2 = (right.perform request).2 := by
  cases request with
  | takeRedraw | takeFaults => contradiction
  | load program =>
    simp only [perform, load, Machine.load, similar.memory]
    cases right.machine.memory.load program <;> rfl
  | setKey key pressed =>
    simp only [perform, Machine.setKey, similar.keypad]
  | _ => rfl

/-- An observation of one of two machines. -/
theorem similar_perform_of_observation (similar : left.machine.Similar right.machine)
    {request : Request} (observing : request.isObservation left.machine.dialect = true) :
    (left.perform request).1.machine.Similar right.machine := by
  cases request with
  | takeRedraw | takeFaults => exact { similar with }
  | setSettings settings =>
    have same : settings.dialect = left.machine.dialect := by
      simpa [Request.isObservation] using observing
    exact { similar with dialect := same.trans similar.dialect }
  | _ => simp [Request.isObservation] at observing

theorem dialect_run (session : Session) (noise : Noise) (count : Nat) :
    (session.run noise count).machine.dialect = session.machine.dialect :=
  part_run Machine.dialect Machine.dialect_step session noise count

theorem dialect_perform (session : Session) (request : Request) :
    (session.perform request).1.machine.dialect = request.dialectAfter session.machine.dialect := by
  cases request with
  | step random => exact session.machine.dialect_step random
  | run count noise => exact session.dialect_run noise count
  | load program =>
    exact part_perform_load Machine.dialect (fun _ _ => rfl) session program
  | _ => rfl

theorem similar_performAll_noticeable (similar : left.machine.Similar right.machine)
    (request : Request) :
    (left.perform request).1.machine.Similar (right.performAll request.noticeable).machine := by
  cases request with
  | setSettings settings => exact { similar with dialect := rfl }
  | _ =>
    rw [Request.noticeable, performAll_single]
    · exact similar_perform similar _
    · simp

/-- A program cannot tell a run from its essential part. -/
theorem similar_performAll_essential (similar : left.machine.Similar right.machine)
    (requests : List Request) :
    (left.performAll requests).machine.Similar
      (right.performAll (Request.essential left.machine.dialect requests)).machine := by
  induction requests generalizing left right with
  | nil => exact similar
  | cons request rest ih =>
    rw [performAll_cons, Request.essential, performAll_append, ← dialect_perform]
    apply ih
    by_cases observing : request.isObservation left.machine.dialect = true
    · rw [if_pos observing]
      exact similar_perform_of_observation similar observing
    · rw [if_neg observing]
      exact similar_performAll_noticeable similar request

/-- Machines that a program cannot tell apart stay so under every request, wherever observations are put in
or left out. -/
theorem observation_unnoticed {left right : Session} (similar : left.machine.Similar right.machine) :
    (∀ request, (left.perform request).1.machine.Similar (right.perform request).1.machine ∧
      (request ≠ .takeRedraw → request ≠ .takeFaults →
        (left.perform request).2 = (right.perform request).2)) ∧
    (∀ random, (left.machine.step random).2 = (right.machine.step random).2) ∧
    (∀ request, request.isObservation left.machine.dialect = true →
      (left.perform request).1.machine.Similar right.machine ∧
        left.machine.Similar (right.perform request).1.machine) ∧
    (∀ before observation after,
      observation.isObservation (left.performAll before).machine.dialect = true →
      (left.performAll (before ++ observation :: after)).machine.Similar
        (right.performAll (before ++ after)).machine) ∧
    ∀ requests others,
      Request.essential left.machine.dialect requests =
        Request.essential left.machine.dialect others →
      (left.performAll requests).machine.Similar (right.performAll others).machine := by
  refine ⟨fun request => ⟨similar_perform similar request, reply_eq_of_similar similar⟩,
    similar.faults_step, ?_, ?_, ?_⟩
  · intro request observing
    refine ⟨similar_perform_of_observation similar observing, ?_⟩
    rw [similar.dialect] at observing
    exact (similar_perform_of_observation similar.symm observing).symm
  · intro before observation after observing
    rw [performAll_append, performAll_append, performAll_cons]
    have reached := similar_performAll similar before
    exact similar_performAll (similar_perform_of_observation reached observing) after
  · intro requests others same
    have first := similar_performAll_essential similar requests
    have second := similar_performAll_essential (.refl right.machine) others
    rw [← similar.dialect, ← same] at second
    exact first.trans second.symm

/-- A program that waits for a key, on a new machine. -/
def unwatched : Session :=
  ofMachine (.loaded {} [0xf0, 0x0a, 0x00, 0xee] (by decide))

/-- The same program on a machine that is traced and has a past: steps counted, a fault unread, the latch
set, old return addresses. -/
def watched : Session :=
  let machine : Machine := .loaded { tracing := true, waiting := true } [0xf0, 0x0a, 0x00, 0xee] (by decide)
  ofMachine { machine with
    cycle := 1000
    faults := FaultQueue.empty.push (.stackOverflow 0x300)
    screen := { Screen.blank with redraw := true }
    stack := { CallStack.empty with slots := Vector.replicate 16 0x345 } }

/-- A key, a return that fails, and observations of one machine between the steps of the other. -/
theorem observation_unnoticed_watched :
    let requests := [.step 0, .takeRedraw, .setKey 5 true, .setSettings { tracing := true }, .step 0,
      .takeFaults, .step 0]
    let others := [.setSettings {}, .takeFaults, .run 1 fun _ => 0, .setKey 5 true, .run 2 fun _ => 0]
    (unwatched.performAll requests).machine.Similar (watched.performAll others).machine := by
  have similar : unwatched.machine.Similar watched.machine := {
    dialect := rfl, memory := rfl, pixels := rfl, stack := .nil, pc := rfl, index := rfl
    registers := rfl, timers := rfl, keypad := rfl }
  obtain ⟨_, _, _, _, whole⟩ := observation_unnoticed similar
  exact whole _ _ rfl

end Session

end Chip8
