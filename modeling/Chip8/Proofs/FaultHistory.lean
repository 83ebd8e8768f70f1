import Chip8.Proofs.Effect
import Chip8.Proofs.Run
import Mathlib.Data.List.DropRight

namespace Chip8

namespace FaultQueue

/-- A fault that the queue has dropped makes no difference to the ones that it drops later. -/
theorem push_ofHistory (history : List Fault) (fault : Fault) :
    (ofHistory history).push fault = ofHistory (history ++ [fault]) := by
  let kept := history.drop (history.length - capacity) ++ [fault]
  have shortened : history.length - capacity ≤ history.length := Nat.sub_le _ _
  have dropped : history.length - capacity + (kept.length - capacity) =
      (history ++ [fault]).length - capacity := by
    simp only [kept, List.length_append, List.length_drop, List.length_singleton, capacity]
    omega
  have same : kept.drop (kept.length - capacity) =
      (history ++ [fault]).drop ((history ++ [fault]).length - capacity) := by
    rw [← dropped, ← List.drop_drop, List.drop_append_of_le_length shortened]
  simp only [push, ofHistory, FaultQueue.mk.injEq]
  exact same

theorem pushAll_ofHistory (history faults : List Fault) :
    (ofHistory history).pushAll faults = ofHistory (history ++ faults) := by
  induction faults generalizing history with
  | nil => rw [List.append_nil, pushAll, List.foldl_nil]
  | cons fault rest ih =>
    rw [pushAll, List.foldl_cons, push_ofHistory, ← pushAll, ih, List.append_assoc, List.singleton_append]

end FaultQueue

/-- The faults raised at that moment, oldest first. -/
def Moment.raised (moment : Moment) : List Fault :=
  match moment.request with
  | .step random => (moment.session.machine.step random).2
  | _ => []

/-- Whether the request leaves no fault unread. -/
def Request.emptiesQueue : Request → Bool
  | .takeFaults | .reset => true
  | _ => false

namespace Session

/-- All faults raised during a run, oldest first. -/
def raised (session : Session) (requests : List Request) : List Fault :=
  (session.history requests).flatMap Moment.raised

/-- The faults raised during a run since the queue was last emptied, oldest first. -/
def unread (session : Session) (requests : List Request) : List Fault :=
  ((session.history requests).rtakeWhile fun moment => !moment.request.emptiesQueue).flatMap
    Moment.raised

/-- The warnings in the log, oldest first. -/
def warnings (session : Session) : List LogRecord :=
  session.log.toList.filter fun entry => entry.level = .warning

section Moments

variable {moment : Moment}

theorem faults_moment (single : moment.request.IsSingle) :
    (moment.session.perform moment.request).1.machine.faults =
      if moment.request.emptiesQueue then .empty
      else moment.session.machine.faults.pushAll moment.raised := by
  obtain ⟨session, request⟩ := moment
  cases request with
  | step random => exact session.machine.faults_step random
  | run count noise => simp [Request.IsSingle, Request.isHost] at single
  | load program =>
    exact part_perform_load Machine.faults (fun _ _ => rfl) session program
  | _ => rfl

theorem warnings_moment (single : moment.request.IsSingle) :
    (moment.session.perform moment.request).1.warnings =
      moment.session.warnings ++ moment.raised.map .raised := by
  obtain ⟨session, request⟩ := moment
  cases request with
  | step random =>
    have warned (faults : List Fault) :
        (faults.map LogRecord.raised).filter (fun entry => entry.level = .warning) =
          faults.map LogRecord.raised := by
      simp [List.filter_eq_self, LogRecord.level]
    simp only [warnings, perform, step, Array.toList_appendList, List.filter_append, warned,
      Moment.raised]
  | run count noise => simp [Request.IsSingle, Request.isHost] at single
  | load program =>
    simp only [perform, load, Machine.load]
    cases session.machine.memory.load program with
    | error error => exact (List.append_nil _).symm
    | ok memory => simp [warnings, Except.map, Moment.raised, LogRecord.level]
  | _ => exact (List.append_nil _).symm

end Moments

theorem faults_performAll (session : Session) (fresh : session.machine.faults = .empty)
    (requests : List Request) :
    (session.performAll requests).machine.faults = .ofHistory (session.unread requests) := by
  apply history_past_invariant fun past current =>
    current.machine.faults =
      .ofHistory ((past.rtakeWhile fun moment => !moment.request.emptiesQueue).flatMap Moment.raised)
  case start => exact fresh
  case kept =>
    intro past moment single before
    rw [faults_moment single, before, List.rtakeWhile_concat]
    cases moment.request.emptiesQueue with
    | true => rfl
    | false => simp [FaultQueue.pushAll_ofHistory]

theorem warnings_performAll (session : Session) (requests : List Request) :
    (session.performAll requests).warnings =
      session.warnings ++ (session.raised requests).map .raised := by
  apply history_past_invariant fun past current =>
    current.warnings = session.warnings ++ (past.flatMap Moment.raised).map LogRecord.raised
  case start => simp
  case kept =>
    intro past moment single before
    rw [warnings_moment single, before]
    simp

/-- The queue holds the newest of the faults raised since it was last emptied, and the log the messages of
all that were ever raised. -/
theorem takeFaults_newest (settings : Settings) (requests : List Request) :
    let start := ofMachine (.new settings)
    let session := start.performAll requests
    let unread := start.unread requests
    (session.perform .takeFaults).2 =
        .faults (unread.drop (unread.length - min 64 unread.length)) ∧
      (session.perform .takeFaults).1.machine.faults.faults = [] ∧
      session.warnings.map LogRecord.message = (start.raised requests).map Fault.message := by
  intro start session unread
  refine ⟨?_, rfl, ?_⟩
  · have queued : session.machine.faults = .ofHistory unread := faults_performAll start rfl requests
    have count : unread.length - min 64 unread.length = unread.length - FaultQueue.capacity := by
      simp only [FaultQueue.capacity]
      omega
    rw [count]
    exact congrArg (fun queue => Reply.faults queue.faults) queued
  · have logged : session.warnings = (start.raised requests).map .raised := warnings_performAll start requests
    rw [logged, List.map_map]
    rfl

end Session

end Chip8
