import Chip8.Proofs.Frame
import Chip8.Proofs.Run
import Mathlib.Data.List.DropRight

namespace Chip8

/-- An instruction that draws runs at that moment. -/
def Moment.Draws (moment : Moment) : Prop :=
  ∃ instruction, moment.executed? = some instruction ∧ instruction.draws = true

theorem Moment.draws_iff {moment : Moment} :
    moment.Draws ↔ moment.executed? = some .clearScreen ∨
      ∃ x y rows, moment.executed? = some (.draw x y rows) := by
  constructor
  · rintro ⟨instruction, executed, draws⟩
    cases instruction with
    | clearScreen => exact .inl executed
    | draw x y rows => exact .inr ⟨x, y, rows, executed⟩
    | _ => contradiction
  · rintro (executed | ⟨x, y, rows, executed⟩)
    · exact ⟨_, executed, rfl⟩
    · exact ⟨_, executed, rfl⟩

/-- Whether the latch is clear after the request whatever it was before. -/
def Request.clearsLatch : Request → Bool
  | .reset | .takeRedraw => true
  | _ => false

namespace Moment

/-- The moments since the machine was made, or since its latch was last cleared. -/
def sinceCleared (past : List Moment) : List Moment :=
  past.rtakeWhile fun moment => !moment.request.clearsLatch

section Concat

variable (past : List Moment) {moment : Moment}

theorem sinceCleared_concat_of_clears (clearing : moment.request.clearsLatch = true) :
    sinceCleared (past ++ [moment]) = [] := by
  simp [sinceCleared, clearing]

theorem sinceCleared_concat_of_keeps (kept : moment.request.clearsLatch = false) :
    sinceCleared (past ++ [moment]) = sinceCleared past ++ [moment] := by
  simp [sinceCleared, kept]

end Concat

end Moment

/-- Something is drawn during the run. -/
def Session.Drew (session : Session) (requests : List Request) : Prop :=
  ∃ moment ∈ session.history requests, moment.Draws

namespace Machine

theorem screen_step_of_not_draws {machine : Machine} (random : Byte)
    (still : ∀ instruction, machine.next? = some instruction → instruction.draws = false) :
    (machine.step random).1.screen = machine.screen :=
  Screen.ext_redraw (machine.sameIn_step random .pixels still) (machine.sameIn_step random .latch still)

theorem redraw_step_of_draws {machine : Machine} {instruction : Instruction} (random : Byte)
    (decoded : machine.next? = some instruction) (drawing : instruction.draws = true) :
    (machine.step random).1.screen.redraw = true := by
  simp [redraw_step, decoded, drawing]

end Machine

namespace Session

/-- Between steps a host touches the screen by a reset or by reading the latch only. -/
theorem screen_perform_of_host {session : Session} {request : Request} (host : request.isHost = true)
    (running : request ≠ .reset) (unread : request ≠ .takeRedraw) :
    (session.perform request).1.machine.screen = session.machine.screen := by
  cases request with
  | reset | takeRedraw => contradiction
  | step | run => simp [Request.isHost] at host
  | load program =>
    exact part_perform_load Machine.screen (fun _ _ => rfl) session program
  | _ => rfl

section Running

variable {session : Session} {requests : List Request} {moment : Moment}

theorem screen_moment_of_not_draws (member : moment ∈ session.history requests)
    (running : moment.request ≠ .reset) (unread : moment.request ≠ .takeRedraw)
    (still : ¬ moment.Draws) :
    (moment.session.perform moment.request).1.machine.screen = moment.session.machine.screen := by
  rcases request_of_mem_history member with ⟨random, stepping⟩ | ⟨_, host⟩
  · rw [stepping]
    refine Machine.screen_step_of_not_draws random fun instruction decoded => ?_
    refine Bool.eq_false_iff.mpr fun drawing => still ⟨instruction, ?_, drawing⟩
    rw [Moment.executed?, stepping]
    exact decoded
  · exact screen_perform_of_host host running unread

theorem redraw_moment_of_draws (drawing : moment.Draws) :
    (moment.session.perform moment.request).1.machine.screen.redraw = true := by
  obtain ⟨instruction, executed, draws⟩ := drawing
  unfold Moment.executed? at executed
  split at executed
  · rename_i random stepping
    rw [stepping]
    exact Machine.redraw_step_of_draws random executed draws
  · contradiction

/-- Without a reset and without a look at the latch, a run that draws nothing leaves the screen as
it is. -/
theorem screen_performAll_of_not_drew (running : .reset ∉ requests) (unread : .takeRedraw ∉ requests)
    (still : ¬ session.Drew requests) :
    (session.performAll requests).machine.screen = session.machine.screen := by
  apply history_invariant (·.machine.screen = session.machine.screen) rfl
  intro moment member same
  have unreset := request_ne_of_mem_history member running rfl
  have unlooked := request_ne_of_mem_history member unread rfl
  have quiet : ¬ moment.Draws := fun drawing => still ⟨moment, member, drawing⟩
  exact (screen_moment_of_not_draws member unreset unlooked quiet).trans same

/-- Without a reset and without a look at the latch, a run that draws ends with the latch set. -/
theorem redraw_performAll_of_drew (running : .reset ∉ requests) (unread : .takeRedraw ∉ requests)
    (drew : session.Drew requests) :
    (session.performAll requests).machine.screen.redraw = true := by
  obtain ⟨drawn, member, drawing⟩ := drew
  obtain ⟨before, after, whole, reached⟩ := split_of_mem_moments member
  have rest : session.performAll requests = (drawn.session.perform drawn.request).1.performAll after := by
    rw [← performAll_flatMap_single, whole, performAll_append, performAll_cons, reached]
  rw [rest]
  -- The latch is set by the drawing moment, and no later one clears it.
  apply moments_invariant (·.machine.screen.redraw = true) (redraw_moment_of_draws drawing)
  intro moment later set
  have present : moment ∈ session.history requests := by
    rw [history, whole, moments_append, ← reached]
    exact List.mem_append_right _ (List.mem_cons_of_mem _ later)
  by_cases draws : moment.Draws
  · exact redraw_moment_of_draws draws
  · have unreset := request_ne_of_mem_history present running rfl
    have unlooked := request_ne_of_mem_history present unread rfl
    rw [screen_moment_of_not_draws present unreset unlooked draws]
    exact set

/-- A run that draws nothing and starts with the latch clear ends with it clear, whether it resets
or not. -/
theorem redraw_performAll_of_not_drew (unread : .takeRedraw ∉ requests)
    (still : ¬ session.Drew requests) (clear : session.machine.screen.redraw = false) :
    (session.performAll requests).machine.screen.redraw = false := by
  apply history_invariant (·.machine.screen.redraw = false) clear
  intro moment member before
  have unlooked := request_ne_of_mem_history member unread rfl
  have quiet : ¬ moment.Draws := fun drawing => still ⟨moment, member, drawing⟩
  by_cases resetting : moment.request = .reset
  · rw [resetting]
    rfl
  · rw [screen_moment_of_not_draws member resetting unlooked quiet]
    exact before

end Running

/-- A host that has just made the machine, or has just looked at the latch. -/
def LooksFresh (session : Session) : Prop :=
  (∃ settings, session = ofMachine (.new settings)) ∨
    ∃ earlier : Session, session = (earlier.perform .takeRedraw).1

theorem redraw_of_looksFresh {session : Session} (fresh : session.LooksFresh) :
    session.machine.screen.redraw = false := by
  rcases fresh with ⟨settings, rfl⟩ | ⟨earlier, rfl⟩ <;> rfl

private theorem last_split {α : Type} {element : α} {list : List α} (member : element ∈ list) :
    ∃ before after, list = before ++ element :: after ∧ element ∉ after := by
  obtain ⟨after, before, same, absent⟩ :=
    List.eq_append_cons_of_mem (List.mem_reverse.mpr member)
  refine ⟨before.reverse, after.reverse, ?_, by simpa using absent⟩
  simpa using congrArg List.reverse same

/-- A host that finds another picture than at its last look is told so, if and only if something was
drawn after every reset in between. -/
theorem takeRedraw_tells_iff (session : Session) (requests : List Request)
    (fresh : session.LooksFresh) (unread : .takeRedraw ∉ requests)
    (changed : (session.performAll requests).machine.screen.pixels ≠ session.machine.screen.pixels) :
    ((session.performAll requests).perform .takeRedraw).2 = .flag true ↔
      ∀ before after, requests = before ++ .reset :: after →
        (session.performAll (before ++ [.reset])).Drew after := by
  have clear := redraw_of_looksFresh fresh
  have told : ((session.performAll requests).perform .takeRedraw).2 =
      .flag (session.performAll requests).machine.screen.redraw := rfl
  have resumed (before after : List Request) (same : requests = before ++ .reset :: after) :
      session.performAll requests = (session.performAll (before ++ [.reset])).performAll after := by
    rw [← performAll_append, same, List.append_assoc, List.singleton_append]
  have darkened (before : List Request) :
      (session.performAll (before ++ [.reset])).machine.screen.redraw = false := by
    rw [performAll_append]
    rfl
  rw [told]
  constructor
  · intro set before after same
    refine Classical.byContradiction fun still => ?_
    have unreadAfter : .takeRedraw ∉ after := fun member => unread (by simp [same, member])
    have off := redraw_performAll_of_not_drew unreadAfter still (darkened before)
    rw [← resumed before after same] at off
    simp [off] at set
  · intro drawn
    refine congrArg Reply.flag ?_
    by_cases resetting : .reset ∈ requests
    · obtain ⟨before, after, same, running⟩ := last_split resetting
      have unreadAfter : .takeRedraw ∉ after := fun member => unread (by simp [same, member])
      rw [resumed before after same]
      exact redraw_performAll_of_drew running unreadAfter (drawn before after same)
    · refine redraw_performAll_of_drew resetting unread (Classical.byContradiction fun still => ?_)
      exact changed (congrArg Screen.pixels (screen_performAll_of_not_drew resetting unread still))

/-- The host has seen the first glyph row on the screen. -/
def seenGlyph : Session :=
  (((ofMachine (.loaded {} [0xd0, 0x01, 0x12, 0x02] (by decide))).step 0).perform .takeRedraw).1

/-- A reset takes the glyph away, and the host is not told. -/
theorem takeRedraw_misses_reset :
    ((seenGlyph.performAll [.reset]).perform .takeRedraw).2 ≠ .flag true := by
  intro told
  have changed : (seenGlyph.performAll [.reset]).machine.screen.pixels ≠
      seenGlyph.machine.screen.pixels := by
    intro same
    have corner : (seenGlyph.performAll [.reset]).machine.screen.pixels[0] =
        seenGlyph.machine.screen.pixels[0] := by rw [same]
    revert corner
    decide +kernel
  have exactly := takeRedraw_tells_iff seenGlyph [.reset] (.inr ⟨_, rfl⟩) (by simp) changed
  obtain ⟨moment, member, _⟩ := exactly.mp told [] [] rfl
  simp [history, moments] at member

/-- Without a request that clears it, the latch is set by drawing and by nothing else. -/
theorem redraw_moment_iff {moment : Moment} (single : moment.request.IsSingle)
    (kept : moment.request.clearsLatch = false) :
    (moment.session.perform moment.request).1.machine.screen.redraw = true ↔
      moment.session.machine.screen.redraw = true ∨ moment.Draws := by
  obtain ⟨session, request⟩ := moment
  rcases single with ⟨random, rfl⟩ | host
  · rw [machine_perform_step, Machine.redraw_step, Bool.or_eq_true, Option.any_eq_true, or_comm]
    exact Iff.rfl
  · have running : request ≠ .reset := fun same => by simp [same, Request.clearsLatch] at kept
    have unread : request ≠ .takeRedraw := fun same => by simp [same, Request.clearsLatch] at kept
    have still : ¬ Moment.Draws ⟨session, request⟩ := by
      rintro ⟨instruction, executed, _⟩
      cases request with
      | step => contradiction
      | _ => simp [Moment.executed?] at executed
    rw [screen_perform_of_host host running unread, or_iff_left still]

theorem redraw_moment_of_clears {moment : Moment} (clearing : moment.request.clearsLatch = true) :
    (moment.session.perform moment.request).1.machine.screen.redraw = false := by
  obtain ⟨session, request⟩ := moment
  cases request with
  | reset | takeRedraw => rfl
  | _ => contradiction

/-- The latch of a new machine is set exactly when something has been drawn since it was last cleared. -/
theorem redraw_performAll_iff (settings : Settings) (requests : List Request) :
    ((ofMachine (.new settings)).performAll requests).machine.screen.redraw = true ↔
      ∃ moment ∈ Moment.sinceCleared ((ofMachine (.new settings)).history requests), moment.Draws := by
  refine history_past_invariant (fun past current => current.machine.screen.redraw = true ↔
    ∃ moment ∈ Moment.sinceCleared past, moment.Draws) ?_ ?_ requests
  · intro past moment single before
    cases clears : moment.request.clearsLatch with
    | true => simp [redraw_moment_of_clears clears, Moment.sinceCleared_concat_of_clears past clears]
    | false =>
      rw [redraw_moment_iff single clears, before, Moment.sinceCleared_concat_of_keeps past clears]
      simp only [List.mem_append, List.mem_singleton, or_and_right, exists_or, exists_eq_left]
  · have dark : (ofMachine (.new settings)).machine.screen.redraw = false := rfl
    simp [dark, Moment.sinceCleared]

/-- A look at the latch tells of drawing exactly when a step has drawn since the machine was made, last
reset or last looked at. -/
theorem takeRedraw_exact (settings : Settings) (requests : List Request) :
    let session := (ofMachine (.new settings)).performAll requests
    let recent := Moment.sinceCleared ((ofMachine (.new settings)).history requests)
    ((session.perform .takeRedraw).2 = .flag true ↔
        ∃ moment ∈ recent, moment.executed? = some .clearScreen ∨
          ∃ x y rows, moment.executed? = some (.draw x y rows)) ∧
      ((session.perform .takeRedraw).2 = .flag false ↔ ¬ (session.perform .takeRedraw).2 = .flag true) ∧
      ((session.perform .takeRedraw).1.perform .takeRedraw).2 = .flag false := by
  intro session recent
  have told : (session.perform .takeRedraw).2 = .flag session.machine.screen.redraw := rfl
  refine ⟨?_, ?_, rfl⟩
  · rw [told, Reply.flag.injEq, redraw_performAll_iff]
    simp only [Moment.draws_iff]
    exact Iff.rfl
  · rw [told, Reply.flag.injEq, Reply.flag.injEq, Bool.not_eq_true]

end Session

end Chip8
