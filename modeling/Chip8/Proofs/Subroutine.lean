import Chip8.Proofs.Effect
import Chip8.Proofs.Image
import Chip8.Proofs.Run

namespace Chip8

namespace Machine

/-- A step keeps the lower part of the stack, unless the stack becomes shorter than that part. -/
theorem frame_step {frame : List Word} {machine : Machine} (random : Byte)
    (kept : frame <+: machine.stack.live)
    (deep : frame.length ≤ (machine.step random).1.stack.depth) :
    frame <+: (machine.step random).1.stack.live := by
  rw [stack_step] at deep ⊢
  cases decoded : machine.next? with
  | none => exact kept
  | some instruction =>
    rw [decoded] at deep
    cases instruction with
    | call target =>
      change frame <+: ((machine.stack.push? machine.pc).getD machine.stack).live
      cases pushed : machine.stack.push? machine.pc with
      | none => exact kept
      | some grown =>
        rw [Option.getD_some, CallStack.live_of_push? pushed]
        exact kept.trans (List.prefix_append _ _)
    | ret =>
      change frame.length ≤ ((machine.stack.pop?.map Prod.snd).getD machine.stack).depth at deep
      change frame <+: ((machine.stack.pop?.map Prod.snd).getD machine.stack).live
      cases popped : machine.stack.pop? with
      | none => exact kept
      | some entry =>
        obtain ⟨address, rest⟩ := entry
        rw [popped, Option.map_some, Option.getD_some] at deep
        rw [Option.map_some, Option.getD_some]
        rw [CallStack.live_of_pop? popped] at kept
        rw [← CallStack.length_live] at deep
        exact List.prefix_of_prefix_length_le kept (List.prefix_append _ _) deep
    | _ => exact kept

theorem step_of_call {machine : Machine} {target : Word} {grown : CallStack} (random : Byte)
    (calling : machine.next? = some (.call target))
    (pushed : machine.stack.push? machine.pc = some grown) :
    (machine.step random).1 =
      { machine.counted with pc := target, stack := grown, timers := machine.timers.tick } := by
  have called : machine.counted.call target =
      ({ machine.counted with pc := target, stack := grown }, []) := by
    simp only [call, counted, pushed]
  rw [step_of_next random calling]
  simp only [execute, called]
  rfl

theorem step_of_ret {machine : Machine} {address : Word} {rest : CallStack} (random : Byte)
    (returning : machine.next? = some .ret) (popped : machine.stack.pop? = some (address, rest)) :
    (machine.step random).1 =
      { machine.counted with pc := address + 2, stack := rest, timers := machine.timers.tick } := by
  have returned : machine.counted.ret =
      ({ machine.counted with pc := address, stack := rest }.advance, []) := by
    simp only [ret, counted, popped]
  rw [step_of_next random returning]
  simp only [execute, returned]
  rfl

end Machine

namespace Session

/-- Between steps a host leaves the stack alone, unless it resets the machine. -/
theorem stack_perform_of_host {session : Session} {request : Request} (host : request.isHost = true)
    (running : request ≠ .reset) :
    (session.perform request).1.machine.stack = session.machine.stack := by
  cases request with
  | reset => contradiction
  | step | run => simp [Request.isHost] at host
  | load program =>
    exact part_perform_load Machine.stack (fun _ _ => rfl) session program
  | _ => rfl

/-- The lower part of the stack outlives a run that never returns below it. -/
theorem frame_performAll {frame : List Word} {session : Session} {requests : List Request}
    (running : .reset ∉ requests) (start : frame <+: session.machine.stack.live)
    (nested : ∀ moment ∈ session.history requests,
      frame.length ≤ moment.session.machine.stack.depth)
    (last : frame.length ≤ (session.performAll requests).machine.stack.depth) :
    frame <+: (session.performAll requests).machine.stack.live := by
  -- A state below the frame makes no promise; the run visits none.
  let intact (current : Session) : Prop :=
    frame.length ≤ current.machine.stack.depth → frame <+: current.machine.stack.live
  have kept : intact (session.performAll requests) := by
    apply history_invariant intact (fun _ => start)
    intro moment member before deep
    have now : frame <+: moment.session.machine.stack.live := before (nested moment member)
    rcases request_of_mem_history member with ⟨random, stepping⟩ | ⟨present, host⟩
    · rw [stepping] at deep ⊢
      exact Machine.frame_step random now deep
    · have unreset : moment.request ≠ .reset := fun same => running (same ▸ present)
      rw [stack_perform_of_host host unreset]
      exact now
  exact kept last

/-- A return on the level of a call's own frame goes behind the call and restores the stack,
whatever the steps and the host did in between. -/
theorem ret_restores_call (session : Session) (atCall atReturn : Byte) (target : Word)
    (requests : List Request) (calling : session.machine.next? = some (.call target))
    (room : session.machine.stack.depth < 16) (running : .reset ∉ requests)
    (nested : ∀ moment ∈ (session.step atCall).history requests,
      session.machine.stack.depth + 1 ≤ moment.session.machine.stack.depth)
    (level : ((session.step atCall).performAll requests).machine.stack.depth =
      session.machine.stack.depth + 1)
    (returning : ((session.step atCall).performAll requests).machine.next? = some .ret) :
    let returned := (((session.step atCall).performAll requests).step atReturn).machine
    returned.pc = session.machine.pc + 2 ∧
      returned.stack.depth = session.machine.stack.depth ∧
      returned.stack.live = session.machine.stack.live := by
  intro returned
  let last := ((session.step atCall).performAll requests).machine
  let frame := session.machine.stack.live ++ [session.machine.pc]
  have frameLength : frame.length = session.machine.stack.depth + 1 := by
    simp [frame, CallStack.length_live]
  have entered : (session.step atCall).machine.stack.live = frame := by
    cases pushed : session.machine.stack.push? session.machine.pc with
    | none => exact absurd (CallStack.push?_eq_none_iff.mp pushed) (Nat.ne_of_lt room)
    | some grown =>
      have called := Machine.step_of_call atCall calling pushed
      exact (congrArg (·.stack.live) called).trans (CallStack.live_of_push? pushed)
  have kept : frame <+: last.stack.live := by
    apply frame_performAll running (entered ▸ List.prefix_refl frame)
    · simpa only [frameLength] using nested
    · exact Nat.le_of_eq (frameLength.trans level.symm)
  have whole : last.stack.live = frame := by
    refine (kept.eq_of_length ?_).symm
    rw [CallStack.length_live, frameLength]
    exact level.symm
  cases popped : last.stack.pop? with
  | none =>
    have empty := CallStack.pop?_eq_none_iff.mp popped
    exact absurd (level.symm.trans empty) (Nat.succ_ne_zero _)
  | some entry =>
    obtain ⟨address, rest⟩ := entry
    have split : rest.live ++ [address] = frame := (CallStack.live_of_pop? popped).symm.trans whole
    obtain ⟨restored, back⟩ := List.append_inj' split rfl
    have stepped : returned = _ := Machine.step_of_ret atReturn returning popped
    have sameDepth : rest.depth = session.machine.stack.depth := by
      rw [← CallStack.length_live, restored, CallStack.length_live]
    refine ⟨?_, ?_, ?_⟩
    · exact (congrArg Machine.pc stepped).trans (congrArg (· + 2) (List.singleton_inj.mp back))
    · exact (congrArg (·.stack.depth) stepped).trans sameDepth
    · exact (congrArg (·.stack.live) stepped).trans restored

/-- A call at the start of the program, to a subroutine whose first instruction calls its second
one, which is a return. -/
def nestedCalls : Session :=
  ofMachine (.loaded {} [0x22, 0x06, 0x00, 0x00, 0x00, 0x00, 0x22, 0x08, 0x00, 0xee] (by decide))

/-- The inner call, a key and the inner return come before the return that counts. -/
theorem ret_restores_call_nested :
    let last := (nestedCalls.step 0).performAll [.step 0, .setKey 3 true, .step 0]
    let returned := (last.step 0).machine
    returned.pc = nestedCalls.machine.pc + 2 ∧
      returned.stack.depth = nestedCalls.machine.stack.depth ∧
      returned.stack.live = nestedCalls.machine.stack.live := by
  apply ret_restores_call nestedCalls 0 0 0x206
  case calling => decide +kernel
  case room => decide
  case running => simp
  case nested =>
    intro moment member
    simp only [history, List.flatMap_cons, List.flatMap_nil, Request.single, List.append_nil,
      List.cons_append, List.nil_append, moments, List.mem_cons, List.not_mem_nil, or_false] at member
    rcases member with rfl | rfl | rfl <;> decide +kernel
  case level => decide +kernel
  case returning => decide +kernel

end Session

end Chip8
