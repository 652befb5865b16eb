import Librr.Logging

set_option autoImplicit false

namespace Librr

open Transition

/-- How the record path of a wrapper comes to its end: with a call that returns at
once, without a submission entry, with the value `rc` of a failed `io_uring_submit`,
or with the completion of the operation. -/
inductive Ending where
  | immediate (answer : Answer)
  | noSqe
  | unsubmitted (rc : Int32)
  | completed (res : Int32) (data : Bytes)

/-- What the caller gets and what is logged. Both failures of
`rr_io_submit_*_and_wait` give the wrapper a plain -1. -/
def Call.recorded (call : Call) : Ending → Option (CallResult × LogArgs)
  | .immediate answer =>
    match call.wrapper.issue answer with
    | .done result args => some (result, args)
    | .submit _ => none
  | .noSqe => call.wrapper.finish.map fun finish => finish (-1) []
  | .unsubmitted _ => call.wrapper.finish.map fun finish => finish (-1) []
  | .completed res data => call.wrapper.finish.map fun finish => finish res data

/-- The value the second half of the wrapper starts from, with the bytes stored for the call. -/
def Ending.raw : Ending → Option (Int32 × Bytes)
  | .immediate _ => none
  | .noSqe => some (-1, [])
  | .unsubmitted _ => some (-1, [])
  | .completed res data => some (res, data)

theorem Call.recorded_cases {call : Call} {ending : Ending} {result : CallResult} {args : LogArgs}
    (recorded : call.recorded ending = some (result, args)) :
    (∃ answer, ending = .immediate answer ∧ call.wrapper.issue answer = .done result args) ∨
    (∃ finish raw data, ending.raw = some (raw, data) ∧ call.wrapper.finish = some finish ∧
      finish raw data = (result, args)) := by
  cases ending with
  | immediate answer =>
      simp only [Call.recorded] at recorded
      split at recorded
      · rename_i done
        cases recorded
        exact Or.inl ⟨answer, rfl, done⟩
      · cases recorded
  | noSqe =>
      obtain ⟨finish, half, ended⟩ := Option.map_eq_some_iff.mp recorded
      exact Or.inr ⟨finish, -1, [], rfl, half, ended⟩
  | unsubmitted rc =>
      obtain ⟨finish, half, ended⟩ := Option.map_eq_some_iff.mp recorded
      exact Or.inr ⟨finish, -1, [], rfl, half, ended⟩
  | completed res data =>
      obtain ⟨finish, half, ended⟩ := Option.map_eq_some_iff.mp recorded
      exact Or.inr ⟨finish, res, data, rfl, half, ended⟩

namespace State

/-- The step in which the record path of a call ends, with the way it ends. -/
inductive Ends (program : Program) (s : State) : Input → Call → Ending → Prop where
  | immediate (answer : Answer) (ut : Ptr) (u : Uthread) (call : Call) (result : CallResult)
    (args : LogArgs) (user : s.sched.control = .user) (running : s.sched.running = some (ut, u))
    (next : program u.startFn u.ctx.replies = .call call)
    (done : call.wrapper.issue answer = .done result args) :
    Ends program s (.act answer) call (.immediate answer)
  | noSqe (answer : Answer) (ut : Ptr) (u : Uthread) (call : Call) (op : IoOp)
    (user : s.sched.control = .user) (running : s.sched.running = some (ut, u))
    (next : program u.startFn u.ctx.replies = .call call)
    (submits : call.wrapper.issue answer = .submit op) (filled : s.ring.sq.length = ringEntries) :
    Ends program s (.act answer) call .noSqe
  | unsubmitted (answer : Answer) (ut : Ptr) (u : Uthread) (call : Call) (op : IoOp) (rc : Int32)
    (user : s.sched.control = .user) (running : s.sched.running = some (ut, u))
    (next : program u.startFn u.ctx.replies = .call call)
    (submits : call.wrapper.issue answer = .submit op) (room : s.ring.sq.length ≠ ringEntries)
    (negative : rc < 0) (failed : answer.submit = !decide (rc < 0)) :
    Ends program s (.act answer) call (.unsubmitted rc)
  | completed (answer : WaitAnswer) (next : Ptr) (u : Uthread) (call : Call) (serial : Nat)
    (idle : s.sched.control = .scheduler) (head : s.sched.runqHead = some next)
    (found : s.sched.runqPopFront.2.heap next = some u) (runnable : u.state = .runnable)
    (inside : u.ctx.frame = .io call serial) :
    Ends program s (.loop answer) call (.completed u.ioResult (s.ring.written serial))

/-- The last event of the log and the last thing seen are those of the call. -/
structure Reports (t : State) (call : Call) (result : CallResult) (args : LogArgs) : Prop where
  seen : ∃ front, t.history = front ++ [.returned t.sched.currentId call result]
  logged : ∃ front, t.log = front ++ [⟨t.seq, t.sched.currentId, args.payload⟩]

end State

theorem Sched.reply_currentId (s : Sched) (ut : Ptr) (action : Action) (reply : Reply) :
    (s.reply ut action reply).currentId = s.currentId := by
  have current : (s.reply ut action reply).current = s.current := rfl
  simp only [Sched.currentId, Sched.running, current]
  cases s.current with
  | none => rfl
  | some cur =>
      have heap : (s.reply ut action reply).heap cur =
          if cur = ut then (s.heap cur).map fun u => { u with ctx := u.ctx.finish action reply }
          else s.heap cur := rfl
      rw [Option.bind_some, Option.bind_some, heap]
      cases s.heap cur with
      | none => simp
      | some u => by_cases here : cur = ut <;> simp [here]

namespace State

variable {program : Program} {s t : State}

theorem Records.reports (records : s.Records) (args : LogArgs) (ut : Ptr) (call : Call)
    (result : CallResult) :
    Reports ((s.rrLogSyscall args).returnCall ut call result) call result args := by
  rw [records.loggedReturn]
  refine ⟨⟨s.history, ?_⟩, ⟨s.log, ?_⟩⟩
  · rw [Sched.reply_currentId]
  · rw [Sched.reply_currentId]

/-- The running uthread calls a wrapped function. -/
theorem step_call {ut : Ptr} {u : Uthread} {call : Call} (ready : s.config.runtimeReady = true)
    (user : s.sched.control = .user) (running : s.sched.running = some (ut, u))
    (next : program u.startFn u.ctx.replies = .call call) (answer : Answer) :
    step program s (.act answer) = some (s.wrappedCall ut call answer) := by
  simp only [step, user, if_true, act, ready, running, Option.map_some, next, perform]

theorem Records.finishIo_reports (records : s.Records) {call : Call} (ut : Ptr) (raw : Int32)
    (data : Bytes) {finish : Int32 → Bytes → CallResult × LogArgs}
    (half : call.wrapper.finish = some finish) :
    Reports (s.finishIo ut call raw data) call (finish raw data).1 (finish raw data).2 := by
  rw [finishIo_eq half]
  exact records.reports _ _ _ _

/-- A resumed call is logged and returns with what its completion carried. -/
theorem Recording.resumed_reports (recording : s.Recording) {next : Ptr} {u : Uthread} {call : Call}
    {serial : Nat} (inside : u.ctx.frame = .io call serial)
    {finish : Int32 → Bytes → CallResult × LogArgs} (half : call.wrapper.finish = some finish) :
    Reports ((s.logSwitch u.id).switchTo s.sched.runqPopFront.2 next u) call
      (finish u.ioResult (s.ring.written serial)).1
      (finish u.ioResult (s.ring.written serial)).2 := by
  rw [switchTo_eq, recording.records.logSwitch, resume, inside]
  apply Records.finishIo_reports _ next u.ioResult (s.ring.written serial) half
  exact recording.records.of_same rfl rfl

/-- A step in which a call ends logs it and returns as its wrapper says. -/
theorem Ends.reports {input : Input} {call : Call} {ending : Ending} (recording : s.Recording)
    (ends : s.Ends program input call ending) (taken : step program s input = some t) :
    ∃ result args, call.recorded ending = some (result, args) ∧ Reports t call result args := by
  have records := recording.records
  cases ends with
  | immediate answer ut u _ result args user running next done =>
      rw [step_call records.ready user running next, wrappedCall, if_pos records.active, done]
        at taken
      cases taken
      refine ⟨result, args, ?_, records.reports _ _ _ _⟩
      rw [Call.recorded, done]
  | noSqe answer ut u _ op user running next submits filled =>
      obtain ⟨finish, half⟩ := Call.finish_of_submit submits
      rw [step_call records.ready user running next, wrappedCall, if_pos records.active,
        submits] at taken
      simp only [submitAndBlock, Ring.prepare, if_pos filled] at taken
      cases taken
      refine ⟨_, _, ?_, records.finishIo_reports ut (-1) [] half⟩
      rw [Call.recorded, half]
      rfl
  | unsubmitted answer ut u _ op rc user running next submits room negative failed =>
      obtain ⟨finish, half⟩ := Call.finish_of_submit submits
      have declined : answer.submit = false := by simp [failed, negative]
      rw [step_call records.ready user running next, wrappedCall, if_pos records.active,
        submits] at taken
      simp only [submitAndBlock, Ring.prepare, if_neg room, declined, Bool.false_eq_true,
        if_false] at taken
      cases taken
      refine ⟨_, _, ?_, Records.finishIo_reports ?_ ut (-1) [] half⟩
      · rw [Call.recorded, half]
        rfl
      · exact records.of_same rfl rfl
  | completed answer next u _ serial idle head found runnable inside =>
      have resumes := head_resumes recording.framed found runnable
      rw [inside] at resumes
      obtain ⟨_, _, submits⟩ := resumes
      obtain ⟨finish, half⟩ := Call.finish_of_submit submits
      have kind := (recording.step taken).1
      cases kind with
      | dispatch _ other v idle first same ready =>
          obtain rfl : other = next := Option.some.inj (first.symm.trans head)
          obtain rfl : v = u := Option.some.inj (same.symm.trans found)
          refine ⟨_, _, ?_, recording.resumed_reports inside half⟩
          rw [Call.recorded, half]
          rfl
      | _ => simp_all

end State

/-- The main thread makes one call. -/
def callOnce (call : Call) : Program
  | none, [] => .call call
  | _, _ => .ret

end Librr
