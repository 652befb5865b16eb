import Librr.Durability
import Librr.Endings

set_option autoImplicit false

namespace Librr

open Transition

/-- The code of the failure an ending stands for, and `none` for a success. Only
`nanosleep` can fail before it asks for a submission entry. -/
def Ending.code (call : Call) : Ending → Option Int32
  | .noSqe => some Errno.EAGAIN
  | .unsubmitted rc => some (-rc)
  | .completed res _ => if res < 0 then some (-res) else none
  | .immediate answer =>
    match call with
    | .nanosleep req _ =>
      match answer.timerfdCreate with
      | .error errno => some errno
      | .ok _ => answer.timerfdSettime req
    | _ => none

/-- The two failures of `rr_io_submit_*_and_wait` come back as -1, which the wrapper
takes for the code EPERM. -/
def Ending.shown (code : Int32) : Ending → Int32
  | .noSqe => 1
  | .unsubmitted _ => 1
  | .completed _ _ => code
  | .immediate _ => code

/-- The caller sees -1 with the code in `errno`, and the logged result is minus the code. -/
structure Call.Fails (call : Call) (code : Int32) (result : CallResult) (args : LogArgs) :
    Prop where
  ret : result.ret = -1
  errno : result.errno = some code
  nr : args.nr = call.number
  retval : args.retval = -code

namespace State

/-- The last call that returned failed with the code, for its caller and in the log. -/
structure Reported (t : State) (call : Call) (code : Int32) : Prop where
  seen : ∃ front out second, t.history =
    front ++ [.returned t.sched.currentId call ⟨-1, some code, out, second⟩]
  logged : ∃ front arg0 data dataLen, t.log =
    front ++ [⟨t.seq, t.sched.currentId, .syscall call.number (-code) arg0 data dataLen⟩]

theorem Reports.reported_iff {t : State} {call : Call} {result : CallResult} {args : LogArgs}
    (reports : Reports t call result args) (code : Int32) :
    t.Reported call code ↔ call.Fails code result args := by
  obtain ⟨⟨earlier, seen⟩, ⟨before, logged⟩⟩ := reports
  constructor
  · rintro ⟨⟨_, out, second, said⟩, ⟨_, arg0, data, dataLen, written⟩⟩
    rw [seen] at said
    rw [logged] at written
    have result_eq := List.append_inj_right' said rfl
    have event_eq := List.append_inj_right' written rfl
    simp only [List.cons.injEq, Observation.returned.injEq, and_true, true_and] at result_eq
    simp only [LogArgs.payload, List.cons.injEq, Event.mk.injEq, Payload.syscall.injEq, and_true,
      true_and] at event_eq
    refine ⟨?_, ?_, event_eq.1, event_eq.2.1⟩
    · rw [result_eq]
    · rw [result_eq]
  · rintro ⟨ret, errno, nr, retval⟩
    refine ⟨⟨earlier, result.out, result.second, ?_⟩, ⟨before, args.arg0,
      .ofBytes ((args.data.getD []).take args.capped), UInt32.ofNat args.capped, ?_⟩⟩
    · rw [seen, ← ret, ← errno]
    · rw [logged, LogArgs.payload, nr, retval]

end State

/-- The second half of each asynchronous wrapper keeps the code of a negative result. -/
theorem Call.finish_fails {call : Call} {finish : Int32 → Bytes → CallResult × LogArgs}
    (half : call.wrapper.finish = some finish) {code : Int32} (positive : 0 < code)
    (data : Bytes) : call.Fails code (finish (-code) data).1 (finish (-code) data).2 := by
  have raw := rawToSsize_failed positive
  have negative := neg_errno_lt positive
  cases call <;> cases half <;>
    constructor <;>
    simp [Call.number, rawToInt, raw, negative, failure, Int32.neg_neg]

theorem Wrapper.nanosleep_fails {req : Timespec} {rem : Option Bytes} {answer : Answer}
    {code : Int32} {result : CallResult} {args : LogArgs}
    (failed : Ending.code (.nanosleep req rem) (.immediate answer) = some code)
    (done : (Wrapper.nanosleep req rem).issue answer = .done result args) :
    (Call.nanosleep req rem).Fails code result args := by
  simp only [Ending.code] at failed
  simp only [Wrapper.nanosleep] at done
  split at done
  · rename_i errno created
    simp only [created, Option.some.injEq] at failed
    cases done
    subst failed
    exact ⟨rfl, rfl, rfl, rfl⟩
  · rename_i tfd created
    simp only [created] at failed
    rw [failed] at done
    cases done
    exact ⟨rfl, rfl, rfl, rfl⟩

/-- The code a failed call shows, through whatever layers it went. -/
theorem Call.recorded_fails {call : Call} {ending : Ending} {code : Int32} {result : CallResult}
    {args : LogArgs} (failed : ending.code call = some code) (positive : 0 < code)
    (recorded : call.recorded ending = some (result, args)) :
    call.Fails (ending.shown code) result args := by
  rcases Call.recorded_cases recorded with ⟨answer, rfl, done⟩ |
    ⟨finish, raw, data, value, half, ended⟩
  · cases call with
    | nanosleep req rem => exact Wrapper.nanosleep_fails failed done
    | _ => cases failed
  · have negated : raw = -ending.shown code ∧ 0 < ending.shown code := by
      cases ending with
      | immediate answer => cases value
      | noSqe | unsubmitted rc =>
          cases value
          exact ⟨rfl, show (0 : Int32) < 1 by decide⟩
      | completed res stored =>
          cases value
          simp only [Ending.code, Option.ite_none_right_eq_some, Option.some.injEq] at failed
          rw [Ending.shown, ← failed.2, Int32.neg_neg]
          exact ⟨rfl, failed.2 ▸ positive⟩
    have fails := Call.finish_fails half negated.2 data
    rwa [← negated.1, ended] at fails

theorem Call.Fails.code_eq {call : Call} {code other : Int32} {result : CallResult}
    {args : LogArgs} (fails : call.Fails code result args) :
    call.Fails other result args ↔ other = code := by
  constructor
  · intro again
    exact Option.some.inj (again.errno.symm.trans fails.errno)
  · rintro rfl
    exact fails

/-- Without a submission entry the code would have to be EPERM, and it is EAGAIN. -/
theorem Ending.shown_eq_iff {call : Call} {ending : Ending} {code : Int32}
    (failed : ending.code call = some code) :
    code = ending.shown code ↔ ending ≠ .noSqe ∧ ∀ rc, ending = .unsubmitted rc → rc = -1 := by
  cases ending with
  | noSqe =>
      cases failed
      simp [Ending.shown, Errno.EAGAIN]
  | unsubmitted rc =>
      cases failed
      have negated : -rc = 1 ↔ rc = -1 := by
        constructor
        · intro one
          rw [← one, Int32.neg_neg]
        · rintro rfl
          rfl
      simp [Ending.shown, negated]
  | completed res data => simp [Ending.shown]
  | immediate answer => simp [Ending.shown]

/-- A result as it is seen behind an append that leaves this in `errno`. -/
def CallResult.behind (result : CallResult) : Option Int32 → CallResult
  | none => result
  | some errno => result.withErrno errno

theorem State.Reports.withErrno {t : State} {call : Call} {result : CallResult} {args : LogArgs}
    (reports : Reports t call result args) (errno : Option Int32) :
    Reports (t.withErrno errno) call (result.behind errno) args := by
  obtain ⟨⟨front, seen⟩, ⟨before, logged⟩⟩ := reports
  cases errno with
  | none => exact ⟨⟨front, seen⟩, ⟨before, logged⟩⟩
  | some errno =>
      have same : (t.withErrno (some errno)).sched.currentId = t.sched.currentId :=
        Sched.withErrno_currentId errno t.sched
      refine ⟨⟨front, ?_⟩, ⟨before, ?_⟩⟩
      · rw [same]
        simp only [State.withErrno, seen, List.modifyLast_concat]
        rfl
      · rw [same]
        exact logged

/-- A failure is seen with its code exactly if the code is shown and the append of its record
leaves no other one. -/
theorem Call.Fails.behind_iff {call : Call} {code shown : Int32} {result : CallResult}
    {args : LogArgs} (fails : call.Fails shown result args) (errno : Option Int32) :
    call.Fails code (result.behind errno) args ↔
      code = shown ∧ ∀ left, errno = some left → left = code := by
  have negated : args.retval = -code → code = shown := fun logged =>
    calc code
      _ = - -code := Int32.neg_neg.symm
      _ = -args.retval := by rw [logged]
      _ = shown := by rw [fails.retval, Int32.neg_neg]
  cases errno with
  | none => simpa [CallResult.behind] using fails.code_eq
  | some left =>
      have seen : (result.withErrno left).errno = some left := by
        rw [CallResult.withErrno, fails.errno]
        rfl
      constructor
      · intro again
        have same : left = code := Option.some.inj (seen.symm.trans again.errno)
        refine ⟨negated again.retval, fun other given => ?_⟩
        cases given
        exact same
      · rintro ⟨rfl, same⟩
        refine ⟨fails.ret, ?_, fails.nr, fails.retval⟩
        rw [← same left rfl]
        exact seen

namespace Journaled

theorem recording_of_exec {program : Program} {stackSize : Nat} {signalFd : Int32}
    {recorder : Recorder} {inputs : List (Input × List (List WriteAnswer))} {j : Journaled}
    (reached : exec (Journaled.step program) (start stackSize signalFd recorder) inputs = some j) :
    j.process.Recording := by
  refine @exec_invariant _ _ _ (fun j : Journaled => j.process.Recording) _ _ _ ?_
    (State.recordStart_recording stackSize signalFd) reached
  intro before input after taken recording
  unfold Journaled.step at taken
  split at taken
  · cases taken
  · obtain ⟨t, moved, rfl⟩ := Option.map_eq_some_iff.mp taken
    exact (recording.step moved).2.withErrno _

/-- A failing call of a recorded run shows the code of its failure, to the caller and in the
log, exactly if the failure is neither a missing submission entry nor an `io_uring_submit`
that fails with another code than EPERM, and the append of its record, which may flush the
log, leaves no other code in `errno`. -/
theorem failure_code_survives_iff {program : Program} {stackSize : Nat} {signalFd : Int32}
    {recorder : Recorder} {inputs : List (Input × List (List WriteAnswer))} {j next : Journaled}
    {input : Input × List (List WriteAnswer)} {call : Call} {ending : Ending} {code : Int32}
    (reached : exec (Journaled.step program) (start stackSize signalFd recorder) inputs = some j)
    (ends : j.process.Ends program input.1 call ending)
    (taken : j.step program input = some next)
    (failed : ending.code call = some code) (positive : 0 < code) :
    next.process.Reported call code ↔
      (ending ≠ .noSqe ∧ ∀ rc, ending = .unsubmitted rc → rc = -1) ∧
        ∀ left, j.recorder.errnoLeft (j.answered next.process input.2) = some left →
          left = code := by
  unfold Journaled.step at taken
  split at taken
  · cases taken
  obtain ⟨t, moved, rfl⟩ := Option.map_eq_some_iff.mp taken
  obtain ⟨result, args, recorded, reports⟩ := ends.reports (recording_of_exec reached) moved
  have fails := Call.recorded_fails failed positive recorded
  have same : j.answered (t.withErrno (j.recorder.errnoLeft (j.answered t input.2))) input.2 =
      j.answered t input.2 := by rw [answered, calls_withErrno, answered]
  rw [same, ← Ending.shown_eq_iff failed]
  exact ((reports.withErrno _).reported_iff code).trans (fails.behind_iff _)

/-- `io_uring_submit` fails with EBUSY: the caller of `close` sees EPERM, and so does the log. -/
theorem busy_submission_shows_eperm : ∃ recorder next,
    Recorder.rrRecordInit 0 7 [.accepted 24] = some recorder ∧
    (start 4096 7 recorder).process.Ends (callOnce (.close 3))
      (.act { Answer.calm with submit := false }) (.close 3) (.unsubmitted (-16)) ∧
    Journaled.step (callOnce (.close 3)) (start 4096 7 recorder)
      (.act { Answer.calm with submit := false }, []) = some next ∧
    Ending.code (.close 3) (.unsubmitted (-16)) = some 16 ∧
    next.process.history =
      [.issued 0, .failed 1, .returned 1 (.close 3) ⟨-1, some 1, none, none⟩] ∧
    next.process.log.map Event.payload = [.sched 0 1, .syscall Nr.close (-1) 3 (.ofBytes []) 0] ∧
    ¬ next.process.Reported (.close 3) 16 := by
  have header : Recorder.rrRecordInit 0 7 [.accepted 24] =
      some ⟨(Header.recorded 0 7).encode, [], 0, false, []⟩ := by decide +kernel
  have ran : (Journaled.step (callOnce (.close 3))
      (start 4096 7 ⟨(Header.recorded 0 7).encode, [], 0, false, []⟩)
      (.act { Answer.calm with submit := false }, [])).map
        (fun next => (next.process.history, next.process.log.map Event.payload)) =
      some ([.issued 0, .failed 1, .returned 1 (.close 3) ⟨-1, some 1, none, none⟩],
        [.sched 0 1, .syscall Nr.close (-1) 3 (.ofBytes []) 0]) := by
    decide +kernel
  obtain ⟨next, taken, facts⟩ := Option.map_eq_some_iff.mp ran
  obtain ⟨history, log⟩ := Prod.mk.inj facts
  refine ⟨_, next, header, ?_, taken, rfl, history, log, ?_⟩
  · exact .unsubmitted _ 0 { Uthread.zeroed with id := 1, state := .running } _ (.close 3) _
      rfl rfl rfl rfl (by decide) (by decide) (by decide)
  · rintro ⟨⟨front, out, second, seen⟩, -⟩
    rw [history] at seen
    have last := congrArg List.getLast? seen
    rw [List.getLast?_append_of_ne_nil _ (List.cons_ne_nil _ _)] at last
    obtain ⟨_, _, same⟩ := Observation.returned.inj (Option.some.inj last)
    have codes : some 1 = some (16 : Int32) := congrArg CallResult.errno same
    exact absurd codes (by decide)

/-- A `timerfd_create` that fails with EMFILE is reported as such while the ring has room. -/
theorem failed_timer_shows_emfile : ∃ recorder next,
    Recorder.rrRecordInit 0 7 [.accepted 24] = some recorder ∧
    Journaled.step (callOnce (.nanosleep ⟨1, 0⟩ none)) (start 4096 7 recorder)
      (.act { Answer.calm with timerfdCreate := .error 24 }, [[.failed Errno.ENOSPC]]) =
        some next ∧
    next.process.Reported (.nanosleep ⟨1, 0⟩ none) 24 := by
  have header : Recorder.rrRecordInit 0 7 [.accepted 24] =
      some ⟨(Header.recorded 0 7).encode, [], 0, false, []⟩ := by decide +kernel
  set begun := start 4096 7 ⟨(Header.recorded 0 7).encode, [], 0, false, []⟩ with origin
  have ran : (Journaled.step (callOnce (.nanosleep ⟨1, 0⟩ none)) begun
      (.act { Answer.calm with timerfdCreate := .error 24 }, [[.failed Errno.ENOSPC]])).map
        (fun next => begun.recorder.errnoLeft
          (begun.answered next.process [[.failed Errno.ENOSPC]])) = some none := by
    rw [origin]
    decide +kernel
  obtain ⟨next, taken, silent⟩ := Option.map_eq_some_iff.mp ran
  have ends : State.Ends (callOnce (.nanosleep ⟨1, 0⟩ none)) (.recordStart 4096 7)
      (.act { Answer.calm with timerfdCreate := .error 24 }) (.nanosleep ⟨1, 0⟩ none)
      (.immediate { Answer.calm with timerfdCreate := .error 24 }) :=
    .immediate _ 0 { Uthread.zeroed with id := 1, state := .running } _ _ _ rfl rfl rfl rfl
  refine ⟨_, next, header, taken, ?_⟩
  apply (failure_code_survives_iff (exec_nil _ _) ends taken rfl (by decide)).mpr
  refine ⟨by simp, fun left other => ?_⟩
  rw [silent] at other
  cases other

end Journaled

end Librr
