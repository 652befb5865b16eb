import Librr.Frames
import Librr.History
import Librr.RingFacts
import Librr.WrapperFacts

set_option autoImplicit false

namespace Librr

open Transition

namespace State

section Equations

variable {s : State}

theorem Records.active (records : s.Records) : s.config.rrActive = true := by
  simp [Config.rrActive, records.modeRecord, records.ready]

theorem Records.of_same (records : s.Records) {t : State} (config : t.config = s.config)
    (ring : t.ring.ready = s.ring.ready) : t.Records := by
  refine ⟨?_, ?_, ?_, ring.trans records.ring⟩
  · rw [config, records.modeRecord]
  · rw [config, records.modeReplay]
  · rw [config, records.ready]

theorem Records.logSyscall (records : s.Records) (args : LogArgs) :
    s.rrLogSyscall args = s.appendEvent s.sched.currentId args.payload :=
  if_pos records.active

theorem Records.logSignal (records : s.Records) (signo activeUthread : UInt32) :
    s.rrLogSignal signo activeUthread =
      s.appendEvent s.sched.currentId (.signal signo activeUthread) :=
  if_pos records.active

theorem Records.logSched (records : s.Records) (fromId toId : UInt64) :
    s.rrLogSched fromId toId = s.appendEvent toId (.sched fromId toId) :=
  if_pos records.modeRecord

/-- A call that returns at once: its event, its reply, and what is seen of it. -/
theorem Records.loggedReturn (records : s.Records) (args : LogArgs) (ut : Ptr) (call : Call)
    (result : CallResult) :
    (s.rrLogSyscall args).returnCall ut call result =
      { s with
        sched := s.sched.reply ut (.call call) (.returned result)
        seq := s.seq + 1
        log := s.log ++ [⟨s.seq + 1, s.sched.currentId, args.payload⟩]
        history := s.history ++ [.returned s.sched.currentId call result] } := by
  rw [records.logSyscall]
  rfl

end Equations

/-- The events of a switch to the uthread `toId`. -/
def switchEvents (s : State) (toId : UInt64) : List Event :=
  if s.sched.currentId = toId then [] else [⟨s.seq + 1, toId, .sched s.sched.currentId toId⟩]

theorem Records.logSwitch {s : State} (records : s.Records) (toId : UInt64) :
    s.logSwitch toId =
      { s with
        seq := if s.sched.currentId = toId then s.seq else s.seq + 1
        log := s.log ++ s.switchEvents toId } := by
  unfold State.logSwitch switchEvents
  split
  · rw [List.append_nil]
  · rw [records.logSched]
    rfl

theorem rrLogSyscall_log (s : State) (args : LogArgs) : s.log <+: (s.rrLogSyscall args).log := by
  unfold rrLogSyscall
  split
  · exact List.prefix_append _ _
  · exact List.prefix_refl _

theorem resume_log (s : State) (ut : Ptr) (u : Uthread) : s.log <+: (s.resume ut u).log := by
  unfold resume
  split
  · exact List.prefix_refl _
  · exact List.prefix_refl _
  · exact List.prefix_refl _
  · rename_i call serial framed
    unfold finishIo
    split
    · exact List.prefix_refl _
    · exact rrLogSyscall_log (s.observe [.answered serial u.ioResult]) _
  · exact List.prefix_refl _

/-- Recording only appends to the log. -/
theorem RecordStep.log_grows {program : Program} {s t : State} {input : Input}
    (taken : RecordStep program s input t) (records : s.Records) : s.log <+: t.log := by
  cases taken with
  | perform answer ut u sched user running performed => exact List.prefix_refl _
  | immediate answer ut u call result args user running next done => exact rrLogSyscall_log _ _
  | full answer ut u call op finish user running next submits half filled =>
      exact rrLogSyscall_log _ _
  | refused answer ut u call op finish user running next submits half room failed =>
      exact rrLogSyscall_log (s.leave op) _
  | submitted answer ut u call op finish user running next submits half room accepted =>
      exact List.prefix_refl _
  | interrupted answer idle empty broken => exact List.prefix_refl _
  | killed answer cqe rest idle empty first sentinel full fatal =>
      rw [records.logSignal]
      exact List.prefix_append _ _
  | signal answer cqe rest idle empty first sentinel full harmless =>
      rw [cqeSeen, (rearmSignalRead_ring _ _).2.2.1, records.logSignal]
      exact List.prefix_append _ _
  | short answer cqe rest idle empty first sentinel short =>
      have same : (s.rearmSignalRead answer.submit).cqeSeen.log = s.log :=
        (rearmSignalRead_ring _ _).2.2.1
      exact same ▸ List.prefix_refl _
  | wake answer cqe rest idle empty first tagged => exact List.prefix_refl _
  | dispatch answer next u idle head found runnable =>
      rw [switchTo_eq, records.logSwitch]
      apply List.IsPrefix.trans _ (resume_log _ _ _)
      exact List.prefix_append _ _
  | post index res data sqe live flying => exact List.prefix_refl _

/-- At every moment of a recorded run, the log is the front of the final one. -/
theorem along_log {program : Program} {stackSize : Nat} {signalFd : Int32} {inputs : List Input}
    {recorded : State}
    (reached : exec (step program) (recordStart stackSize signalFd) inputs = some recorded) :
    Along (step program) (fun _ _ t => t.log <+: recorded.log) (recordStart stackSize signalFd)
      inputs := by
  have grows : ∀ s i t, Librr.step program s i = some t → s.Recording →
      t.Recording ∧ s.log <+: t.log := fun s i t taken inv =>
    ⟨(inv.step taken).2, (inv.step taken).1.log_grows inv.records⟩
  exact along_extends grows (recordStart_recording stackSize signalFd) reached

theorem log_of_exec {program : Program} {stackSize : Nat} {signalFd : Int32} {inputs : List Input}
    {recorded : State}
    (reached : exec (step program) (recordStart stackSize signalFd) inputs = some recorded) :
    (recordStart stackSize signalFd).log <+: recorded.log := by
  have grows : ∀ s i t, Librr.step program s i = some t → s.Recording →
      t.Recording ∧ s.log <+: t.log := fun s i t taken inv =>
    ⟨(inv.step taken).2, (inv.step taken).1.log_grows inv.records⟩
  exact exec_extends grows (recordStart_recording stackSize signalFd) reached

/-- So is what has been seen. -/
theorem along_history {program : Program} {start final : State} {inputs : List Input}
    (reached : exec (step program) start inputs = some final) :
    Along (step program) (fun _ _ t => t.history <+: final.history) start inputs :=
  along_extends (fun _ _ _ taken _ => ⟨trivial, step_grows taken⟩) trivial reached

end State

end Librr
