import Librr.RuntimeFacts

set_option autoImplicit false

namespace Librr

open Transition

namespace Sched

theorem uthreadCreate_unswitched (s : Sched) (stackSize : Nat) (fn : Option Fn)
    (answer : CreateAnswer) :
    (s.uthreadCreate stackSize fn answer).1.current = s.current ∧
      (s.uthreadCreate stackSize fn answer).1.control = s.control := by
  rcases s.uthreadCreate_cases stackSize fn answer with
    ⟨threads, pages, nextId, outcome, _⟩ | ⟨start, mem, threads, allocated, pages, outcome, _⟩
  · rw [outcome]
    exact ⟨rfl, rfl⟩
  · rw [outcome]
    have frame := rrSchedulerEnqueue_frame { s with
      heap := s.heap.set s.brk
        (newUthread (UInt64.ofNat s.nextId) start mem answer.pagesz stackSize)
      brk := s.brk + 1
      threads := threads
      allocated := allocated
      guardPages := pages
      nextId := s.nextId + 1 } s.brk
    exact ⟨frame.current, frame.control⟩

theorem proceed_step {s : Sched} {ut : Ptr} (user : s.control = .user)
    (current : s.current = some ut) (action : Action) (reply : Reply) :
    schedStep s (.proceed action reply) = some (s.reply ut action reply) := by
  simp [schedStep, user, current]

theorem Local.refines {stackSize : Nat} {s t : Sched} {ut : Ptr} {u : Uthread}
    {answer : CreateAnswer} {action : Action} (user : s.control = .user)
    (running : s.running = some (ut, u)) (performed : s.Local stackSize ut u answer action t) :
    ∃ ops, exec schedStep s ops = some t := by
  obtain ⟨current, _⟩ := of_running running
  cases performed with
  | create fn =>
      obtain ⟨kept, still⟩ := s.uthreadCreate_unswitched stackSize fn answer
      have first : schedStep s (.create stackSize fn answer) =
          some (s.uthreadCreate stackSize fn answer).1 := by simp [schedStep, user]
      exact ⟨_, exec_cons.mpr ⟨_, first, exec_single
        (proceed_step (still.trans user) (kept.trans current) _ _)⟩⟩
  | yield => exact ⟨[.yield], exec_single (by simp [schedStep, user])⟩
  | joinNow id out reply answered =>
      exact ⟨[.proceed _ _], exec_single (proceed_step user current _ _)⟩
  | joinWait id out target record found apart live free =>
      refine ⟨[.join id out], exec_single ?_⟩
      simp [schedStep, user, rrUthreadJoin_waits found running apart live free]
  | exit value => exact ⟨[.exit value], exec_single (by simp [schedStep, user])⟩
  | ret fn started => exact ⟨[.exit 0], exec_single (by simp [schedStep, user])⟩
  | stop main => exact ⟨[.stop false], exec_single (by simp [schedStep])⟩

end Sched

namespace State

@[simp] theorem loggedReturn_sched (s : State) (args : LogArgs) (ut : Ptr) (call : Call)
    (result : CallResult) :
    ((s.rrLogSyscall args).returnCall ut call result).sched =
      s.sched.reply ut (.call call) (.returned result) := by
  rw [returnCall, (rrLogSyscall_same _ _).sched]

@[simp] theorem loggedReturn_history (s : State) (args : LogArgs) (ut : Ptr) (call : Call)
    (result : CallResult) :
    ((s.rrLogSyscall args).returnCall ut call result).history =
      s.history ++ [.returned s.sched.currentId call result] := by
  rw [returnCall, (rrLogSyscall_same _ _).sched, (rrLogSyscall_same _ _).history]

theorem loggedReturn_refines {s base : State} {ut : Ptr} {u : Uthread}
    (user : s.sched.control = .user) (running : s.sched.running = some (ut, u))
    (same : base.sched = s.sched) (args : LogArgs) (call : Call) (result : CallResult) :
    ∃ ops, exec Sched.schedStep s.sched ops =
      some ((base.rrLogSyscall args).returnCall ut call result).sched := by
  rw [loggedReturn_sched, same]
  exact ⟨[.proceed _ _], exec_single (Sched.proceed_step user (Sched.of_running running).1 _ _)⟩

/-- A resumed uthread at most finishes the action it was suspended in. -/
theorem resume_sched (s : State) (ut : Ptr) (u : Uthread) :
    (s.resume ut u).sched = s.sched ∨
      ∃ action reply, (s.resume ut u).sched = s.sched.reply ut action reply := by
  unfold resume
  split
  · exact Or.inl rfl
  · exact Or.inr ⟨_, _, rfl⟩
  · exact Or.inr ⟨_, _, rfl⟩
  · rename_i call serial framed
    unfold finishIo
    split
    · exact Or.inl rfl
    · rename_i finish half
      refine Or.inr ⟨.call call, .returned (finish u.ioResult (s.ring.written serial)).1, ?_⟩
      rw [loggedReturn_sched, observe_sched]
  · exact Or.inl rfl

/-- The uthread that is switched to, before it goes on. -/
def arrive (s : State) (popped : Sched) (next : Ptr) (toId : UInt64) : State :=
  { s with
    sched := popped.dispatch next
    history := s.history ++ s.switchSeen next toId }

theorem switchTo_eq (s : State) (popped : Sched) (next : Ptr) (u : Uthread) :
    s.switchTo popped next u = (s.arrive popped next u.id).resume next u := rfl

theorem switchTo_refines {s : State} {next : Ptr} {u : Uthread} (inv : s.sched.QueueInvariant)
    (idle : s.sched.control = .scheduler) (head : s.sched.runqHead = some next)
    (t : State) :
    ∃ ops, exec Sched.schedStep s.sched ops =
      some (t.switchTo s.sched.runqPopFront.2 next u).sched := by
  obtain ⟨_, _, _, dispatched⟩ := inv.next_eq head
  have first : Sched.schedStep s.sched .next = some (s.sched.runqPopFront.2.dispatch next) := by
    simp [Sched.schedStep, idle, dispatched]
  rw [switchTo_eq]
  rcases resume_sched (t.arrive s.sched.runqPopFront.2 next u.id) next u with
    unchanged | ⟨action, reply, replied⟩
  · exact ⟨[.next], exec_single (by rw [unchanged, first]; rfl)⟩
  · refine ⟨[.next, .proceed action reply], exec_cons.mpr ⟨_, first, exec_single ?_⟩⟩
    rw [replied]
    exact Sched.proceed_step rfl rfl action reply

theorem logSwitch_same (s : State) (toId : UInt64) : SameButLog s (s.logSwitch toId) := by
  unfold logSwitch
  split
  · exact ⟨rfl, rfl, rfl, rfl, rfl, rfl⟩
  · exact rrLogSched_same _ _ _

/-- What submitting the signal read again leaves alone. -/
theorem rearmSignalRead_kept (s : State) (submitted : Bool) :
    (s.rearmSignalRead submitted).sched = s.sched ∧
      (s.rearmSignalRead submitted).config = s.config ∧
      (s.rearmSignalRead submitted).ring.ready = s.ring.ready := by
  rcases s.rearmSignalRead_cases submitted with ⟨_, same⟩ | ⟨fd, _, _, same⟩
  · rw [same]
    exact ⟨rfl, rfl, rfl⟩
  · rw [same]
    split <;> exact ⟨rfl, rfl, rfl⟩

/-- Every step of a recording process is a run of scheduler operations. -/
theorem RecordStep.refines {program : Program} {s t : State} {input : Input}
    (inv : s.sched.QueueInvariant) (taken : RecordStep program s input t) :
    ∃ ops, exec Sched.schedStep s.sched ops = some t.sched := by
  cases taken with
  | perform answer ut u sched user running performed => exact performed.refines user running
  | immediate answer ut u call result args user running next done =>
      exact loggedReturn_refines user running rfl _ _ _
  | full answer ut u call op finish user running next submits half filled =>
      exact loggedReturn_refines user running rfl _ _ _
  | refused answer ut u call op finish user running next submits half room failed =>
      refine loggedReturn_refines user running ?_ _ _ _
      rfl
  | submitted answer ut u call op finish user running next submits half room accepted =>
      exact ⟨[.block call s.ring.fresh], exec_single (by simp [Sched.schedStep, user, hand])⟩
  | interrupted answer idle empty broken => exact ⟨[], rfl⟩
  | killed answer cqe rest idle empty first sentinel full fatal =>
      exact ⟨[.stop false], exec_single rfl⟩
  | signal answer cqe rest idle empty first sentinel full harmless =>
      refine ⟨[], ?_⟩
      rw [cqeSeen, (rearmSignalRead_kept _ _).1, (rrLogSignal_same _ _ _).sched]
      rfl
  | short answer cqe rest idle empty first sentinel short =>
      refine ⟨[], ?_⟩
      rw [cqeSeen, (rearmSignalRead_kept _ _).1]
      rfl
  | wake answer cqe rest idle empty first tagged =>
      exact ⟨[.wake cqe.userData cqe.res], exec_single (by simp [Sched.schedStep, idle, empty])⟩
  | dispatch answer next u idle head found runnable =>
      exact switchTo_refines inv idle head (s.logSwitch u.id)
  | post index res data sqe live flying => exact ⟨[], rfl⟩

/-- The same for a replaying process. -/
theorem ReplayStep.refines {program : Program} {s t : State} {input : Input}
    (inv : s.sched.QueueInvariant) (taken : ReplayStep program s input t) :
    ∃ ops, exec Sched.schedStep s.sched ops = some t.sched := by
  cases taken with
  | perform answer ut u sched user running performed => exact performed.refines user running
  | answered answer ut u call reader event user running next matched =>
      exact ⟨[.proceed _ _], exec_single
        (Sched.proceed_step user (Sched.of_running running).1 _ _)⟩
  | refused answer ut u call reader errno user running next missed =>
      exact ⟨[.proceed _ _], exec_single
        (Sched.proceed_step user (Sched.of_running running).1 _ _)⟩
  | idle answer idle empty => exact ⟨[], rfl⟩
  | again answer next u idle head found runnable same =>
      exact switchTo_refines inv idle head _
  | switch answer next u reader idle head found runnable apart expected =>
      exact switchTo_refines inv idle head _
  | abort answer next u reader errno idle head found runnable apart unexpected =>
      exact ⟨[.stop true], exec_single rfl⟩

theorem queueInvariant_of_refines {s t : Sched} (inv : s.QueueInvariant)
    (refines : ∃ ops, exec Sched.schedStep s ops = some t) : t.QueueInvariant := by
  obtain ⟨ops, reached⟩ := refines
  exact exec_invariant Sched.schedStep_queueInvariant inv reached

/-- The configuration and the ring behind a resumed uthread. -/
theorem resume_kept (s : State) (ut : Ptr) (u : Uthread) :
    (s.resume ut u).config = s.config ∧ (s.resume ut u).ring = s.ring ∧
      (s.resume ut u).reader = s.reader := by
  unfold resume
  split
  · exact ⟨rfl, rfl, rfl⟩
  · exact ⟨rfl, rfl, rfl⟩
  · exact ⟨rfl, rfl, rfl⟩
  · rename_i call serial framed
    unfold finishIo
    split
    · exact ⟨rfl, rfl, rfl⟩
    · have same := rrLogSyscall_same (s.observe [.answered serial u.ioResult])
      exact ⟨(same _).config, (same _).ring, (same _).reader⟩
  · exact ⟨rfl, rfl, rfl⟩

theorem Records.step {program : Program} {s t : State} {input : Input} (records : s.Records)
    (taken : RecordStep program s input t) : t.Records := by
  have moved : ∀ other : State, other.config = s.config → other.ring.ready = s.ring.ready →
      other.Records := by
    intro other config ready
    refine ⟨?_, ?_, ?_, ready.trans records.ring⟩
    · rw [config, records.modeRecord]
    · rw [config, records.modeReplay]
    · rw [config, records.ready]
  cases taken with
  | perform answer ut u sched user running performed => exact moved _ rfl rfl
  | immediate answer ut u call result args user running next done =>
      have same := rrLogSyscall_same s args
      exact moved _ same.config (congrArg Ring.ready same.ring)
  | full answer ut u call op finish user running next submits half filled =>
      have same := rrLogSyscall_same s (finish (-1) []).2
      exact moved _ same.config (congrArg Ring.ready same.ring)
  | refused answer ut u call op finish user running next submits half room failed =>
      have same := rrLogSyscall_same (s.leave op) (finish (-1) []).2
      have ready := congrArg Ring.ready same.ring
      exact moved _ same.config ready
  | submitted answer ut u call op finish user running next submits half room accepted =>
      exact moved _ rfl rfl
  | interrupted answer idle empty broken => exact records
  | killed answer cqe rest idle empty first sentinel full fatal =>
      have same := rrLogSignal_same s s.ring.ssiSigno s.sched.currentId.toUInt32
      exact moved _ same.config (congrArg Ring.ready same.ring)
  | signal answer cqe rest idle empty first sentinel full harmless =>
      have same := rrLogSignal_same s s.ring.ssiSigno s.sched.currentId.toUInt32
      obtain ⟨_, config, ready⟩ := rearmSignalRead_kept
        (s.rrLogSignal s.ring.ssiSigno s.sched.currentId.toUInt32) answer.submit
      exact moved _ (config.trans same.config) (ready.trans (congrArg Ring.ready same.ring))
  | short answer cqe rest idle empty first sentinel short =>
      obtain ⟨_, config, ready⟩ := rearmSignalRead_kept s answer.submit
      exact moved _ config ready
  | wake answer cqe rest idle empty first tagged => exact moved _ rfl rfl
  | dispatch answer next u idle head found runnable =>
      have same := logSwitch_same s u.id
      obtain ⟨config, ring, _⟩ :=
        resume_kept ((s.logSwitch u.id).arrive s.sched.runqPopFront.2 next u.id) next u
      exact moved _ (config.trans same.config)
        ((congrArg Ring.ready ring).trans (congrArg Ring.ready same.ring))
  | post index res data sqe live flying => exact moved _ rfl rfl

theorem Replays.step {program : Program} {s t : State} {input : Input} (replays : s.Replays)
    (taken : ReplayStep program s input t) : t.Replays := by
  have moved : ∀ other : State, other.config = s.config → other.ring = s.ring →
      other.Replays := by
    intro other config ring
    refine ⟨?_, ?_, ?_, ?_, ?_⟩
    · rw [config, replays.modeRecord]
    · rw [config, replays.modeReplay]
    · rw [config, replays.ready]
    · rw [ring, replays.ring]
    · rw [ring, replays.inflight]
  cases taken with
  | perform answer ut u sched user running performed => exact moved _ rfl rfl
  | answered answer ut u call reader event user running next matched => exact moved _ rfl rfl
  | refused answer ut u call reader errno user running next missed => exact moved _ rfl rfl
  | idle answer idle empty => exact replays
  | again answer next u idle head found runnable same =>
      obtain ⟨config, ring, _⟩ :=
        resume_kept (s.arrive s.sched.runqPopFront.2 next u.id) next u
      exact moved _ config ring
  | switch answer next u reader idle head found runnable apart expected =>
      obtain ⟨config, ring, _⟩ :=
        resume_kept ({ s with reader := reader }.arrive s.sched.runqPopFront.2 next u.id) next u
      exact moved _ config ring
  | abort answer next u reader errno idle head found runnable apart unexpected =>
      exact moved _ rfl rfl

end State

end Librr
