import Librr.Lockstep

set_option autoImplicit false

namespace Librr

open Transition IntrusiveQueue

/-- The running uthread with nobody else queued. -/
theorem Sched.QueueInvariant.alone {s : Sched} (inv : s.QueueInvariant)
    (user : s.control = .user) {ut : Ptr} {u : Uthread} (running : s.running = some (ut, u))
    (head : s.runqHead = none) : s.runqTail = none ∧ u.state = .running ∧ u.next = none := by
  obtain ⟨current, present⟩ := Sched.of_running running
  obtain ⟨items, shape, _⟩ := inv.runq
  obtain rfl : items = [] := shape.empty_iff.mp head
  refine ⟨shape.tail_none.mpr rfl, ?_, ?_⟩
  · exact (inv.running_at user running).2.2
  · have unlinked := shape.outside ut (by simp)
    simpa [Sched.links, present] using unlinked

namespace State

/-- A uthread that makes an asynchronous call with nobody else queued. -/
structure InCall (program : Program) (view : Action × Reply → Action × Reply) (base : Sched)
    (ut : Ptr) (u : Uthread) (call : Call) : Prop where
  user : base.control = .user
  on : base.schedRunning = true
  running : base.running = some (ut, u)
  viewed : program u.startFn (u.ctx.viewed view) = .call call
  next : program u.startFn u.ctx.replies = .call call
  head : base.runqHead = none
  tail : base.runqTail = none
  runs : u.state = .running
  framed : u.ctx.frame = .user
  unlinked : u.next = none
  submits : call.Submits

/-- The scheduler after the caller has blocked and has been woken. -/
def wokenSched (base : Sched) (ut : Ptr) (frame : Frame) (raw : Int32) : Sched :=
  { base with
    heap := base.heap.modify ut (Sched.wokenWith frame raw)
    runqHead := some ut
    runqTail := some ut
    control := .scheduler }

/-- A recording process against a replaying one. Between two calls they stand at the
same point; while the one waits for a completion, the other stands before the call. -/
inductive Tied (program : Program) (view : Action × Reply → Action × Reply) (log : List Event)
    (r p : State) : Prop where
  | settled (aligned : Aligned view log r.sched r.log r.seq p) (idle : r.ring.pending = [])
  | waiting (base : Sched) (ut : Ptr) (u : Uthread) (call : Call) (serial : Nat)
    (aligned : Aligned view log base r.log r.seq p) (inside : InCall program view base ut u call)
    (blocked : r.sched = base.rrSchedulerBlockCurrent (.io call serial))
    (outstanding : r.ring.pending = [(u.id, serial)])
  | woken (base : Sched) (ut : Ptr) (u : Uthread) (call : Call) (serial : Nat) (raw : Int32)
    (aligned : Aligned view log base r.log r.seq p) (inside : InCall program view base ut u call)
    (queued : r.sched = wokenSched base ut (.io call serial) raw)
    (idle : r.ring.pending = [])

/-- What is asked of a recorded step: creations and submissions succeed, an operation
is only submitted with nobody else queued, no signal is logged, and the program would
do the same on the results that replay will show it. -/
structure Steady (program : Program) (view : Action × Reply → Action × Reply) (log : List Event)
    (r : State) (input : Input) (t : State) : Prop where
  created : ∀ answer, input = .act answer → answer.create.Succeeds
  accepted : ∀ answer, input = .act answer → answer.submit = true
  alone : ∀ answer ut u call op, input = .act answer → r.sched.running = some (ut, u) →
    program u.startFn u.ctx.replies = .call call → call.wrapper.issue answer = .submit op →
    r.sched.runqHead = none
  viewed : ∀ ut u, r.sched.control = .user → r.sched.running = some (ut, u) →
    program u.startFn (u.ctx.viewed view) = program u.startFn u.ctx.replies
  quiet : ∀ event ∈ t.log, ∀ signo activeUthread, event.payload ≠ .signal signo activeUthread
  kept : t.log <+: log
  seen : ∀ id call result, .returned id call result ∈ t.history →
    view (.call call, .returned result) = (.call call, .returned (call.replayed result))

section Steps

variable {program : Program} {view : Action × Reply → Action × Reply} {log : List Event}
  {r t p : State} (choice : Answer × WaitAnswer)

theorem Aligned.congr {s s' : Sched} {logged : List Event} {seq : UInt64}
    (aligned : Aligned view log s logged seq p) (same : s'.erased view = s.erased view) :
    Aligned view log s' logged seq p :=
  ⟨same.trans aligned.alike, aligned.cursor, aligned.replaying, aligned.virtual, aligned.clear,
    aligned.matched⟩

/-- Steps that concern neither the scheduler nor the log leave the two where they are. -/
theorem Tied.unmoved (tied : Tied program view log r p) (sched : t.sched = r.sched)
    (logged : t.log = r.log) (seq : t.seq = r.seq) (pending : t.ring.pending.Perm r.ring.pending) :
    Tied program view log t p := by
  cases tied with
  | settled aligned idle =>
      refine .settled ?_ ?_
      · rw [sched, logged, seq]
        exact aligned
      · rw [idle] at pending
        exact List.perm_nil.mp pending
  | waiting base ut u call serial aligned inside blocked outstanding =>
      refine .waiting base ut u call serial ?_ inside (sched.trans blocked) ?_
      · rw [logged, seq]
        exact aligned
      · rw [outstanding] at pending
        exact List.perm_singleton.mp pending
  | woken base ut u call serial raw aligned inside queued idle =>
      refine .woken base ut u call serial raw ?_ inside (sched.trans queued) ?_
      · rw [logged, seq]
        exact aligned
      · rw [idle] at pending
        exact List.perm_nil.mp pending

/-- While a uthread acts, the two stand at the same point. -/
theorem Tied.settled_of_user (tied : Tied program view log r p)
    (user : r.sched.control = .user) :
    Aligned view log r.sched r.log r.seq p ∧ r.ring.pending = [] := by
  cases tied with
  | settled aligned idle => exact ⟨aligned, idle⟩
  | waiting base ut u call serial aligned inside blocked outstanding =>
      have parts := Sched.rrSchedulerBlockCurrent_eq (Sched.of_running inside.running).1 inside.on
        (.io call serial)
      rw [blocked, parts] at user
      cases user
  | woken base ut u call serial raw aligned inside queued idle =>
      rw [queued] at user
      cases user

/-- A call that does not wait for a completion. -/
theorem Tied.returned (tied : Tied program view log r p) (inv : r.Recording)
    (user : r.sched.control = .user) {ut : Ptr} {u : Uthread}
    (running : r.sched.running = some (ut, u)) {call : Call}
    (next : program u.startFn u.ctx.replies = .call call) {result : CallResult} {args : LogArgs}
    (outcome : call.Outcome result args) {input : Input}
    (steady : Steady program view log r input ((r.rrLogSyscall args).returnCall ut call result)) :
    ∃ p', p.advance program choice = some p' ∧
      Tied program view log ((r.rrLogSyscall args).returnCall ut call result) p' := by
  obtain ⟨aligned, idle⟩ := tied.settled_of_user user
  have reached := inv.records.loggedReturn args ut call result
  rw [outcome.logged] at reached steady ⊢
  rw [reached] at steady ⊢
  have seen := steady.seen r.sched.currentId call result (by simp)
  obtain ⟨p', taken, aligned'⟩ := aligned.call choice user running
    ((steady.viewed ut u user running).trans next) seen steady.kept
  exact ⟨p', taken, .settled aligned' idle⟩

/-- The operation is handed over and the caller blocks: replay waits before the call. -/
theorem Tied.submitted (tied : Tied program view log r p) (inv : r.Recording)
    (numbered : r.sched.Numbered) (user : r.sched.control = .user) {ut : Ptr} {u : Uthread}
    (running : r.sched.running = some (ut, u)) {call : Call} {op : IoOp} {answer : Answer}
    (next : program u.startFn u.ctx.replies = .call call)
    (submits : call.wrapper.issue answer = .submit op)
    (steady : Steady program view log r (.act answer) (r.hand op call)) :
    Tied program view log (r.hand op call) p := by
  obtain ⟨aligned, idle⟩ := tied.settled_of_user user
  obtain ⟨_, present⟩ := Sched.of_running running
  have head := steady.alone answer ut u call op rfl running next submits
  obtain ⟨tail, runs, unlinked⟩ := inv.queue.alone user running head
  have viewed := (steady.viewed ut u user running).trans next
  have framed : u.ctx.frame = .user := by
    have fits := inv.framed ut u.core (Sched.core_some present)
    have running : u.core.state = .running := runs
    rw [Uthread.FrameFits, running] at fits
    exact fits
  refine .waiting r.sched ut u call r.ring.fresh aligned
    ⟨user, inv.queue.on, running, viewed, next, head, tail, runs, framed, unlinked, answer, op,
      submits⟩ rfl ?_
  have mine : r.sched.currentId = u.id := by simp [Sched.currentId, running]
  have tagged : u.id ≠ rrSignalSentinel := numbered.id_ne_sentinel present
  have handed : (r.hand op call).ring.pending.Perm ((u.id, r.ring.fresh) :: r.ring.pending) := by
    rw [hand, mine]
    exact (Ring.pending_perm (Ring.entries_submit _)).trans (Ring.pending_push tagged op)
  rw [idle] at handed
  exact List.perm_singleton.mp handed

/-- A consumed completion is that of the one call that waits, and wakes its caller. -/
theorem Tied.wake (tied : Tied program view log r p) (numbered : r.sched.Numbered) {cqe : Cqe}
    {rest : List Cqe} (empty : r.sched.runqHead = none) (first : r.ring.cq = cqe :: rest)
    (tagged : cqe.userData ≠ rrSignalSentinel)
    (sched : t.sched = r.sched.rrSchedulerWakeById cqe.userData cqe.res none 0)
    (ring : t.ring = r.ring.cqeSeen) (logged : t.log = r.log) (seq : t.seq = r.seq) :
    Tied program view log t p := by
  have consumed := Ring.pending_cqeSeen first tagged
  cases tied with
  | settled aligned idle =>
      rw [idle] at consumed
      cases List.nil_perm.mp consumed
  | waiting base ut u call serial aligned inside blocked outstanding =>
      rw [outstanding] at consumed
      have same := List.singleton_perm.mp consumed
      simp only [List.cons.injEq, Cqe.key, Prod.mk.injEq] at same
      obtain ⟨⟨tag, _⟩, none⟩ := same
      obtain ⟨current, present⟩ := Sched.of_running inside.running
      -- The caller is found by its id, since ids are unique.
      have found : ∃ v, r.sched.rrSchedulerFind u.id = some (ut, v) := by
        have core := Sched.rrSchedulerBlockCurrent_core current inside.on (.io call serial)
        have here : r.sched.core ut = some (Sched.suspend .blocked (.io call serial) u.core) := by
          rw [blocked, core, Heap.modify_same, Sched.core_some present, Option.map_some]
        obtain ⟨v, hit, sameCore⟩ := Sched.of_core_some here
        have number : v.core.id = u.id := by rw [sameCore]; rfl
        exact ⟨v, number ▸ numbered.find_eq hit⟩
      obtain ⟨v, found⟩ := found
      rw [blocked] at found
      have woken := Sched.woken_eq inside.on inside.running inside.tail found cqe.res
      refine .woken base ut u call serial cqe.res ?_ inside ?_ ?_
      · rw [logged, seq]
        exact aligned
      · rw [sched, blocked, ← tag, woken]
        rfl
      · rw [ring]
        exact none.symm
  | woken base ut u call serial raw aligned inside queued idle =>
      rw [queued] at empty
      cases empty

/-- The caller that has been woken goes on behind its wrapper: no switch is logged, since
it is still the current uthread. -/
theorem InCall.switchBack {base : Sched} {ut : Ptr} {v : Uthread} {call : Call} {serial : Nat}
    {raw : Int32} (inside : InCall program view base ut v call) (inv : r.Recording)
    (queued : r.sched = wokenSched base ut (.io call serial) raw)
    (again : r.sched.runqPopFront.2.heap ut = some (Sched.wokenWith (.io call serial) raw v))
    {finish : Int32 → Bytes → CallResult × LogArgs} (half : call.wrapper.finish = some finish)
    {result : CallResult} {args : LogArgs}
    (ended : finish raw (r.ring.written serial) = (result, args)) :
    (r.logSwitch (Sched.wokenWith (.io call serial) raw v).id).switchTo r.sched.runqPopFront.2 ut
        (Sched.wokenWith (.io call serial) raw v) =
      { r with
        sched := (r.sched.runqPopFront.2.dispatch ut).reply ut (.call call) (.returned result)
        seq := r.seq + 1
        log := r.log ++ [⟨r.seq + 1, v.id, args.payload⟩]
        history := r.history ++ [.answered serial raw, .returned v.id call result] } := by
  obtain ⟨current, present⟩ := Sched.of_running inside.running
  have running : r.sched.running = some (ut, Sched.wokenWith (.io call serial) raw v) := by
    rw [queued]
    exact Sched.running_eq current (by simp [wokenSched, Heap.modify_same, present])
  have mine : r.sched.currentId = v.id := by simp [Sched.currentId, running, Sched.wokenWith]
  have unlogged : r.logSwitch (Sched.wokenWith (.io call serial) raw v).id = r := by
    simp [logSwitch, mine, Sched.wokenWith]
  have unseen : r.switchSeen ut (Sched.wokenWith (.io call serial) raw v).id = [] := by
    simp [switchSeen, running]
  have arrived : (r.sched.runqPopFront.2.dispatch ut).currentId = v.id := by
    simp [Sched.currentId, Sched.running, Sched.dispatch, Sched.setState, Heap.modify_same, again,
      Sched.wokenWith]
  have records : ((r.arrive r.sched.runqPopFront.2 ut v.id).observe
      [.answered serial raw]).Records := inv.records.of_same rfl rfl
  have frame : (Sched.wokenWith (.io call serial) raw v).ctx.frame = .io call serial := rfl
  rw [unlogged, switchTo_eq, resume]
  simp only [frame]
  rw [finishIo_eq half]
  change (((r.arrive r.sched.runqPopFront.2 ut v.id).observe [.answered serial raw]).rrLogSyscall
      (finish raw (r.ring.written serial)).2).returnCall ut call
        (finish raw (r.ring.written serial)).1 = _
  rw [ended, records.loggedReturn args ut call result]
  have unmoved : (r.arrive r.sched.runqPopFront.2 ut v.id).history = r.history := by
    simp only [arrive, show r.switchSeen ut v.id = [] from unseen, List.append_nil]
  simp only [observe, unmoved, List.append_assoc, List.cons_append, List.nil_append]
  rw [show (r.arrive r.sched.runqPopFront.2 ut v.id).sched.currentId = v.id from arrived]
  rfl

/-- A switch outside the calls, or the end of a call: the caller goes on, its event is
logged, and replay makes the call. -/
theorem Tied.dispatch (tied : Tied program view log r p) (plain : Plain view) (inv : r.Recording)
    (idle : r.sched.control = .scheduler) {next : Ptr} {u : Uthread}
    (head : r.sched.runqHead = some next) (found : r.sched.runqPopFront.2.heap next = some u)
    (runnable : u.state = .runnable) {input : Input}
    (steady : Steady program view log r input
      ((r.logSwitch u.id).switchTo r.sched.runqPopFront.2 next u)) :
    ∃ p', p.advance program choice = some p' ∧
      Tied program view log ((r.logSwitch u.id).switchTo r.sched.runqPopFront.2 next u) p' := by
  cases tied with
  | settled aligned none =>
      have reached := switchTo_outside (r.logSwitch u.id) r.sched.runqPopFront.2 next
        (aligned.outside found)
      rw [inv.records.logSwitch u.id] at reached steady ⊢
      rw [reached] at steady ⊢
      obtain ⟨p', taken, aligned'⟩ :=
        aligned.switch choice plain idle head found runnable steady.kept
      exact ⟨p', taken, .settled aligned' none⟩
  | waiting base ut v call serial aligned inside blocked outstanding =>
      have parts := Sched.rrSchedulerBlockCurrent_eq (Sched.of_running inside.running).1 inside.on
        (.io call serial)
      rw [blocked, parts] at head
      exact absurd (inside.head.symm.trans head) (by simp)
  | woken base ut v call serial raw aligned inside queued none =>
      obtain rfl : ut = next := by
        rw [queued] at head
        exact Option.some.inj head
      obtain ⟨answer, op, submits⟩ := inside.submits
      obtain ⟨finish, half⟩ := Call.finish_of_submit submits
      obtain ⟨result, args, ended⟩ : ∃ result args,
          finish raw (r.ring.written serial) = (result, args) := ⟨_, _, rfl⟩
      have outcome : call.Outcome result args :=
        Or.inr ⟨inside.submits, finish, raw, _, half, ended⟩
      obtain ⟨again, back⟩ := Sched.erased_roundTrip view inside.user inside.running inside.head
        inside.tail inside.runs inside.unlinked (.call call) (.returned result) queued
      obtain rfl : Sched.wokenWith (.io call serial) raw v = u :=
        Option.some.inj (again.symm.trans found)
      have reached := inside.switchBack inv queued again half ended
      rw [reached, outcome.logged] at steady ⊢
      have seen := steady.seen v.id call result (by simp)
      have mine : base.currentId = v.id := by simp [Sched.currentId, inside.running]
      obtain ⟨p', taken, aligned'⟩ := aligned.call choice inside.user inside.running
        inside.viewed seen (by rw [mine]; exact steady.kept)
      rw [mine] at aligned'
      exact ⟨p', taken, .settled (aligned'.congr back) none⟩

/-- One step of the recording process: replay makes one step as well, or none. -/
theorem Tied.step {input : Input} (tied : Tied program view log r p) (plain : Plain view)
    (inv : r.Recording) (numbered : r.sched.Numbered) (succeeds : choice.1.create.Succeeds)
    (taken : Librr.step program r input = some t) (steady : Steady program view log r input t) :
    Tied program view log t p ∨
      ∃ p', p.advance program choice = some p' ∧ Tied program view log t p' := by
  -- No signal is logged, so no full signal read is consumed.
  have unsignalled : ∀ signo activeUthread,
      t.log ≠ (r.rrLogSignal signo activeUthread).log := by
    intro signo activeUthread same
    rw [inv.records.logSignal] at same
    exact steady.quiet ⟨r.seq + 1, r.sched.currentId, .signal signo activeUthread⟩
      (by simp [same, appendEvent]) signo activeUthread rfl
  cases (inv.step taken).1 with
  | perform answer ut u sched user running performed =>
      right
      obtain ⟨aligned, idle⟩ := tied.settled_of_user user
      obtain ⟨p', advanced, aligned'⟩ := aligned.perform choice plain succeeds user running
        (steady.viewed ut u user running) (steady.created answer rfl) performed
      exact ⟨p', advanced, .settled aligned' idle⟩
  | immediate answer ut u call result args user running next done =>
      exact Or.inr (tied.returned choice inv user running next (Or.inl ⟨answer, done⟩) steady)
  | full answer ut u call op finish user running next submits half filled =>
      exact Or.inr (tied.returned choice inv user running next
        (Or.inr ⟨⟨answer, op, submits⟩, finish, -1, [], half, rfl⟩) steady)
  | refused answer ut u call op finish user running next submits half room failed =>
      have accepted := steady.accepted answer rfl
      rw [failed] at accepted
      cases accepted
  | submitted answer ut u call op finish user running next submits half room accepted =>
      exact Or.inl (tied.submitted inv numbered user running next submits steady)
  | interrupted answer idle empty broken => exact Or.inl tied
  | killed answer cqe rest idle empty first sentinel full fatal =>
      exact absurd rfl (unsignalled _ _)
  | signal answer cqe rest idle empty first sentinel full harmless =>
      exact absurd (rearmSignalRead_ring _ _).2.2.1 (unsignalled _ _)
  | short answer cqe rest idle empty first sentinel short =>
      left
      obtain ⟨queue, pending, logged, seq⟩ := r.rearmSignalRead_ring answer.submit
      refine tied.unmoved (rearmSignalRead_kept _ _).1 logged seq ?_
      exact (Ring.pending_cqeSeen_signal (queue.trans first) sentinel).trans pending
  | wake answer cqe rest idle empty first tagged =>
      exact Or.inl (tied.wake numbered empty first tagged rfl rfl rfl rfl)
  | dispatch answer next u idle head found runnable =>
      exact Or.inr (tied.dispatch choice plain inv idle head found runnable steady)
  | post index res data sqe live flying =>
      exact Or.inl (tied.unmoved rfl rfl rfl
        (Ring.pending_perm (Ring.entries_complete flying res data)))

end Steps

theorem tied_start (program : Program) {view : Action × Reply → Action × Reply} (log : List Event)
    (stackSize replayStack : Nat) (signalFd : Int32) (startTime : UInt64) (pid : UInt32)
    (front : (recordStart stackSize signalFd).log <+: log) :
    Tied program view log (recordStart stackSize signalFd)
      (replayStart replayStack true (some (flushedLog startTime pid log))) := by
  obtain ⟨rest, rfl⟩ := front
  have opened := Reader.rrReplayInit_flushed startTime pid (⟨1, 1, .sched 0 1⟩ :: rest)
  have started := Reader.rrReplayExpectSched_before 1 0 1 rest
  have reached : replayStart replayStack true
      (some (flushedLog startTime pid ((recordStart stackSize signalFd).log ++ rest))) =
      { fresh ⟨false, true, true, true, replayStack⟩ with reader := .before rest (1 + 1) } := by
    change replayStart _ _ (some (flushedLog _ _ (⟨1, 1, .sched 0 1⟩ :: rest))) = _
    simp only [replayStart, opened, started]
    rfl
  have alike : Sched.Alike view Sched.afterInit Sched.afterInit := by
    have heap : (fun ut => (Sched.afterInit.heap ut).map (Uthread.erased view)) =
        fun ut => (Sched.afterInit.heap ut).map (Uthread.erased id) := by
      funext ut
      simp only [Sched.afterInit, Heap.set_apply]
      split <;> rfl
    simp only [Sched.Alike, Sched.erased, heap]
  rw [reached]
  exact .settled ⟨alike, ⟨rest, rfl, rfl⟩, fresh_replaying _ _ _, rfl,
    ⟨afterInit_frameAt, by simp [fresh]⟩, by simp [fresh]⟩ rfl

/-- A whole recorded run, whatever the world answers while it is replayed. -/
theorem lockstep_of_steady {program : Program} {view : Action × Reply → Action × Reply}
    (plain : Plain view) {log : List Event} {stackSize : Nat} {signalFd : Int32}
    {inputs : List Input} {recorded : State}
    (reached : exec (step program) (recordStart stackSize signalFd) inputs = some recorded)
    (steady : Along (step program) (Steady program view log) (recordStart stackSize signalFd)
      inputs)
    (front : (recordStart stackSize signalFd).log <+: log)
    (startTime : UInt64) (pid : UInt32) (replayStack : Nat) {choices : Nat → Answer × WaitAnswer}
    (created : ∀ n, (choices n).1.create.Succeeds) :
    ∃ steps : Nat → Nat, steps 0 = 0 ∧
      (∀ k, steps k ≤ steps (k + 1) ∧ steps (k + 1) ≤ steps k + 1) ∧
      ∀ k, ∃ r p, exec (step program) (recordStart stackSize signalFd) (inputs.take k) = some r ∧
        exec (advance program) (replayStart replayStack true (some (flushedLog startTime pid log)))
          ((List.range (steps k)).map choices) = some p ∧
        r.Recording ∧ Tied program view log r p := by
  have answered : ∀ r i t p n, Librr.step program r i = some t → Steady program view log r i t →
      (r.Recording ∧ r.sched.Numbered ∧ Tied program view log r p) →
      (t.Recording ∧ t.sched.Numbered ∧ Tied program view log t p) ∨
        ∃ p', p.advance program (choices n) = some p' ∧
          t.Recording ∧ t.sched.Numbered ∧ Tied program view log t p' := by
    rintro r i t p n taken holds ⟨inv, numbered, tied⟩
    obtain ⟨kind, inv'⟩ := inv.step taken
    have numbered' := kind.numbered numbered holds.created
    rcases tied.step (choices n) plain inv numbered (created n) taken holds with
      same | ⟨p', moved, matched⟩
    · exact Or.inl ⟨inv', numbered', same⟩
    · exact Or.inr ⟨p', moved, inv', numbered', matched⟩
  obtain ⟨steps, zero, slow, pairs⟩ := steady.lockstep answered
    ⟨recordStart_recording stackSize signalFd, Sched.afterInit_numbered,
      tied_start program log stackSize replayStack signalFd startTime pid front⟩ reached
  refine ⟨steps, zero, slow, ?_⟩
  intro k
  obtain ⟨r, p, ran, replayed, inv, _, tied⟩ := pairs k
  exact ⟨r, p, ran, replayed, inv, tied⟩

end State

namespace Sched

/-- The action a uthread is inside of, or the one it will take next. -/
def nextAction (program : Program) (s : Sched) (ut : Ptr) : Option Action :=
  (s.heap ut).map fun u => u.ctx.frame.action.getD (program u.startFn u.ctx.replies)

def inCall (s : Sched) (ut : Ptr) : Bool :=
  match s.frameAt ut with
  | some (.io _ _) => true
  | _ => false

theorem Alike.next {s t : Sched} (alike : Alike id s t) (program : Program) (ut : Ptr) :
    t.nextAction program ut = s.nextAction program ut ∧ t.traceAt ut = s.traceAt ut := by
  unfold nextAction traceAt
  cases here : s.heap ut with
  | none =>
      have both := alike.heap ut
      rw [here] at both
      rw [Option.map_eq_none_iff.mp both]
      exact ⟨rfl, rfl⟩
  | some u =>
      obtain ⟨v, found, same⟩ := alike.found here
      obtain ⟨start, _, _, frame, trace, _⟩ := erased_parts same
      rw [List.map_id] at trace
      simp [found, start, frame, trace, Context.replies]

/-- A uthread that has entered a call with nothing finished since is about to make it. -/
theorem next_modify {base s : Sched} {ut : Ptr} {u : Uthread} {change : Uthread → Uthread}
    {program : Program} {call : Call} {serial : Nat} (found : base.heap ut = some u)
    (heap : s.heap = base.heap.modify ut change) (user : u.ctx.frame = .user)
    (next : program u.startFn u.ctx.replies = .call call)
    (entered : (change u).ctx = ⟨u.ctx.trace, .io call serial⟩) (other : Ptr) :
    s.nextAction program other = base.nextAction program other ∧
      s.traceAt other = base.traceAt other := by
  unfold nextAction traceAt
  rw [heap, Heap.modify_apply]
  split
  · rename_i own
    subst own
    simp [found, entered, user, next, Frame.action]
  · exact ⟨rfl, rfl⟩

end Sched

namespace State

/-- A recording process and a replaying one at the same point of the run: the same
current uthread, the same queue but for uthreads inside a call, for every uthread the
same finished actions with the same results and the same next action, and the next
unread event is the one to be logged next. -/
structure Corresponds (program : Program) (log : List Event) (r p : State) : Prop where
  current : p.sched.current = r.sched.current
  queue : ∃ items, Represents r.sched.links items ∧
    Represents p.sched.links (items.filter fun ut => !r.sched.inCall ut)
  next : ∀ ut, p.sched.nextAction program ut = r.sched.nextAction program ut
  finished : ∀ ut, p.sched.traceAt ut = r.sched.traceAt ut
  cursor : ∃ rest, log = r.log ++ rest ∧ p.reader = .before rest (r.seq + 1)
  matched : .mismatch ∉ p.history

/-- Before a call with nobody else queued, replay has nobody queued either. -/
theorem InCall.replay_queue {program : Program} {view : Action × Reply → Action × Reply}
    {log logged : List Event} {seq : UInt64} {base : Sched} {p : State} {ut : Ptr} {u : Uthread}
    {call : Call} (inside : InCall program view base ut u call)
    (aligned : Aligned view log base logged seq p) : Represents p.sched.links [] := by
  obtain ⟨items, shape, _⟩ := aligned.replaying.queue.runq
  obtain rfl : items = [] := shape.empty_iff.mp (aligned.alike.runqHead.trans inside.head)
  exact shape

theorem Tied.corresponds {program : Program} {log : List Event} {r p : State}
    (tied : Tied program id log r p) (inv : r.Recording) : Corresponds program log r p := by
  obtain ⟨items, shape, _⟩ := inv.queue.runq
  cases tied with
  | settled aligned idle =>
      have outside : items.filter (fun ut => !r.sched.inCall ut) = items := by
        apply List.filter_eq_self.mpr
        intro ut _
        have clear := aligned.clear.frames ut
        rw [aligned.alike.frameAt] at clear
        unfold Sched.inCall
        split
        · rename_i call serial inside
          exact absurd inside (clear call serial)
        · rfl
      refine ⟨aligned.alike.current, ⟨items, shape, ?_⟩,
        fun ut => (aligned.alike.next program ut).1,
        fun ut => (aligned.alike.next program ut).2, aligned.cursor, aligned.matched⟩
      rw [outside, aligned.alike.links]
      exact shape
  | waiting base ut u call serial aligned inside blocked outstanding =>
      obtain ⟨current, present⟩ := Sched.of_running inside.running
      have parts := blocked.trans (Sched.rrSchedulerBlockCurrent_eq current inside.on _)
      have heap : r.sched.heap =
          base.heap.modify ut (Sched.suspend .blocked (.io call serial)) := by
        rw [parts]
        exact Heap.modify_modify _ _ _ _
      have entered := Sched.next_modify present heap inside.framed inside.next rfl
      obtain rfl : items = [] := by
        apply shape.empty_iff.mp
        rw [parts]
        exact inside.head
      refine ⟨?_, ⟨[], shape, inside.replay_queue aligned⟩, ?_, ?_, aligned.cursor,
        aligned.matched⟩
      · rw [parts]
        exact aligned.alike.current
      · exact fun other => (aligned.alike.next program other).1.trans (entered other).1.symm
      · exact fun other => (aligned.alike.next program other).2.trans (entered other).2.symm
  | woken base ut u call serial raw aligned inside queued idle =>
      obtain ⟨current, present⟩ := Sched.of_running inside.running
      have heap : r.sched.heap = base.heap.modify ut (Sched.wokenWith (.io call serial) raw) := by
        rw [queued]
        rfl
      have here : r.sched.heap ut = some (Sched.wokenWith (.io call serial) raw u) := by
        rw [heap, Heap.modify_same, present, Option.map_some]
      have entered := Sched.next_modify present heap inside.framed inside.next rfl
      have single : items = [ut] := by
        have chain : Chain r.sched.links.next (some ut) [ut] :=
          ⟨rfl, by simp [Sched.links, here, Sched.wokenWith, Chain]⟩
        have head : r.sched.links.head = some ut := by
          rw [queued]
          rfl
        exact (head ▸ shape.chain).unique chain
      refine ⟨?_, ⟨items, shape, ?_⟩, ?_, ?_, aligned.cursor, aligned.matched⟩
      · rw [queued]
        exact aligned.alike.current
      · have inCall : r.sched.inCall ut = true := by
          simp [Sched.inCall, Sched.frameAt, Sched.core_some here, Sched.wokenWith, Uthread.core]
        rw [single]
        simp only [List.filter_cons, inCall, Bool.not_true, Bool.false_eq_true, ↓reduceIte,
          List.filter_nil]
        exact inside.replay_queue aligned
      · exact fun other => (aligned.alike.next program other).1.trans (entered other).1.symm
      · exact fun other => (aligned.alike.next program other).2.trans (entered other).2.symm

/-- The next action of the running uthread goes through io_uring. -/
def submits (program : Program) (s : State) (answer : Answer) : Bool :=
  match s.sched.running with
  | none => false
  | some (_, u) =>
    match program u.startFn u.ctx.replies with
    | .call call =>
      match call.wrapper.issue answer with
      | .submit _ => true
      | .done _ _ => false
    | _ => false

/-- What is asked of a recorded step here: creations and submissions succeed, an
operation is only submitted with nobody else queued, and the signal read does not
complete. That no other operation is in flight then follows. -/
def Sequential (program : Program) (s : State) : Input → Prop
  | .act answer => answer.create.Succeeds ∧ answer.submit = true ∧
    (s.submits program answer = true → s.sched.runqHead = none)
  | .loop _ => True
  | .post index _ _ => ∀ sqe ∈ s.ring.inflight[index]?, sqe.userData ≠ rrSignalSentinel

instance (program : Program) (s : State) (input : Input) :
    Decidable (s.Sequential program input) :=
  match input with
  | .act answer => inferInstanceAs (Decidable (answer.create.Succeeds ∧ answer.submit = true ∧
    (s.submits program answer = true → s.sched.runqHead = none)))
  | .loop _ => inferInstanceAs (Decidable True)
  | .post index _ _ => inferInstanceAs (Decidable (∀ sqe ∈ s.ring.inflight[index]?,
    sqe.userData ≠ rrSignalSentinel))

/-- No signal has been seen: none in the log, and none among the completions. -/
structure Unsignalled (s : State) : Prop where
  completions : ∀ cqe ∈ s.ring.cq, cqe.userData ≠ rrSignalSentinel
  log : ∀ event ∈ s.log, ∀ signo activeUthread, event.payload ≠ .signal signo activeUthread

theorem Unsignalled.append {s : State} (clear : s.Unsignalled) {t : State} {more : List Event}
    (cq : t.ring.cq = s.ring.cq) (log : t.log = s.log ++ more)
    (other : ∀ event ∈ more, ∀ signo activeUthread,
      event.payload ≠ .signal signo activeUthread) : t.Unsignalled := by
  refine ⟨cq ▸ clear.completions, ?_⟩
  intro event member
  rw [log] at member
  rcases List.mem_append.mp member with old | fresh
  · exact clear.log event old
  · exact other event fresh

theorem Unsignalled.step {program : Program} {s t : State} {input : Input} (inv : s.Recording)
    (clear : s.Unsignalled) (sequential : s.Sequential program input)
    (taken : Librr.step program s input = some t) : t.Unsignalled := by
  -- The first completion is not that of the signal read.
  have tagged : ∀ cqe rest, s.ring.cq = cqe :: rest → cqe.userData ≠ rrSignalSentinel :=
    fun cqe rest first => clear.completions cqe (by simp [first])
  have logged : ∀ base : State, base.Records → base.ring.cq = s.ring.cq → base.log = s.log →
      ∀ args ut call result,
        ((base.rrLogSyscall args).returnCall ut call result).Unsignalled := by
    intro base records cq log args ut call result
    rw [records.loggedReturn]
    exact clear.append cq (by rw [log]) (by simp [LogArgs.payload])
  cases (inv.step taken).1 with
  | perform answer ut u sched user running performed => exact ⟨clear.completions, clear.log⟩
  | immediate answer ut u call result args user running next done =>
      exact logged s inv.records rfl rfl _ _ _ _
  | full answer ut u call op finish user running next submits half filled =>
      exact logged s inv.records rfl rfl _ _ _ _
  | refused answer ut u call op finish user running next submits half room failed =>
      exact logged (s.leave op) (inv.records.of_same rfl rfl) rfl rfl _ _ _ _
  | submitted answer ut u call op finish user running next submits half room accepted =>
      exact ⟨clear.completions, clear.log⟩
  | interrupted answer idle empty broken => exact clear
  | killed answer cqe rest idle empty first sentinel full fatal =>
      exact absurd sentinel (tagged cqe rest first)
  | signal answer cqe rest idle empty first sentinel full harmless =>
      exact absurd sentinel (tagged cqe rest first)
  | short answer cqe rest idle empty first sentinel short =>
      exact absurd sentinel (tagged cqe rest first)
  | wake answer cqe rest idle empty first other =>
      exact ⟨fun later member => clear.completions later (List.mem_of_mem_tail member), clear.log⟩
  | dispatch answer next u idle head found runnable =>
      have before : (s.logSwitch u.id).Unsignalled := by
        rw [inv.records.logSwitch]
        refine clear.append rfl rfl ?_
        unfold switchEvents
        split <;> simp
      have records : (s.logSwitch u.id).Records := by
        rw [inv.records.logSwitch]
        exact inv.records.of_same rfl rfl
      rcases (s.logSwitch u.id).switchTo_cases s.sched.runqPopFront.2 next
          (head_resumes inv.framed found runnable) with
        ⟨_, same⟩ | ⟨_, same⟩ | ⟨_, _, _, _, same⟩ | ⟨call, serial, finish, _, _, _, same⟩
      · rw [same]
        exact ⟨before.completions, before.log⟩
      · rw [same]
        exact ⟨before.completions, before.log⟩
      · rw [same]
        exact ⟨before.completions, before.log⟩
      · have arrived : (((s.logSwitch u.id).arrive s.sched.runqPopFront.2 next u.id).observe
            [.answered serial u.ioResult]).Records := records.of_same rfl rfl
        rw [same, arrived.loggedReturn]
        refine before.append rfl rfl ?_
        simp [LogArgs.payload]
  | post index res data sqe live flying =>
      refine ⟨?_, clear.log⟩
      intro cqe member
      rcases List.mem_append.mp member with old | fresh
      · exact clear.completions cqe old
      · obtain rfl := List.mem_singleton.mp fresh
        exact sequential sqe flying

/-- A recorded run in which nothing overlaps, nothing fails to be created or submitted, no signal
is consumed and all results fit their records is replayed step for step: `steps k` is how far
replay has come after `k` recorded steps, and at each of them the two correspond, whatever the
world answers meanwhile, as long as creations succeed. -/
theorem replay_follows_record (program : Program) (stackSize : Nat) (signalFd : Int32)
    (inputs : List Input) (recorded : State)
    (reached : exec (step program) (recordStart stackSize signalFd) inputs = some recorded)
    (sequential : Along (step program) (fun s input _ => s.Sequential program input)
      (recordStart stackSize signalFd) inputs)
    (genuine : ∀ id call result, .returned id call result ∈ recorded.history →
      call.Genuine result)
    (startTime : UInt64) (pid : UInt32) (replayStack : Nat)
    (choices : Nat → Answer × WaitAnswer) (created : ∀ n, (choices n).1.create.Succeeds) :
    ∃ steps : Nat → Nat, steps 0 = 0 ∧
      (∀ k, steps k ≤ steps (k + 1) ∧ steps (k + 1) ≤ steps k + 1) ∧
      ∀ k, ∃ r p, exec (step program) (recordStart stackSize signalFd) (inputs.take k) = some r ∧
        exec (advance program)
          (replayStart replayStack true (some (flushedLog startTime pid recorded.log)))
          ((List.range (steps k)).map choices) = some p ∧
        Corresponds program recorded.log r p := by
  have kept : ∀ s i t, Librr.step program s i = some t → s.Sequential program i →
      s.Recording ∧ s.Unsignalled → t.Recording ∧ t.Unsignalled := fun s i t taken holds inv =>
    ⟨(inv.1.step taken).2, inv.2.step inv.1 holds taken⟩
  have start : (recordStart stackSize signalFd).Unsignalled :=
    ⟨by simp [recordStart_eq, Ring.absent], by simp [recordStart_eq]⟩
  have clear := sequential.strengthen kept ⟨recordStart_recording stackSize signalFd, start⟩
  have steady : Along (step program) (Steady program id recorded.log)
      (recordStart stackSize signalFd) inputs := by
    refine ((clear.and (along_log reached)).and (along_history reached)).mono ?_
    rintro s input t ⟨⟨⟨holds, _, _, silent⟩, front⟩, past⟩
    refine ⟨?_, ?_, ?_, ?_, silent.log, front, ?_⟩
    · rintro answer rfl
      exact holds.1
    · rintro answer rfl
      exact holds.2.1
    · rintro answer ut u call op rfl running next issued
      exact holds.2.2 (by simp [submits, running, next, issued])
    · intro ut u _ _
      rw [Context.viewed, List.map_id]
      rfl
    · intro id call result member
      rw [(genuine id call result (past.subset member)).replayed]
      rfl
  obtain ⟨steps, zero, slow, pairs⟩ := lockstep_of_steady Sched.plain_id reached steady
    (log_of_exec reached) startTime pid replayStack created
  refine ⟨steps, zero, slow, ?_⟩
  intro k
  obtain ⟨r, p, ran, replayed, inv, tied⟩ := pairs k
  exact ⟨r, p, ran, replayed, tied.corresponds inv⟩

/-- The main thread asks the time and reads two bytes, then joins a second uthread, which
asks for the process id. -/
def readThenJoin : Program
  | none, [] => .call (.clockGettime 0 (List.replicate 16 0))
  | none, [_] => .call (.read 3 (some [0, 0, 0]) 3)
  | none, [_, _] => .create (some 0)
  | none, [_, _, _] => .join 2 true
  | none, _ => .ret
  | some _, [] => .call .getpid
  | some _, _ => .exit 9

def readThenJoinRun : List Input :=
  [.act { Answer.calm with real := ⟨0, 0, List.replicate 16 7, []⟩ }, .act .calm,
    .post 1 2 [65, 66], .loop .calm, .loop .calm, .act .calm, .act .calm, .loop .calm,
    .act { Answer.calm with real := ⟨42, 0, [], []⟩ }, .act .calm, .loop .calm, .act .calm]

theorem readThenJoin_history :
    ∃ recorded, exec (step readThenJoin) (recordStart 8192 5) readThenJoinRun = some recorded ∧
      recorded.history.filter (fun x => match x with | .returned .. => true | _ => false) =
        [.returned 1 (.clockGettime 0 (List.replicate 16 0))
          ⟨0, none, some (List.replicate 16 7), none⟩,
        .returned 1 (.read 3 (some [0, 0, 0]) 3) ⟨2, none, some [65, 66, 0], none⟩,
        .returned 2 .getpid ⟨42, none, none, none⟩] := by
  have ran : (exec (step readThenJoin) (recordStart 8192 5) readThenJoinRun).map
      (fun recorded => recorded.history.filter
        (fun x => match x with | .returned .. => true | _ => false)) =
        some [.returned 1 (.clockGettime 0 (List.replicate 16 0))
          ⟨0, none, some (List.replicate 16 7), none⟩,
        .returned 1 (.read 3 (some [0, 0, 0]) 3) ⟨2, none, some [65, 66, 0], none⟩,
        .returned 2 .getpid ⟨42, none, none, none⟩] := by decide +kernel
  exact Option.map_eq_some_iff.mp ran

/-- What the calls of the example give fits their records. -/
theorem readThenJoin_fits (id : UInt64) (call : Call) (result : CallResult)
    (among : Observation.returned id call result ∈
      [.returned 1 (.clockGettime 0 (List.replicate 16 0))
          ⟨0, none, some (List.replicate 16 7), none⟩,
        .returned 1 (.read 3 (some [0, 0, 0]) 3) ⟨2, none, some [65, 66, 0], none⟩,
        .returned 2 .getpid ⟨42, none, none, none⟩]) : call.Genuine result := by
  simp only [List.mem_cons, List.not_mem_nil, or_false, Observation.returned.injEq] at among
  rcases among with ⟨_, rfl, rfl⟩ | ⟨_, rfl, rfl⟩ | ⟨_, rfl, rfl⟩
  · exact Or.inr ⟨List.replicate 16 7, ⟨rfl, rfl, rfl⟩, rfl, rfl⟩
  · exact Or.inr ⟨[65, 66], ⟨rfl, rfl, rfl⟩, rfl, by decide⟩
  · exact ⟨⟨rfl, rfl, rfl⟩, by decide, by decide⟩

theorem readThenJoin_followed :
    ∃ recorded, exec (step readThenJoin) (recordStart 8192 5) readThenJoinRun = some recorded ∧
      ∃ steps : Nat → Nat, steps 0 = 0 ∧
        (∀ k, steps k ≤ steps (k + 1) ∧ steps (k + 1) ≤ steps k + 1) ∧
        ∀ k, ∃ r p,
          exec (step readThenJoin) (recordStart 8192 5) (readThenJoinRun.take k) = some r ∧
          exec (advance readThenJoin)
            (replayStart 8192 true (some (flushedLog 7 42 recorded.log)))
            ((List.range (steps k)).map fun _ => (.calm, .calm)) = some p ∧
          Corresponds readThenJoin recorded.log r p := by
  obtain ⟨recorded, reached, seen⟩ := readThenJoin_history
  refine ⟨recorded, reached, replay_follows_record readThenJoin 8192 5 readThenJoinRun recorded
    reached (by decide +kernel) ?_ 7 42 8192 (fun _ => (.calm, .calm)) (fun _ => by decide)⟩
  intro id call result member
  apply readThenJoin_fits id call result
  rw [← seen]
  exact List.mem_filter.mpr ⟨member, rfl⟩

/-- The main thread asks the time with a time zone of 7, 7, and asks for its process if the
zone is then west of Greenwich. -/
def zoneThenGetpid : Program
  | none, [] => .call (.gettimeofday (some (List.replicate 16 0)) (some [7, 0, 0, 0, 7, 0, 0, 0]))
  | none, [.returned result] =>
    if LittleEndian.combine ((result.second.getD []).take 4) = 0 then .ret else .call .getpid
  | _, _ => .ret

/-- libc stores a time zone of 0, 0. -/
def zoneThenGetpidRun : List Input :=
  [.act { Answer.calm with real := ⟨0, 0, List.replicate 16 3, List.replicate 8 0⟩ }, .act .calm]

/-- The recorded run sees the zone of libc and ends. Replay leaves the zone as it was, and
asks for the event of a `getpid` that was never made. -/
theorem stored_zone_not_followed :
    ∃ recorded, exec (step zoneThenGetpid) (recordStart 8192 5) zoneThenGetpidRun =
        some recorded ∧
      recorded.sched.control = .exited ∧
      Along (step zoneThenGetpid) (fun s input _ => s.Sequential zoneThenGetpid input)
        (recordStart 8192 5) zoneThenGetpidRun ∧
      recorded.log = [⟨1, 1, .sched 0 1⟩,
        ⟨2, 1, .syscall Nr.gettimeofday 0 0 (.ofBytes (List.replicate 16 3)) 16⟩] ∧
      (exec (advance zoneThenGetpid)
          (replayStart 8192 true (some (flushedLog 7 42 recorded.log)))
          [(.calm, .calm), (.calm, .calm)]).map State.history =
        some [.returned 1
            (.gettimeofday (some (List.replicate 16 0)) (some [7, 0, 0, 0, 7, 0, 0, 0]))
            ⟨0, none, some (List.replicate 16 3), some [7, 0, 0, 0, 7, 0, 0, 0]⟩,
          .mismatch, .returned 1 .getpid ⟨-1, some Errno.ENODATA, none, none⟩] ∧
      ¬ ∃ steps : Nat → Nat, steps 0 = 0 ∧
        (∀ k, steps k ≤ steps (k + 1) ∧ steps (k + 1) ≤ steps k + 1) ∧
        ∀ k, ∃ r p, exec (step zoneThenGetpid) (recordStart 8192 5) (zoneThenGetpidRun.take k) =
            some r ∧
          exec (advance zoneThenGetpid)
            (replayStart 8192 true (some (flushedLog 7 42 recorded.log)))
            ((List.range (steps k)).map fun _ => (.calm, .calm)) = some p ∧
          Corresponds zoneThenGetpid recorded.log r p := by
  have ran : (exec (step zoneThenGetpid) (recordStart 8192 5) zoneThenGetpidRun).map
      (fun recorded => (recorded.sched.control, recorded.log)) =
      some (.exited, [⟨1, 1, .sched 0 1⟩,
        ⟨2, 1, .syscall Nr.gettimeofday 0 0 (.ofBytes (List.replicate 16 3)) 16⟩]) := by
    decide +kernel
  obtain ⟨recorded, reached, facts⟩ := Option.map_eq_some_iff.mp ran
  obtain ⟨control, log⟩ := Prod.mk.inj facts
  refine ⟨recorded, reached, control, by decide +kernel, log, ?_, ?_⟩
  · rw [log]
    decide +kernel
  · rintro ⟨steps, zero, slow, pairs⟩
    -- After the first recorded step replay has made at most one.
    have early : steps 1 = 0 ∨ steps 1 = 1 := by
      have first : steps 1 ≤ steps 0 + 1 := (slow 0).2
      omega
    obtain ⟨r, p, taken, replayed, alike⟩ := pairs 1
    rw [log] at replayed
    have here : (some r).map (fun s => s.sched.traceAt 0) =
        some (some [(.call (.gettimeofday (some (List.replicate 16 0))
          (some [7, 0, 0, 0, 7, 0, 0, 0])), .returned ⟨0, none, some (List.replicate 16 3),
            some (List.replicate 8 0)⟩)]) := by
      rw [← taken]
      decide +kernel
    have there : (some p).map (fun s => s.sched.traceAt 0) = some (some []) ∨
        (some p).map (fun s => s.sched.traceAt 0) =
        some (some [(.call (.gettimeofday (some (List.replicate 16 0))
          (some [7, 0, 0, 0, 7, 0, 0, 0])), .returned ⟨0, none, some (List.replicate 16 3),
            some [7, 0, 0, 0, 7, 0, 0, 0]⟩)]) := by
      rcases early with none | one
      · left
        rw [← replayed, none]
        decide +kernel
      · right
        rw [← replayed, one]
        decide +kernel
    have same := alike.finished 0
    simp only [Option.map_some, Option.some.injEq] at here there
    rw [here] at same
    rcases there with start | moved
    · rw [start] at same
      cases same
    · rw [moved] at same
      revert same
      decide

end State

end Librr
