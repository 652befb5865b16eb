import Librr.Base.Acyclic
import Librr.Joins

set_option autoImplicit false

namespace Librr

open Relation Transition

namespace Sched

/-- No uthread waits for itself, directly or through others. -/
def NoCycle (s : Sched) : Prop := ∀ ut, ¬ TransGen s.JoinsAt ut ut

/-- Nobody enters a join. -/
def NoNewJoin (s t : Sched) : Prop := ∀ ut v, t.JoinsAt ut v → s.JoinsAt ut v

theorem NoCycle.fewer {s t : Sched} (acyclic : s.NoCycle) (fewer : s.NoNewJoin t) : t.NoCycle := by
  intro ut cycle
  exact acyclic ut (TransGen.mono fewer ut ut cycle)

theorem noNewJoin_of_core {s t : Sched} (core : t.core = s.core) : s.NoNewJoin t := by
  rintro ut v ⟨u, found, waits⟩
  exact ⟨u, by rw [← core]; exact found, waits⟩

/-- One record changes, and it is not in a join afterwards. -/
theorem noNewJoin_of_modify {s t : Sched} {cur : Ptr} {change : Uthread → Uthread}
    (core : t.core = s.core.modify cur change)
    (outside : ∀ u, s.core cur = some u → ∀ v, ¬ (change u).WaitsForJoin v) : s.NoNewJoin t := by
  rintro ut v ⟨u, found, waits⟩
  rw [core, Heap.modify_apply] at found
  split at found
  · rename_i same
    subst same
    obtain ⟨w, present, rfl⟩ := Option.map_eq_some_iff.mp found
    exact absurd waits (outside w present v)
  · exact ⟨u, found, waits⟩

theorem noNewJoin_reply {s : Sched} {cur : Ptr} {u : Uthread} (found : s.core cur = some u)
    (runs : u.state = .running) (action : Action) (reply : Reply) :
    s.NoNewJoin (s.reply cur action reply) := by
  refine noNewJoin_of_modify (reply_core s cur action reply) ?_
  intro v present
  rw [found] at present
  cases present
  exact (Uthread.idle (by simp [runs])).2

theorem noNewJoin_wake {s t : Sched} {cur : Ptr} {change : Uthread → Uthread}
    (core : t.core = s.core.modify cur (wakeRecord change)) : s.NoNewJoin t := by
  refine noNewJoin_of_modify core ?_
  intro u _ v
  by_cases blocked : u.state = .blocked
  · exact (wakeRecord_idle blocked change).2 v
  · rw [wakeRecord, if_neg blocked]
    exact (Uthread.idle blocked).2 v

theorem noNewJoin_created {s t : Sched} {fresh : Ptr} {record : Uthread}
    (core : t.core = s.core.set fresh record) (awake : record.state ≠ .blocked) :
    s.NoNewJoin t := by
  rintro ut v ⟨u, found, waits⟩
  rw [core, Heap.set_apply] at found
  split at found
  · cases found
    exact absurd waits ((Uthread.idle awake).2 v)
  · exact ⟨u, found, waits⟩

/-- A join that blocks adds the one edge from the caller to its target. -/
theorem joinsAt_joinWait {s t : Sched} {cur target : Ptr} {id : UInt64} {out : Bool}
    (apart : cur ≠ target)
    (core : t.core = (s.core.modify target (awaitedBy cur)).modify cur
      (suspend .blocked (.joining id out target))) (ut v : Ptr) (joins : t.JoinsAt ut v) :
    s.JoinsAt ut v ∨ ut = cur ∧ v = target := by
  obtain ⟨u, found, waits⟩ := joins
  rw [registered_records apart core] at found
  obtain ⟨w, present, rfl⟩ := Option.map_eq_some_iff.mp found
  by_cases own : ut = cur
  · rw [if_pos own] at waits
    obtain ⟨_, id', out', frame⟩ := waits
    cases frame
    exact .inr ⟨own, rfl⟩
  · rw [if_neg own] at waits
    by_cases its : ut = target
    · rw [if_pos its] at waits
      exact .inl ⟨w, present, waits⟩
    · rw [if_neg its] at waits
      exact .inl ⟨w, present, waits⟩

/-- The actions of the scheduler, where a join does not close a cycle. -/
theorem NoCycle.performed {stackSize : Nat} {s t : Sched} {tags : List UInt64} {ut : Ptr}
    {u : Uthread} {answer : CreateAnswer} {action : Action} (acyclic : s.NoCycle)
    (wakers : s.Wakers tags) (inv : s.QueueInvariant) (user : s.control = .user)
    (running : s.running = some (ut, u))
    (apart : ∀ id out target record, action = .join id out →
      s.rrSchedulerFind id = some (target, record) → target ≠ ut →
      record.joinWaiter = none ∨ record.joinWaiter = some ut →
      ¬ ReflTransGen s.JoinsAt target ut)
    (performed : s.Local stackSize ut u answer action t) : t.NoCycle := by
  obtain ⟨current, found, runs⟩ := inv.running_at user running
  cases performed with
  | create fn =>
      have grown : (s.uthreadCreate stackSize fn answer).1.NoCycle := by
        rcases s.uthreadCreate_effect stackSize fn answer with
          ⟨core, _⟩ | ⟨start, mem, _, core, _⟩
        · exact acyclic.fewer (noNewJoin_of_core core)
        · exact acyclic.fewer (noNewJoin_created core (by simp [newUthread]))
      exact grown.fewer (noNewJoin_reply (inv.create_core found stackSize fn answer) runs _ _)
  | yield =>
      refine acyclic.fewer (noNewJoin_of_modify (rrSchedulerYieldCurrent_core current inv.on) ?_)
      exact fun w _ => (Uthread.idle (by simp [suspend])).2
  | joinNow id out reply answered => exact acyclic.fewer (noNewJoin_reply found runs _ _)
  | joinWait id out target record hit other live free =>
      have others := join_apart running hit other
      have core := joinWait_core current inv.on target (.joining id out target)
      exact Acyclic.insert acyclic (joinsAt_joinWait others core)
        (apart id out target record rfl hit others.symm free)
  | exit value =>
      exact acyclic.fewer fun ut v joins =>
        ((wakers.joinsAt_exit current inv.on found runs value ut v).mp joins).1
  | ret fn started =>
      exact acyclic.fewer fun ut v joins =>
        ((wakers.joinsAt_exit current inv.on found runs 0 ut v).mp joins).1
  | stop main => exact acyclic.fewer (noNewJoin_of_core rfl)

/-- Where the loop finds the queue empty, whoever is not done is blocked. -/
theorem QueueInvariant.blocked_of_idle {s : Sched} (queue : s.QueueInvariant)
    (idle : s.control = .scheduler) (empty : s.runqHead = none) {ut : Ptr} {u : Uthread}
    (found : s.core ut = some u) (alive : u.state ≠ .done) : u.state = .blocked := by
  have state : s.stateOf ut = some u.state := by rw [stateOf_core, found, Option.map_some]
  cases here : u.state with
  | blocked => rfl
  | done => exact absurd here alive
  | running =>
      rw [here] at state
      exact absurd state (queue.scheduler idle ut)
  | runnable =>
      obtain ⟨items, shape, runnable⟩ := queue.runq
      rw [here] at state
      have queued := (runnable ut).mpr state
      rw [shape.empty_iff.mp empty] at queued
      cases queued

/-- A blocked uthread is in a call, or in a join of a uthread that is not done. -/
theorem Wakers.waits {s : Sched} {tags : List UInt64} (wakers : s.Wakers tags) (framed : s.Framed)
    {ut : Ptr} {u : Uthread} (found : s.core ut = some u) (blocked : u.state = .blocked) :
    u.WaitsForIo ∨ ∃ v w, s.JoinsAt ut v ∧ s.core v = some w ∧ w.state ≠ .done := by
  have fits := framed ut u found
  rw [Uthread.FrameFits, blocked] at fits
  cases frame : u.ctx.frame with
  | io call serial => exact .inl ⟨blocked, call, serial, frame⟩
  | joining id out target =>
      have joins : s.JoinsAt ut target := ⟨u, found, blocked, id, out, frame⟩
      obtain ⟨w, there, alive, _⟩ := (wakers.joins target ut).mpr joins
      exact .inr ⟨target, w, joins, there, alive⟩
  | user => rw [frame] at fits; exact fits.elim
  | yielding => rw [frame] at fits; exact fits.elim
  | exiting value => rw [frame] at fits; exact fits.elim

/-- Without a cycle of joins, an idle scheduler whose uthreads are not all done has one that
is blocked in a call. -/
theorem Wakers.someone_in_call {s : Sched} {tags : List UInt64} (wakers : s.Wakers tags)
    (queue : s.QueueInvariant) (framed : s.Framed) (acyclic : s.NoCycle)
    (idle : s.control = .scheduler) (empty : s.runqHead = none) {ut : Ptr} {u : Uthread}
    (found : s.heap ut = some u) (alive : u.state ≠ .done) :
    ∃ caller v, s.core caller = some v ∧ v.WaitsForIo := by
  -- The uthreads that are not done, of which there are finitely many.
  let living : Set Ptr := { ut | ∃ u, s.core ut = some u ∧ u.state ≠ .done }
  have finite : living.Finite := by
    refine (Set.finite_lt_nat s.brk).subset ?_
    rintro ut ⟨u, found, _⟩
    by_contra above
    rw [queue.unallocated ut (Nat.not_lt.mp above)] at found
    cases found
  obtain ⟨caller, _, v, present, waits⟩ : ∃ caller ∈ living, ∃ v, s.core caller = some v ∧
      v.WaitsForIo := by
    refine Acyclic.exists_end acyclic finite ⟨ut, u.core, core_some found, alive⟩ ?_
    rintro ut ⟨u, found, alive⟩
    have blocked := queue.blocked_of_idle idle empty found alive
    rcases wakers.waits framed found blocked with io | ⟨v, w, joins, there, alive'⟩
    · exact .inl ⟨u, found, io⟩
    · exact .inr ⟨v, ⟨w, there, alive'⟩, joins⟩
  exact ⟨caller, v, present, waits⟩

end Sched

namespace State

/-- If the step is a join of another uthread that nobody else waits for, so that it is not
refused with EBUSY, this uthread does not wait for the caller, directly or through others. -/
def OpensNoCycle (program : Program) (s : State) : Input → Prop
  | .act _ => ∀ ut u id out target record, s.sched.running = some (ut, u) →
    program u.startFn u.ctx.replies = .join id out →
    s.sched.rrSchedulerFind id = some (target, record) → target ≠ ut →
    record.joinWaiter = none ∨ record.joinWaiter = some ut →
    ¬ ReflTransGen s.sched.JoinsAt target ut
  | _ => True

theorem noNewJoin_returned {s base : State} {ut : Ptr} {u : Uthread}
    (queue : s.sched.QueueInvariant) (user : s.sched.control = .user)
    (running : s.sched.running = some (ut, u)) (same : base.sched = s.sched) (args : LogArgs)
    (call : Call) (result : CallResult) :
    s.sched.NoNewJoin ((base.rrLogSyscall args).returnCall ut call result).sched := by
  obtain ⟨_, found, runs⟩ := queue.running_at user running
  rw [loggedReturn_sched, same]
  exact Sched.noNewJoin_reply found runs _ _

theorem Watched.noCycle {program : Program} {s t : State} {input : Input} (inv : s.Watched)
    (acyclic : s.sched.NoCycle) (taken : Librr.step program s input = some t)
    (opens : s.OpensNoCycle program input) : t.sched.NoCycle := by
  obtain ⟨kind, _⟩ := inv.recording.step taken
  cases kind with
  | perform answer ut u sched user running performed =>
      refine acyclic.performed inv.wakers inv.recording.queue user running ?_ performed
      intro id out target record joins hit apart free
      exact opens ut u id out target record running joins hit apart free
  | immediate answer ut u call result args user running next done =>
      exact acyclic.fewer (noNewJoin_returned inv.recording.queue user running rfl _ _ _)
  | full answer ut u call op finish user running next submits half filled =>
      exact acyclic.fewer (noNewJoin_returned inv.recording.queue user running rfl _ _ _)
  | refused answer ut u call op finish user running next submits half room failed =>
      have same : (s.leave op).sched = s.sched := rfl
      exact acyclic.fewer (noNewJoin_returned inv.recording.queue user running same _ _ _)
  | submitted answer ut u call op finish user running next submits half room accepted =>
      obtain ⟨current, _⟩ := Sched.of_running running
      refine acyclic.fewer (Sched.noNewJoin_of_modify
        (Sched.rrSchedulerBlockCurrent_core current inv.recording.queue.on _) ?_)
      rintro w _ v ⟨_, id, out, frame⟩
      cases frame
  | interrupted answer idle empty broken => exact acyclic
  | killed answer cqe rest idle empty first sentinel full fatal =>
      exact acyclic.fewer (Sched.noNewJoin_of_core rfl)
  | signal answer cqe rest idle empty first sentinel full harmless =>
      rw [cqeSeen, (rearmSignalRead_kept _ _).1, (rrLogSignal_same _ _ _).sched]
      exact acyclic
  | short answer cqe rest idle empty first sentinel short =>
      rw [cqeSeen, (rearmSignalRead_kept _ _).1]
      exact acyclic
  | wake answer cqe rest idle empty first tagged =>
      obtain ⟨ut, v, here, hit, waits⟩ := inv.owner_found first tagged
      have core := s.sched.rrSchedulerWakeById_core cqe.userData cqe.res none 0
      rw [hit] at core
      exact acyclic.fewer (Sched.noNewJoin_wake core)
  | dispatch answer next u idle head found runnable =>
      obtain ⟨trace, core⟩ := switchTo_core (t := s.logSwitch u.id)
        (head_resumes inv.recording.framed found runnable) found
      refine acyclic.fewer (Sched.noNewJoin_of_modify core ?_)
      exact fun w _ => (Uthread.idle (by simp)).2
  | post index res data sqe live flying => exact acyclic

/-- The call such a uthread is in has its operation outstanding. -/
theorem Watched.someone_in_call {s : State} (inv : s.Watched) (acyclic : s.sched.NoCycle)
    (idle : s.sched.control = .scheduler) (empty : s.sched.runqHead = none) {ut : Ptr}
    {u : Uthread} (found : s.sched.heap ut = some u) (alive : u.state ≠ .done) :
    ∃ caller v, s.sched.heap caller = some v ∧ v.WaitsForIo ∧ s.ring.outstanding v.id = 1 := by
  obtain ⟨caller, v, present, waits⟩ := inv.wakers.someone_in_call inv.recording.queue
    inv.recording.framed acyclic idle empty found alive
  obtain ⟨w, here, rfl⟩ := Sched.of_core_some present
  exact ⟨caller, w, here, waits, (inv.in_call here waits).1⟩

theorem recordStart_noCycle (stackSize : Nat) (signalFd : Int32) :
    (recordStart stackSize signalFd).sched.NoCycle := by
  have start : (recordStart stackSize signalFd).sched = Sched.afterInit := rfl
  intro ut cycle
  obtain ⟨v, ⟨u, found, blocked, _⟩, _⟩ := TransGen.head'_iff.mp cycle
  rw [start, Sched.core] at found
  by_cases main : ut = 0
  · subst main
    cases found
    cases blocked
  · simp [Sched.afterInit, Heap.set_other _ _ main] at found

/-- In every recording run in which submission succeeds and no join closes a cycle, the
loop finds the run queue empty only if all uthreads are done or one is blocked in a call
whose operation is outstanding. -/
theorem no_silent_deadlock (program : Program) (stackSize : Nat) (signalFd : Int32)
    (inputs : List Input) (s : State)
    (reached : exec (step program) (recordStart stackSize signalFd) inputs = some s)
    (submitting : ∀ input ∈ inputs, Submitting input)
    (opens : Along (step program) (fun before input _ => before.OpensNoCycle program input)
      (recordStart stackSize signalFd) inputs)
    (unwrapped : s.sched.nextId < 2 ^ 64) (idle : s.sched.control = .scheduler)
    (empty : s.sched.runqHead = none) :
    (∀ ut u, s.sched.heap ut = some u → u.state = .done) ∨
      ∃ caller v, s.sched.heap caller = some v ∧ v.WaitsForIo ∧ s.ring.outstanding v.id = 1 := by
  have kept : ∀ before input after, step program before input = some after →
      Submitting input → before.OpensNoCycle program input → before.Watched →
      before.sched.NoCycle → after.sched.NoCycle :=
    fun _ _ _ taken _ opens watched acyclic => watched.noCycle acyclic taken opens
  obtain ⟨watched, acyclic⟩ := watched_run kept (recordStart_watched stackSize signalFd)
    (recordStart_noCycle stackSize signalFd) submitting opens reached unwrapped
  by_cases living : ∃ ut u, s.sched.heap ut = some u ∧ u.state ≠ .done
  · obtain ⟨ut, u, found, alive⟩ := living
    exact .inr (watched.someone_in_call acyclic idle empty found alive)
  · exact .inl fun ut u found => by_contra fun alive => living ⟨ut, u, found, alive⟩

/-- A join whose target is not blocked. -/
def joinsAwake (program : Program) (s : State) : Input → Bool
  | .act _ =>
    match s.sched.running with
    | none => true
    | some (_, u) =>
      match program u.startFn u.ctx.replies with
      | .join id _ => (s.sched.rrSchedulerFind id).all fun hit => hit.2.state ≠ .blocked
      | _ => true
  | _ => true

/-- Whoever is not blocked waits for nobody. -/
theorem opensNoCycle_of_awake {program : Program} {s : State} {input : Input}
    (awake : s.joinsAwake program input = true) : s.OpensNoCycle program input := by
  cases input with
  | act answer =>
      intro ut u id out target record running joins hit apart _ path
      simp only [joinsAwake, running, joins, hit, Option.all_some, decide_eq_true_eq] at awake
      rcases ReflTransGen.cases_head path with same | ⟨v, ⟨w, present, waits⟩, _⟩
      · exact apart same
      · rw [Sched.core_some (Sched.rrSchedulerFind_some hit).2.1] at present
        cases present
        exact awake waits.1
  | loop answer => trivial
  | post index res data => trivial

/-- The main thread creates a uthread and joins it; the other one reads. -/
def joinReader : Program
  | none, [] => .create (some 0)
  | none, _ => .join 2 true
  | some _, _ => .call (.read 3 (some [0]) 1)

theorem joinReader_not_stuck :
    ∃ s, exec (step joinReader) (recordStart 8192 5)
        [.act .calm, .act .calm, .loop .calm, .act .calm] = some s ∧
      s.sched.control = .scheduler ∧ s.sched.runqHead = none ∧
      ((∀ ut u, s.sched.heap ut = some u → u.state = .done) ∨
        ∃ caller v, s.sched.heap caller = some v ∧ v.WaitsForIo ∧
          s.ring.outstanding v.id = 1) := by
  have ran : (exec (step joinReader) (recordStart 8192 5)
      [.act .calm, .act .calm, .loop .calm, .act .calm]).map (fun s =>
        (decide (s.sched.nextId < 2 ^ 64), s.sched.control, s.sched.runqHead)) =
      some (true, .scheduler, none) := by decide +kernel
  obtain ⟨s, reached, facts⟩ := Option.map_eq_some_iff.mp ran
  obtain ⟨unwrapped, rest⟩ := Prod.mk.inj facts
  obtain ⟨idle, empty⟩ := Prod.mk.inj rest
  have submitting : ∀ input ∈ [Input.act .calm, .act .calm, .loop .calm, .act .calm],
      Submitting input := by
    intro input member
    simp only [List.mem_cons, List.not_mem_nil, or_false] at member
    rcases member with rfl | rfl | rfl | rfl <;> rfl
  have awake : Along (step joinReader)
      (fun before input _ => before.joinsAwake joinReader input = true) (recordStart 8192 5)
      [.act .calm, .act .calm, .loop .calm, .act .calm] := by decide +kernel
  exact ⟨s, reached, idle, empty, no_silent_deadlock joinReader 8192 5 _ s reached submitting
    (awake.mono fun _ _ _ holds => opensNoCycle_of_awake holds) (of_decide_eq_true unwrapped)
    idle empty⟩

/-- The main thread creates a uthread and joins it; the other one joins the main thread. -/
def joinEachOther : Program
  | none, [] => .create (some 0)
  | none, _ => .join 2 true
  | some _, _ => .join 1 true

/-- Both joins are accepted, and nobody is left to wake anybody. -/
theorem joinEachOther_deadlocks :
    ∃ s, exec (step joinEachOther) (recordStart 8192 5)
        [.act .calm, .act .calm, .loop .calm, .act .calm] = some s ∧
      s.sched.control = .scheduler ∧ s.sched.runqHead = none ∧
      s.sched.stateOf 0 = some .blocked ∧ s.sched.stateOf 1 = some .blocked ∧
      ¬ ∃ caller v, s.sched.heap caller = some v ∧ v.WaitsForIo := by
  have ran : (exec (step joinEachOther) (recordStart 8192 5)
      [.act .calm, .act .calm, .loop .calm, .act .calm]).map (fun s =>
        (s.sched.control, s.sched.runqHead, s.sched.brk, s.sched.stateOf 0, s.sched.stateOf 1)) =
      some (.scheduler, none, 2, some .blocked, some .blocked) := by decide +kernel
  have frames : (exec (step joinEachOther) (recordStart 8192 5)
      [.act .calm, .act .calm, .loop .calm, .act .calm]).map (fun s =>
        ((s.sched.heap 0).map (·.ctx.frame), (s.sched.heap 1).map (·.ctx.frame))) =
      some (some (.joining 2 true 1), some (.joining 1 true 0)) := by decide +kernel
  obtain ⟨s, reached, facts⟩ := Option.map_eq_some_iff.mp ran
  rw [reached, Option.map_some, Option.some_inj, Prod.mk.injEq] at frames
  obtain ⟨frame, frame'⟩ := frames
  simp only [Prod.mk.injEq] at facts
  obtain ⟨idle, empty, brk, main, other⟩ := facts
  refine ⟨s, reached, idle, empty, main, other, ?_⟩
  rintro ⟨caller, v, found, _, call, serial, inside⟩
  have recording := recording_of_exec reached
  have below : caller < 2 := by
    by_contra above
    have vacant := recording.queue.unallocated caller (by omega)
    rw [Sched.core_some found] at vacant
    cases vacant
  rcases (show caller = 0 ∨ caller = 1 by omega) with rfl | rfl
  · rw [found, Option.map_some, inside] at frame
    cases frame
  · rw [found, Option.map_some, inside] at frame'
    cases frame'

end State

end Librr
