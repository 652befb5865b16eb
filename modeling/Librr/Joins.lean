import Librr.OneWaker

set_option autoImplicit false

namespace Librr

open Transition

/-- The uthread ended by an exit with its value, or by the return of its start routine. -/
def Uthread.EndedBy (program : Program) (u : Uthread) : Prop :=
  program u.startFn u.ctx.replies = .exit u.retval ∨
    program u.startFn u.ctx.replies = .ret ∧ u.retval = 0

namespace Sched

/-- What a join of `id` may give: the uthread is done, and the value is its own. -/
def JoinResult (s : Sched) (id : UInt64) (out : Bool) (value : Option UInt64) : Prop :=
  ∃ target v, s.core target = some v ∧ v.id = id ∧ v.state = .done ∧
    value = if out then some v.retval else none

/-- What is known of a record: its successful joins gave what they may, it stands in a
join of a uthread that is done if it may go on, and it ended as its program says. -/
structure Answered (program : Program) (s : Sched) (u : Uthread) : Prop where
  answers : ∀ id out value, (Action.join id out, Reply.joined 0 none value) ∈ u.ctx.trace →
    s.JoinResult id out value
  aimed : ∀ id out target, u.ctx.frame = .joining id out target →
    ∃ v, s.core target = some v ∧ v.id = id ∧ (u.state = .runnable → v.state = .done)
  ended : u.state = .done → u.EndedBy program

def Joined (program : Program) (s : Sched) : Prop :=
  ∀ ut u, s.core ut = some u → Answered program s u

/-- Nobody loses its id, and whoever is done stays so with its value. -/
def Lasting (s t : Sched) : Prop :=
  ∀ ut v, s.core ut = some v → ∃ w, t.core ut = some w ∧ w.id = v.id ∧
    (v.state = .done → w.state = .done ∧ w.retval = v.retval)

theorem Lasting.of_core {s t : Sched} (core : t.core = s.core) : s.Lasting t := by
  intro ut v found
  exact ⟨v, by rw [core]; exact found, rfl, fun done => ⟨done, rfl⟩⟩

theorem Lasting.of_map {s t : Sched} {change : Ptr → Uthread → Uthread}
    (core : ∀ ut, t.core ut = (s.core ut).map (change ut))
    (kept : ∀ ut v, s.core ut = some v → (change ut v).id = v.id ∧
      (v.state = .done → (change ut v).state = .done ∧ (change ut v).retval = v.retval)) :
    s.Lasting t := by
  intro ut v found
  exact ⟨change ut v, by rw [core, found, Option.map_some], kept ut v found⟩

theorem JoinResult.lasting {s t : Sched} (lasting : s.Lasting t) {id : UInt64} {out : Bool}
    {value : Option UInt64} (result : s.JoinResult id out value) : t.JoinResult id out value := by
  obtain ⟨target, v, found, named, done, given⟩ := result
  obtain ⟨w, present, same, ends⟩ := lasting target v found
  obtain ⟨done', retval⟩ := ends done
  exact ⟨target, w, present, same.trans named, done', by rw [retval]; exact given⟩

theorem Answered.lasting {program : Program} {s t : Sched} {u : Uthread}
    (answered : Answered program s u) (lasting : s.Lasting t) : Answered program t u := by
  refine ⟨?_, ?_, answered.ended⟩
  · intro id out value member
    exact (answered.answers id out value member).lasting lasting
  · intro id out target frame
    obtain ⟨v, found, named, ready⟩ := answered.aimed id out target frame
    obtain ⟨w, present, same, ends⟩ := lasting target v found
    exact ⟨w, present, same.trans named, fun runnable => (ends (ready runnable)).1⟩

/-- A fact about every record, with one of them taken apart. -/
theorem forall_core {s : Sched} {cur : Ptr} {u : Uthread} {holds : Ptr → Uthread → Prop}
    (found : s.core cur = some u) (own : holds cur u)
    (others : ∀ ut v, ut ≠ cur → s.core ut = some v → holds ut v) :
    ∀ ut v, s.core ut = some v → holds ut v := by
  intro ut v present
  by_cases same : ut = cur
  · rw [same, found] at present
    cases present
    exact same ▸ own
  · exact others ut v same present

/-- Every record changes on its own. -/
theorem Joined.of_map {program : Program} {s t : Sched} {change : Ptr → Uthread → Uthread}
    (core : ∀ ut, t.core ut = (s.core ut).map (change ut))
    (each : ∀ ut u, s.core ut = some u → Answered program t (change ut u)) : Joined program t := by
  intro ut u found
  rw [core] at found
  obtain ⟨v, present, rfl⟩ := Option.map_eq_some_iff.mp found
  exact each ut v present

/-- One record changes that is not done. -/
theorem Joined.modify {program : Program} {s t : Sched} {cur : Ptr} {u : Uthread}
    {change : Uthread → Uthread} (joined : Joined program s)
    (core : t.core = s.core.modify cur change) (found : s.core cur = some u)
    (alive : u.state ≠ .done) (named : (change u).id = u.id)
    (answered : s.Lasting t → Answered program t (change u)) : Joined program t := by
  have records : ∀ ut, t.core ut = (s.core ut).map fun v => if ut = cur then change v else v :=
    fun ut => by rw [core, Heap.modify_eq_map]
  have lasting : s.Lasting t := by
    apply Lasting.of_map records
    refine forall_core found ?_ ?_
    · simp only [if_true]
      exact ⟨named, fun done => absurd done alive⟩
    · intro ut v apart _
      simp only [if_neg apart]
      exact ⟨trivial, fun done => ⟨done, trivial⟩⟩
  apply Joined.of_map records
  refine forall_core found ?_ ?_
  · simp only [if_true]
    exact answered lasting
  · intro ut v apart present
    simp only [if_neg apart]
    exact (joined ut v present).lasting lasting

/-- A record that is not in a join and not done has only its trace to answer for. -/
theorem Answered.of_trace {program : Program} {t : Sched} {u : Uthread}
    (answers : ∀ id out value, (Action.join id out, Reply.joined 0 none value) ∈ u.ctx.trace →
      t.JoinResult id out value)
    (outside : ∀ id out target, u.ctx.frame ≠ .joining id out target) (alive : u.state ≠ .done) :
    Answered program t u :=
  ⟨answers, fun id out target frame => absurd frame (outside id out target),
    fun done => absurd done alive⟩

theorem Joined.reply {program : Program} {s : Sched} {cur : Ptr} {u : Uthread}
    (joined : Joined program s) (found : s.core cur = some u) (runs : u.state = .running)
    (action : Action) (reply : Reply)
    (given : ∀ id out value, action = .join id out → reply = .joined 0 none value →
      s.JoinResult id out value) : Joined program (s.reply cur action reply) := by
  refine joined.modify (reply_core s cur action reply) found (by simp [runs]) rfl ?_
  intro lasting
  refine .of_trace ?_ (fun _ _ _ frame => by cases frame) (by simp [runs])
  intro id out value member
  rcases List.mem_append.mp member with old | new
  · exact ((joined cur u found).answers id out value old).lasting lasting
  · obtain ⟨same, same'⟩ := Prod.mk.inj (List.mem_singleton.mp new)
    exact (given id out value same.symm same'.symm).lasting lasting

/-- The running uthread is suspended outside a join. -/
theorem Joined.suspend {program : Program} {s t : Sched} {cur : Ptr} {u : Uthread}
    (joined : Joined program s) (found : s.core cur = some u) (runs : u.state = .running)
    {state : UtState} {frame : Frame}
    (core : t.core = s.core.modify cur (Sched.suspend state frame))
    (outside : ∀ id out target, frame ≠ .joining id out target) (alive : state ≠ .done) :
    Joined program t := by
  refine joined.modify core found (by simp [runs]) rfl ?_
  intro lasting
  refine .of_trace ?_ outside alive
  intro id out value member
  exact ((joined cur u found).answers id out value member).lasting lasting

theorem Joined.of_core {program : Program} {s t : Sched} (joined : Joined program s)
    (core : t.core = s.core) : Joined program t := by
  intro ut u found
  rw [core] at found
  exact (joined ut u found).lasting (.of_core core)

/-- A fresh record has no past. -/
theorem Joined.created {program : Program} {s t : Sched} {fresh : Ptr} {record : Uthread}
    (joined : Joined program s) (core : t.core = s.core.set fresh record)
    (vacant : s.core fresh = none) (new : record.ctx = .start) (awake : record.state = .runnable) :
    Joined program t := by
  have lasting : s.Lasting t := by
    intro ut v found
    have apart : ut ≠ fresh := by
      rintro rfl
      rw [vacant] at found
      cases found
    exact ⟨v, by rw [core, Heap.set_other _ _ apart]; exact found, rfl, fun done => ⟨done, rfl⟩⟩
  intro ut u found
  rw [core, Heap.set_apply] at found
  split at found
  · cases found
    refine .of_trace ?_ ?_ (by simp [awake])
    · intro id out value member
      rw [new] at member
      cases member
    · intro id out target frame
      rw [new] at frame
      cases frame
  · exact (joined ut u found).lasting lasting

/-- A join that succeeds at once finds its target done. -/
theorem rrUthreadJoin_zero {s t : Sched} {id : UInt64} {out : Bool} {value : Option UInt64}
    (answered : s.rrUthreadJoin id out = (t, some (.joined 0 none value))) :
    s.JoinResult id out value := by
  unfold rrUthreadJoin at answered
  cases hit : s.rrSchedulerFind id with
  | none => simp [hit] at answered
  | some entry =>
      obtain ⟨ut, target⟩ := entry
      obtain ⟨_, found, named⟩ := rrSchedulerFind_some hit
      rw [hit] at answered
      have gives : target.state = .done → value = (if out then some target.retval else none) →
          s.JoinResult id out value := fun done given =>
        ⟨ut, target.core, core_some found, named, done, given⟩
      cases active : s.running with
      | none =>
          rw [active] at answered
          by_cases done : target.state = .done
          · simp only [if_pos done, Prod.mk.injEq, Option.some.injEq, Reply.joined.injEq,
              true_and] at answered
            exact gives done answered.2.symm
          · simp [if_neg done] at answered
      | some mine =>
          rw [active] at answered
          simp only at answered
          by_cases own : target.id = mine.2.id
          · simp [if_pos own] at answered
          rw [if_neg own] at answered
          by_cases done : target.state = .done
          · simp only [if_pos done, Prod.mk.injEq, Option.some.injEq, Reply.joined.injEq,
              true_and] at answered
            exact gives done answered.2.symm
          · rw [if_neg done] at answered
            split at answered
            · simp at answered
            · simp at answered

/-- The running uthread blocks in a join. -/
theorem Joined.joinWait {program : Program} {s t : Sched} {cur target : Ptr} {u record : Uthread}
    {id : UInt64} {out : Bool} (joined : Joined program s) (found : s.core cur = some u)
    (runs : u.state = .running) (hit : s.core target = some record) (named : record.id = id)
    (apart : cur ≠ target)
    (core : t.core = (s.core.modify target (awaitedBy cur)).modify cur
      (Sched.suspend .blocked (.joining id out target))) : Joined program t := by
  have records := registered_records apart core
  have lasting : s.Lasting t := by
    apply Lasting.of_map records
    refine forall_core found ?_ ?_
    · simp [Sched.suspend, runs]
    · intro ut v own _
      by_cases its : ut = target
      · simp only [if_neg own, if_pos its]
        exact ⟨rfl, fun done => ⟨done, rfl⟩⟩
      · simp only [if_neg own, if_neg its]
        exact ⟨trivial, fun done => ⟨done, trivial⟩⟩
  apply Joined.of_map records
  refine forall_core found ?_ ?_
  · have before := (joined cur u found).lasting lasting
    simp only [if_true]
    refine ⟨before.answers, ?_, fun done => by cases done⟩
    intro id' out' target' frame
    cases frame
    obtain ⟨w, there, same, _⟩ := lasting target record hit
    exact ⟨w, there, same.trans named, fun runnable => by cases runnable⟩
  · intro ut v own present
    have before := (joined ut v present).lasting lasting
    by_cases its : ut = target
    · simp only [if_neg own, if_pos its]
      exact ⟨before.answers, before.aimed, before.ended⟩
    · simp only [if_neg own, if_neg its]
      exact before

/-- The running uthread is done, and whoever is woken by that waits for just that. -/
theorem Joined.exit {program : Program} {s : Sched} {tags : List UInt64} {cur : Ptr} {u : Uthread}
    (joined : Joined program s) (wakers : s.Wakers tags) (current : s.current = some cur)
    (on : s.schedRunning = true) (found : s.core cur = some u) (runs : u.state = .running)
    {value : UInt64} (ends : program u.startFn u.ctx.replies = .exit value ∨
      program u.startFn u.ctx.replies = .ret ∧ value = 0) :
    Joined program (s.rrSchedulerExitCurrent value) := by
  have records := rrSchedulerExitCurrent_core current on value
  have lasting : s.Lasting (s.rrSchedulerExitCurrent value) := by
    apply Lasting.of_map records
    refine forall_core found ?_ ?_
    · simp [markDone, runs]
    · intro ut v own _
      simp only [if_neg own]
      split
      · unfold wakeRecord
        split
        · rename_i blocked
          exact ⟨rfl, fun done => by rw [blocked] at done; cases done⟩
        · exact ⟨rfl, fun done => ⟨done, rfl⟩⟩
      · exact ⟨rfl, fun done => ⟨done, rfl⟩⟩
  have gone : ∃ w, (s.rrSchedulerExitCurrent value).core cur = some w ∧ w.id = u.id ∧
      w.state = .done := by
    rw [records, found, Option.map_some]
    exact ⟨_, rfl, by simp [markDone], by simp [markDone]⟩
  apply Joined.of_map records
  refine forall_core found ?_ ?_
  · have before := (joined cur u found).lasting lasting
    simp only [if_true]
    exact ⟨before.answers, fun _ _ _ frame => (by cases frame), fun _ => ends⟩
  · intro ut v own present
    have before := (joined ut v present).lasting lasting
    simp only [if_neg own]
    split
    · rename_i woken
      obtain ⟨w, here, waits⟩ := (wakers.joins cur ut).mp ((joinWaiter_iff found runs ut).mp woken)
      rw [present] at here
      cases here
      have blocked := waits.1
      rw [wakeRecord, if_pos blocked]
      refine ⟨before.answers, ?_, fun done => by cases done⟩
      intro id out target frame
      -- The join it stands in is the one of the uthread that exits.
      obtain rfl : cur = target := waits.target_inj ⟨blocked, id, out, frame⟩
      obtain ⟨aim, there, named, _⟩ := before.aimed id out cur frame
      obtain ⟨last, ended, _, done⟩ := gone
      rw [there] at ended
      cases ended
      exact ⟨aim, there, named, fun _ => done⟩
    · exact before

/-- A uthread is woken that is in a call. -/
theorem Joined.woken {program : Program} {s t : Sched} {cur : Ptr} {u : Uthread}
    (joined : Joined program s) (found : s.core cur = some u) (waits : u.WaitsForIo)
    {change : Uthread → Uthread} (kept : ∀ v, (change v).ctx = v.ctx ∧ (change v).id = v.id)
    (core : t.core = s.core.modify cur (wakeRecord change)) : Joined program t := by
  obtain ⟨blocked, call, serial, frame⟩ := waits
  have woken : wakeRecord change u = { change u with state := .runnable } := by
    rw [wakeRecord, if_pos blocked]
  refine joined.modify core found (by simp [blocked]) (by rw [woken]; exact (kept u).2) ?_
  intro lasting
  rw [woken]
  refine .of_trace ?_ ?_ (by simp)
  · intro id out value member
    simp only [(kept u).1] at member
    exact ((joined cur u found).answers id out value member).lasting lasting
  · intro id out target other
    simp only [(kept u).1, frame] at other
    cases other

/-- A runnable uthread goes on in its user code. -/
theorem Joined.resumed {program : Program} {s t : Sched} {next : Ptr} {u : Uthread}
    (joined : Joined program s) (found : s.core next = some u) (runnable : u.state = .runnable)
    (action : Action) (reply : Reply)
    (core : t.core = s.core.modify next fun v =>
      { v with state := .running, ctx := ⟨v.ctx.trace ++ [(action, reply)], .user⟩ })
    (given : ∀ id out value, action = .join id out → reply = .joined 0 none value →
      s.JoinResult id out value) : Joined program t := by
  refine joined.modify core found (by simp [runnable]) rfl ?_
  intro lasting
  refine .of_trace ?_ (fun _ _ _ frame => by cases frame) (by simp)
  intro id out value member
  rcases List.mem_append.mp member with old | new
  · exact ((joined next u found).answers id out value old).lasting lasting
  · obtain ⟨same, same'⟩ := Prod.mk.inj (List.mem_singleton.mp new)
    exact (given id out value same.symm same'.symm).lasting lasting

/-- The value a resumed join reads. -/
theorem dispatch_retval (s : Sched) (next target : Ptr) :
    ((s.runqPopFront.2.dispatch next).heap target).map Uthread.retval =
      (s.core target).map Uthread.retval := by
  have core : ((s.runqPopFront.2.dispatch next).heap target).map Uthread.retval =
      ((s.runqPopFront.2.dispatch next).core target).map Uthread.retval := by
    rw [Sched.core, Option.map_map]
    rfl
  rw [core, dispatch_core, runqPopFront_core, Heap.modify_eq_map, Option.map_map]
  congr 1
  funext v
  simp only [Function.comp_apply]
  split <;> rfl

/-- The actions of the scheduler. -/
theorem Joined.performed {program : Program} {stackSize : Nat} {s t : Sched} {tags : List UInt64}
    {ut : Ptr} {u : Uthread} {answer : CreateAnswer} (joined : Joined program s)
    (wakers : s.Wakers tags) (inv : s.QueueInvariant) (user : s.control = .user)
    (running : s.running = some (ut, u))
    (performed : s.Local stackSize ut u answer (program u.startFn u.ctx.replies) t) :
    Joined program t := by
  obtain ⟨current, found, runs⟩ := inv.running_at user running
  generalize next : program u.startFn u.ctx.replies = action at performed
  cases performed with
  | create fn =>
      have grown : Joined program (s.uthreadCreate stackSize fn answer).1 := by
        rcases s.uthreadCreate_effect stackSize fn answer with
          ⟨core, _⟩ | ⟨start, mem, _, core, _⟩
        · exact joined.of_core core
        · exact joined.created core (inv.unallocated s.brk (Nat.le_refl _)) rfl rfl
      apply grown.reply (inv.create_core found stackSize fn answer) runs
      intro _ _ _ same
      cases same
  | yield =>
      exact joined.suspend found runs (rrSchedulerYieldCurrent_core current inv.on)
        (fun _ _ _ frame => by cases frame) (by simp)
  | joinNow id out reply answered =>
      refine joined.reply found runs _ _ ?_
      intro id' out' value same same'
      cases same
      subst same'
      exact rrUthreadJoin_zero answered
  | joinWait id out target record hit apart live free =>
      obtain ⟨_, there, named⟩ := rrSchedulerFind_some hit
      have core := joinWait_core current inv.on target (.joining id out target)
      exact joined.joinWait found runs (core_some there) named (join_apart running hit apart) core
  | exit value => exact joined.exit wakers current inv.on found runs (.inl next)
  | ret fn started => exact joined.exit wakers current inv.on found runs (.inr ⟨next, rfl⟩)
  | stop main => exact joined.of_core rfl

end Sched

namespace State

theorem joined_returned {program : Program} {s base : State} {ut : Ptr} {u : Uthread}
    (joined : Sched.Joined program s.sched) (queue : s.sched.QueueInvariant)
    (user : s.sched.control = .user) (running : s.sched.running = some (ut, u))
    (same : base.sched = s.sched) (args : LogArgs) (call : Call) (result : CallResult) :
    Sched.Joined program ((base.rrLogSyscall args).returnCall ut call result).sched := by
  obtain ⟨_, found, runs⟩ := queue.running_at user running
  rw [loggedReturn_sched, same]
  refine joined.reply found runs _ _ ?_
  intro _ _ _ same
  cases same

/-- A uthread that is switched to leaves its join only if its target is done. -/
theorem joined_switchTo {program : Program} {s t : State} {next : Ptr} {u : Uthread}
    (joined : Sched.Joined program s.sched) (framed : s.sched.Framed)
    (found : s.sched.runqPopFront.2.heap next = some u) (runnable : u.state = .runnable) :
    Sched.Joined program (t.switchTo s.sched.runqPopFront.2 next u).sched := by
  have known : s.sched.core next = some u.core := by
    rw [← Sched.runqPopFront_core, Sched.core_some found]
  have ready : u.core.state = .runnable := runnable
  have replied := Sched.dispatch_reply_core s.sched next
  rcases t.switchTo_cases s.sched.runqPopFront.2 next (head_resumes framed found runnable) with
    ⟨frame, same⟩ | ⟨_, same⟩ | ⟨id, out, target, frame, same⟩ |
    ⟨call, serial, finish, _, _, half, same⟩
  · rw [same, arrive]
    have core : (s.sched.runqPopFront.2.dispatch next).core =
        s.sched.core.modify next fun v => { v with state := .running } := by
      rw [Sched.dispatch_core, Sched.runqPopFront_core]
    refine joined.modify core known (by simp [ready]) rfl fun lasting => ?_
    refine .of_trace ?_ (fun id out target other => ?_) (by simp)
    · intro id out value member
      exact ((joined next u.core known).answers id out value member).lasting lasting
    · rw [show u.core.ctx.frame = .user from frame] at other
      cases other
  · rw [same]
    refine joined.resumed known ready _ _ (replied _ _) ?_
    intro _ _ _ other
    cases other
  · rw [same]
    refine joined.resumed known ready _ _ (replied _ _) ?_
    intro id' out' value action answer
    cases action
    cases answer
    obtain ⟨v, there, named, done⟩ := (joined next u.core known).aimed id out target frame
    refine ⟨target, v, there, named, done ready, ?_⟩
    rw [Sched.dispatch_retval, there, Option.map_some]
  · rw [same, loggedReturn_sched]
    refine joined.resumed known ready _ _ (replied _ _) ?_
    intro _ _ _ other
    cases other

theorem Watched.joined {program : Program} {s t : State} {input : Input} (inv : s.Watched)
    (joined : Sched.Joined program s.sched) (taken : Librr.step program s input = some t)
    (submitting : Submitting input) : Sched.Joined program t.sched := by
  obtain ⟨kind, _⟩ := inv.recording.step taken
  cases kind with
  | perform answer ut u sched user running performed =>
      exact joined.performed inv.wakers inv.recording.queue user running performed
  | immediate answer ut u call result args user running next done =>
      exact joined_returned joined inv.recording.queue user running rfl _ _ _
  | full answer ut u call op finish user running next submits half filled =>
      exact joined_returned joined inv.recording.queue user running rfl _ _ _
  | refused answer ut u call op finish user running next submits half room failed =>
      have same : (s.leave op).sched = s.sched := rfl
      exact joined_returned joined inv.recording.queue user running same _ _ _
  | submitted answer ut u call op finish user running next submits half room accepted =>
      obtain ⟨current, found, runs⟩ := inv.recording.queue.running_at user running
      exact joined.suspend found runs
        (Sched.rrSchedulerBlockCurrent_core current inv.recording.queue.on _)
        (fun _ _ _ frame => by cases frame) (by simp)
  | interrupted answer idle empty broken => exact joined
  | killed answer cqe rest idle empty first sentinel full fatal => exact joined.of_core rfl
  | signal answer cqe rest idle empty first sentinel full harmless =>
      rw [cqeSeen, (rearmSignalRead_kept _ _).1, (rrLogSignal_same _ _ _).sched]
      exact joined
  | short answer cqe rest idle empty first sentinel short =>
      rw [cqeSeen, (rearmSignalRead_kept _ _).1]
      exact joined
  | wake answer cqe rest idle empty first tagged =>
      obtain ⟨ut, v, here, hit, waits⟩ := inv.owner_found first tagged
      have core := s.sched.rrSchedulerWakeById_core cqe.userData cqe.res none 0
      rw [hit] at core
      refine joined.woken (Sched.core_some here) waits ?_ core
      exact fun _ => ⟨rfl, rfl⟩
  | dispatch answer next u idle head found runnable =>
      exact joined_switchTo joined inv.recording.framed found runnable
  | post index res data sqe live flying => exact joined

theorem recordStart_joined (program : Program) (stackSize : Nat) (signalFd : Int32) :
    Sched.Joined program (recordStart stackSize signalFd).sched := by
  intro ut u found
  have start : (recordStart stackSize signalFd).sched = Sched.afterInit := rfl
  rw [start, Sched.core] at found
  by_cases main : ut = 0
  · subst main
    cases found
    exact .of_trace (fun _ _ _ member => by cases member) (fun _ _ _ frame => by cases frame)
      (by decide)
  · simp [Sched.afterInit, Heap.set_other _ _ main] at found

/-- In every recording run in which submission succeeds, every join that returned 0 was of
a uthread that is done, and gave the value that one passed to its exit, or NULL if its
start routine returned; and a join that fails leaves the scheduler as it was. The ids are
taken to be those of a run that does not wrap `g_next_id`. -/
theorem join_is_correct (program : Program) (stackSize : Nat) (signalFd : Int32)
    (inputs : List Input) (s : State)
    (reached : exec (step program) (recordStart stackSize signalFd) inputs = some s)
    (submitting : ∀ input ∈ inputs, Submitting input) (unwrapped : s.sched.nextId < 2 ^ 64) :
    (∀ ut u id out value, s.sched.heap ut = some u →
      (Action.join id out, Reply.joined 0 none value) ∈ u.ctx.trace →
      ∃ target v, s.sched.rrSchedulerFind id = some (target, v) ∧ v.state = .done ∧
        value = (if out then some v.retval else none) ∧ v.EndedBy program) ∧
    (∀ id out t errno value,
      s.sched.rrUthreadJoin id out = (t, some (.joined (-1) errno value)) → t = s.sched) := by
  refine ⟨?_, ?_⟩
  · have kept : ∀ before input after, step program before input = some after →
        Submitting input → True → before.Watched → Sched.Joined program before.sched →
        Sched.Joined program after.sched :=
      fun _ _ _ taken submits _ watched joined => watched.joined joined taken submits
    obtain ⟨watched, joined⟩ := watched_run kept (recordStart_watched stackSize signalFd)
      (recordStart_joined program stackSize signalFd) submitting
      (along_of_forall (fun _ _ _ _ => trivial) _ _) reached unwrapped
    intro ut u id out value found member
    obtain ⟨target, v, there, named, done, given⟩ :=
      (joined ut u.core (Sched.core_some found)).answers id out value member
    obtain ⟨w, here, rfl⟩ := Sched.of_core_some there
    have hit := watched.named.find_eq here
    rw [show w.id = id from named] at hit
    exact ⟨target, w, hit, done, given, (joined target w.core there).ended done⟩
  · intro id out t errno value failed
    rcases s.sched.rrUthreadJoin_cases id out with
      ⟨reply, outcome⟩ | ⟨_, _, _, _, _, _, _, _, _, outcome⟩
    · rw [outcome] at failed
      exact (Prod.mk.inj failed).1.symm
    · rw [outcome] at failed
      cases (Prod.mk.inj failed).2

/-- The main thread creates a uthread and joins it twice; the other one exits with 42. -/
def joinTwice : Program
  | none, [] => .create (some 0)
  | none, [_] => .join 2 true
  | none, [_, _] => .join 2 true
  | none, _ => .yield
  | some _, _ => .exit 42

theorem joinTwice_correct :
    ∃ s u, exec (step joinTwice) (recordStart 8192 5)
        [.act .calm, .act .calm, .loop .calm, .act .calm, .loop .calm, .act .calm] = some s ∧
      s.sched.heap 0 = some u ∧ (.join 2 true, .joined 0 none (some 42)) ∈ u.ctx.trace ∧
      ∃ target v, s.sched.rrSchedulerFind 2 = some (target, v) ∧ v.state = .done ∧
        some 42 = some v.retval ∧ v.EndedBy joinTwice := by
  have ran : (exec (step joinTwice) (recordStart 8192 5)
      [.act .calm, .act .calm, .loop .calm, .act .calm, .loop .calm, .act .calm]).map
        (fun s => (decide (s.sched.nextId < 2 ^ 64), (s.sched.heap 0).map fun u =>
          decide ((.join 2 true, .joined 0 none (some 42)) ∈ u.ctx.trace))) =
      some (true, some true) := by decide +kernel
  obtain ⟨s, reached, facts⟩ := Option.map_eq_some_iff.mp ran
  obtain ⟨unwrapped, seen⟩ := Prod.mk.inj facts
  obtain ⟨u, found, member⟩ := Option.map_eq_some_iff.mp seen
  have submitting : ∀ input ∈ [Input.act .calm, .act .calm, .loop .calm, .act .calm, .loop .calm,
      .act .calm], Submitting input := by
    intro input member
    simp only [List.mem_cons, List.not_mem_nil, or_false] at member
    rcases member with rfl | rfl | rfl | rfl | rfl | rfl <;> rfl
  have joined := of_decide_eq_true member
  exact ⟨s, u, reached, found, joined, (join_is_correct joinTwice 8192 5 _ s reached submitting
    (of_decide_eq_true unwrapped)).1 0 u 2 true _ found joined⟩

end State

end Librr
