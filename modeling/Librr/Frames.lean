import Librr.Refinement

set_option autoImplicit false

namespace Librr

open Transition

/-- A call that may go through io_uring. -/
def Call.Submits (call : Call) : Prop := ∃ answer op, call.wrapper.issue answer = .submit op

/-- A frame its uthread can be resumed in. -/
def Frame.Resumes : Frame → Prop
  | .exiting _ => False
  | .io call _ => call.Submits
  | _ => True

/-- A frame its uthread waits in. -/
def Frame.Waits : Frame → Prop
  | .joining _ _ _ => True
  | .io call _ => call.Submits
  | _ => False

theorem Frame.Waits.resumes {frame : Frame} (waits : frame.Waits) : frame.Resumes := by
  cases frame <;> simp_all [Frame.Waits, Frame.Resumes]

/-- The frame a context may stand in, by the state of its uthread. -/
def Uthread.FrameFits (u : Uthread) : Prop :=
  match u.state with
  | .running => u.ctx.frame = .user
  | .runnable => u.ctx.frame.Resumes
  | .blocked => u.ctx.frame.Waits
  | .done => ∃ value, u.ctx.frame = .exiting value

namespace Sched

def Framed (s : Sched) : Prop := ∀ ut u, s.core ut = some u → u.FrameFits

/-- Creation on the records: nothing, or one fresh record at the next address. -/
theorem uthreadCreate_effect (s : Sched) (stackSize : Nat) (fn : Option Fn)
    (answer : CreateAnswer) :
    ((s.uthreadCreate stackSize fn answer).1.core = s.core ∧
      (s.uthreadCreate stackSize fn answer).1.brk = s.brk ∧
      ((s.uthreadCreate stackSize fn answer).1.threads.items = s.threads.items ∨
        (s.uthreadCreate stackSize fn answer).1.threads.items = s.threads.items ++ [s.brk]) ∧
      s.nextId ≤ (s.uthreadCreate stackSize fn answer).1.nextId) ∨
    (∃ start mem, fn = some start ∧
      (s.uthreadCreate stackSize fn answer).1.core = s.core.set s.brk
        (newUthread (UInt64.ofNat s.nextId) start mem answer.pagesz stackSize) ∧
      (s.uthreadCreate stackSize fn answer).1.brk = s.brk + 1 ∧
      (s.uthreadCreate stackSize fn answer).1.threads.items = s.threads.items ++ [s.brk] ∧
      (s.uthreadCreate stackSize fn answer).1.nextId = s.nextId + 1) := by
  rcases s.uthreadCreate_cases stackSize fn answer with
    ⟨threads, pages, nextId, outcome, items, lower, _⟩ |
    ⟨start, mem, threads, allocated, pages, outcome, started, items, _⟩
  · rw [outcome]
    exact Or.inl ⟨rfl, rfl, items, lower⟩
  · rw [outcome]
    set placed : Sched := { s with
      heap := s.heap.set s.brk
        (newUthread (UInt64.ofNat s.nextId) start mem answer.pagesz stackSize)
      brk := s.brk + 1
      threads := threads
      allocated := allocated
      guardPages := pages
      nextId := s.nextId + 1 }
    have frame := rrSchedulerEnqueue_frame placed s.brk
    have core : placed.core = _ := core_set rfl
    refine Or.inr ⟨start, mem, started, ?_, frame.brk, ?_, frame.nextId⟩
    · rw [rrSchedulerEnqueue_core, core]
      rfl
    · rw [frame.threads, items]

/-- A creation keeps every record. -/
theorem QueueInvariant.create_core {s : Sched} (inv : s.QueueInvariant) {ut : Ptr} {u : Uthread}
    (found : s.core ut = some u) (stackSize : Nat) (fn : Option Fn) (answer : CreateAnswer) :
    (s.uthreadCreate stackSize fn answer).1.core ut = some u := by
  rcases s.uthreadCreate_effect stackSize fn answer with ⟨core, _⟩ | ⟨start, mem, _, core, _⟩
  · rw [core, found]
  · have apart : ut ≠ s.brk := by
      rintro rfl
      rw [inv.unallocated s.brk (Nat.le_refl _)] at found
      cases found
    rw [core, Heap.set_other _ _ apart, found]

/-- A uthread that waits for another is not that one. -/
theorem join_apart {s : Sched} {ut target : Ptr} {u record : Uthread} {id : UInt64}
    (running : s.running = some (ut, u)) (hit : s.rrSchedulerFind id = some (target, record))
    (apart : record.id ≠ u.id) : ut ≠ target := by
  rintro rfl
  have there := (rrSchedulerFind_some hit).2.1
  rw [(of_running running).2] at there
  cases there
  exact apart rfl

/-- The records after a join that waits. -/
theorem joinWait_core {s : Sched} {ut : Ptr} (current : s.current = some ut)
    (on : s.schedRunning = true) (target : Ptr) (frame : Frame) :
    ((s.modify target (awaitedBy ut)).rrSchedulerBlockCurrent frame).core =
      (s.core.modify target (awaitedBy ut)).modify ut (suspend .blocked frame) := by
  have kept : (s.modify target (awaitedBy ut)).current = some ut := current
  rw [rrSchedulerBlockCurrent_core kept on, awaitedBy_core]

theorem Framed.modify {s t : Sched} {cur : Ptr} {change : Uthread → Uthread} (framed : s.Framed)
    (core : t.core = s.core.modify cur change)
    (fits : ∀ u, s.core cur = some u → (change u).FrameFits) : t.Framed := by
  intro ut u found
  rw [core, Heap.modify_apply] at found
  split at found
  · rename_i same
    subst same
    obtain ⟨v, present, rfl⟩ := Option.map_eq_some_iff.mp found
    exact fits v present
  · exact framed ut u found

/-- Where every record changes on its own, and at most by becoming runnable in the
frame it waits in. -/
theorem wakeRecord_fits {change : Uthread → Uthread} {u : Uthread}
    (kept : (change u).ctx = u.ctx) (fits : u.FrameFits) : (wakeRecord change u).FrameFits := by
  unfold wakeRecord
  split
  · rename_i blocked
    unfold Uthread.FrameFits at fits ⊢
    simp only [blocked] at fits
    simp only [kept]
    exact fits.resumes
  · exact fits

theorem Framed.wake {s : Sched} (framed : s.Framed) (id : UInt64) (ioResult : Int32) :
    (s.rrSchedulerWakeById id ioResult none 0).Framed := by
  have records := rrSchedulerWakeById_core s id ioResult none 0
  split at records
  · intro ut u found
    rw [records] at found
    exact framed ut u found
  · exact framed.modify records fun u found => wakeRecord_fits rfl (framed _ u found)

theorem Framed.exit {s : Sched} {cur : Ptr} (framed : s.Framed) (current : s.current = some cur)
    (on : s.schedRunning = true) (value : UInt64) : (s.rrSchedulerExitCurrent value).Framed := by
  intro ut u found
  rw [rrSchedulerExitCurrent_core current on] at found
  obtain ⟨v, present, rfl⟩ := Option.map_eq_some_iff.mp found
  split
  · exact ⟨value, rfl⟩
  · split
    · exact wakeRecord_fits rfl (framed ut v present)
    · exact framed ut v present

theorem Framed.reply {s : Sched} {cur : Ptr} {u : Uthread} (framed : s.Framed)
    (found : s.core cur = some u) (running : u.state = .running) (action : Action)
    (reply : Reply) : (s.reply cur action reply).Framed := by
  refine framed.modify (reply_core s cur action reply) ?_
  intro v present
  rw [found] at present
  cases present
  simp [Uthread.FrameFits, running, Context.finish]

theorem Framed.create {s : Sched} (framed : s.Framed) (stackSize : Nat) (fn : Option Fn)
    (answer : CreateAnswer) : (s.uthreadCreate stackSize fn answer).1.Framed := by
  rcases s.uthreadCreate_effect stackSize fn answer with ⟨core, _⟩ | ⟨start, mem, _, core, _⟩
  · intro ut u found
    rw [core] at found
    exact framed ut u found
  · intro ut u found
    rw [core, Heap.set_apply] at found
    split at found
    · cases found
      exact trivial
    · exact framed ut u found

theorem Framed.performed {stackSize : Nat} {s t : Sched} {ut : Ptr} {u : Uthread}
    {answer : CreateAnswer} {action : Action} (framed : s.Framed) (inv : s.QueueInvariant)
    (user : s.control = .user) (running : s.running = some (ut, u))
    (performed : s.Local stackSize ut u answer action t) : t.Framed := by
  obtain ⟨current, found, runs⟩ := inv.running_at user running
  cases performed with
  | create fn =>
      have kept := inv.create_core found stackSize fn answer
      exact (framed.create stackSize fn answer).reply kept runs _ _
  | yield =>
      exact framed.modify (rrSchedulerYieldCurrent_core current inv.on) fun _ _ => trivial
  | joinNow id out reply answered => exact framed.reply found runs _ _
  | joinWait id out target record hit apart live free =>
      have waited : (s.modify target (awaitedBy ut)).Framed :=
        framed.modify (awaitedBy_core s target ut) fun w known => framed target w known
      have kept : (s.modify target (awaitedBy ut)).current = some ut := current
      exact waited.modify (rrSchedulerBlockCurrent_core kept inv.on _) fun _ _ => trivial
  | exit value => exact framed.exit current inv.on value
  | ret fn started => exact framed.exit current inv.on 0
  | stop main => exact framed

/-- Where the context of a uthread stands. -/
def frameAt (s : Sched) (ut : Ptr) : Option Frame := (s.core ut).map fun u => u.ctx.frame

theorem frameAt_congr {s t : Sched} (core : t.core = s.core) (ut : Ptr) :
    t.frameAt ut = s.frameAt ut := by
  rw [frameAt, frameAt, core]

theorem frameAt_modify {s t : Sched} {cur : Ptr} {change : Uthread → Uthread}
    (core : t.core = s.core.modify cur change) (ut : Ptr) :
    t.frameAt ut =
      if ut = cur then (s.core ut).map fun u => (change u).ctx.frame else s.frameAt ut := by
  rw [frameAt, core, Heap.modify_apply]
  split
  · rw [Option.map_map]
    rfl
  · rfl

theorem frameAt_reply (s : Sched) (cur : Ptr) (action : Action) (reply : Reply) (ut : Ptr) :
    (s.reply cur action reply).frameAt ut =
      if ut = cur then (s.core ut).map fun _ => .user else s.frameAt ut :=
  frameAt_modify (reply_core s cur action reply) ut

theorem frameAt_wake (s : Sched) (id : UInt64) (ioResult : Int32) (ut : Ptr) :
    (s.rrSchedulerWakeById id ioResult none 0).frameAt ut = s.frameAt ut := by
  have records := rrSchedulerWakeById_core s id ioResult none 0
  split at records
  · exact frameAt_congr records ut
  · rw [frameAt_modify records]
    split
    · rw [frameAt]
      congr 1
      funext u
      unfold wakeRecord
      split <;> rfl
    · rfl

theorem frameAt_exit {s : Sched} {cur : Ptr} (current : s.current = some cur)
    (on : s.schedRunning = true) (value : UInt64) (ut : Ptr) :
    (s.rrSchedulerExitCurrent value).frameAt ut =
      if ut = cur then (s.core ut).map fun _ => .exiting value else s.frameAt ut := by
  rw [frameAt, rrSchedulerExitCurrent_core current on, Option.map_map, frameAt]
  by_cases mine : ut = cur
  · simp only [mine, ↓reduceIte]
    rfl
  · rw [if_neg mine]
    congr 1
    funext u
    simp only [Function.comp_apply, mine, ↓reduceIte]
    split
    · unfold wakeRecord
      split <;> rfl
    · rfl

/-- No action that concerns the scheduler alone enters or leaves an asynchronous
call. -/
theorem Local.frameAt_io {stackSize : Nat} {s t : Sched} {cur : Ptr} {u : Uthread}
    {answer : CreateAnswer} {action : Action} (framed : s.Framed) (inv : s.QueueInvariant)
    (user : s.control = .user) (running : s.running = some (cur, u))
    (performed : s.Local stackSize cur u answer action t) (ut : Ptr) (call : Call)
    (serial : Nat) :
    t.frameAt ut = some (.io call serial) ↔ s.frameAt ut = some (.io call serial) := by
  obtain ⟨current, found, runs⟩ := inv.running_at user running
  have own : s.frameAt cur = some .user := by
    have fits := framed cur u.core found
    rw [Uthread.FrameFits, runs] at fits
    rw [frameAt, found, Option.map_some, fits]
  -- A record that leaves its user code for another frame than a call.
  have moved : ∀ change : Uthread → Uthread, (∀ w, (change w).ctx.frame ≠ .io call serial) →
      ∀ {t : Sched}, t.core = s.core.modify cur change →
      (t.frameAt ut = some (.io call serial) ↔ s.frameAt ut = some (.io call serial)) := by
    intro change apart t core
    rw [frameAt_modify core]
    split
    · rename_i same
      subst same
      simp [own, found, apart]
    · rfl
  cases performed with
  | create fn =>
      rw [frameAt_reply]
      rcases s.uthreadCreate_effect stackSize fn answer with
        ⟨core, _⟩ | ⟨start, mem, _, core, _⟩
      · rw [core, frameAt_congr core]
        split
        · rename_i same
          subst same
          simp [own, found]
        · rfl
      · have vacant : s.core s.brk = none := inv.unallocated s.brk (Nat.le_refl _)
        rw [core, frameAt, core, Heap.set_apply]
        split
        · rename_i same
          subst same
          split
          · simp [own]
          · simp [own, found]
        · split
          · rename_i fresh
            subst fresh
            simp [frameAt, vacant, newUthread, Uthread.zeroed, Context.start]
          · rfl
  | yield =>
      exact moved _ (by simp [suspend]) (rrSchedulerYieldCurrent_core current inv.on)
  | joinNow id out reply answered =>
      exact moved _ (by simp [Context.finish]) (reply_core s cur _ reply)
  | joinWait id out target record hit apart live free =>
      have kept : (s.modify target (awaitedBy cur)).current = some cur := current
      have same : ∀ other, (s.modify target (awaitedBy cur)).frameAt other = s.frameAt other := by
        intro other
        rw [frameAt_modify (awaitedBy_core s target cur)]
        split <;> rfl
      rw [frameAt_modify (rrSchedulerBlockCurrent_core kept inv.on _)]
      split
      · rename_i mine
        subst mine
        simp [own, suspend]
      · rw [same]
  | exit value =>
      rw [frameAt_exit current inv.on]
      split
      · rename_i mine
        simp [mine, own]
      · rfl
  | ret fn started =>
      rw [frameAt_exit current inv.on]
      split
      · rename_i mine
        simp [mine, own]
      · rfl
  | stop main => rfl

/-- The records when the head of the queue is switched to and a reply given to it. -/
theorem dispatch_reply_core (s : Sched) (next : Ptr) (action : Action) (reply : Reply) :
    ((s.runqPopFront.2.dispatch next).reply next action reply).core = s.core.modify next fun v =>
      { v with state := .running, ctx := ⟨v.ctx.trace ++ [(action, reply)], .user⟩ } := by
  rw [reply_core, dispatch_core, runqPopFront_core, Heap.modify_modify]
  rfl

end Sched

namespace State

/-- How a uthread goes on that is switched to. -/
theorem switchTo_cases (s : State) (popped : Sched) (next : Ptr) {u : Uthread}
    (resumes : u.ctx.frame.Resumes) :
    (u.ctx.frame = .user ∧ s.switchTo popped next u = s.arrive popped next u.id) ∨
    (u.ctx.frame = .yielding ∧ s.switchTo popped next u =
      { s.arrive popped next u.id with
        sched := (popped.dispatch next).reply next .yield .yielded }) ∨
    (∃ id out target, u.ctx.frame = .joining id out target ∧ s.switchTo popped next u =
      { s.arrive popped next u.id with
        sched := (popped.dispatch next).reply next (.join id out) (.joined 0 none
          (if out then ((popped.dispatch next).heap target).map Uthread.retval else none)) }) ∨
    (∃ call serial finish, u.ctx.frame = .io call serial ∧ call.Submits ∧
      call.wrapper.finish = some finish ∧ s.switchTo popped next u =
        (((s.arrive popped next u.id).observe [.answered serial u.ioResult]).rrLogSyscall
          (finish u.ioResult (s.ring.written serial)).2).returnCall next call
          (finish u.ioResult (s.ring.written serial)).1) := by
  rw [switchTo_eq, resume]
  cases frame : u.ctx.frame with
  | user => exact Or.inl ⟨rfl, rfl⟩
  | yielding => exact Or.inr (Or.inl ⟨rfl, rfl⟩)
  | joining id out target => exact Or.inr (Or.inr (Or.inl ⟨id, out, target, rfl, rfl⟩))
  | io call serial =>
      rw [frame] at resumes
      obtain ⟨answer, op, submits⟩ := resumes
      obtain ⟨finish, half⟩ := Call.finish_of_submit submits
      refine Or.inr (Or.inr (Or.inr ⟨call, serial, finish, rfl, ⟨answer, op, submits⟩, half, ?_⟩))
      simp only [finishIo_eq half]
      rfl
  | exiting value =>
      rw [frame] at resumes
      exact resumes.elim

/-- On the records, a switch makes the uthread run in its user code again. -/
theorem switchTo_core {s t : State} {next : Ptr} {u : Uthread} (resumes : u.ctx.frame.Resumes)
    (found : s.sched.runqPopFront.2.heap next = some u) :
    ∃ trace : Uthread → List (Action × Reply),
      (t.switchTo s.sched.runqPopFront.2 next u).sched.core = s.sched.core.modify next
        fun v => { v with state := .running, ctx := ⟨trace v, .user⟩ } := by
  have known : s.sched.core next = some u.core := by
    rw [← Sched.runqPopFront_core, Sched.core_some found]
  rcases t.switchTo_cases s.sched.runqPopFront.2 next resumes with
    ⟨frame, same⟩ | ⟨_, same⟩ | ⟨id, out, target, _, same⟩ |
    ⟨call, serial, finish, _, _, half, same⟩
  · refine ⟨fun v => v.ctx.trace, ?_⟩
    rw [same, arrive]
    simp only [Sched.dispatch_core, Sched.runqPopFront_core]
    funext other
    rw [Heap.modify_apply, Heap.modify_apply]
    split
    · rename_i own
      have framed : u.core.ctx = ⟨u.core.ctx.trace, .user⟩ := by
        rw [← frame]
        rfl
      rw [own, known, Option.map_some, Option.map_some, ← framed]
    · rfl
  · rw [same]
    exact ⟨_, Sched.dispatch_reply_core s.sched next _ _⟩
  · rw [same]
    exact ⟨_, Sched.dispatch_reply_core s.sched next _ _⟩
  · rw [same, loggedReturn_sched]
    exact ⟨_, Sched.dispatch_reply_core s.sched next _ _⟩

/-- What every step of a recording process keeps: the mode, the shape of the run
queue, and where the contexts stand. -/
structure Recording (s : State) : Prop where
  records : s.Records
  queue : s.sched.QueueInvariant
  framed : s.sched.Framed

structure Replaying (s : State) : Prop where
  replays : s.Replays
  queue : s.sched.QueueInvariant
  framed : s.sched.Framed

/-- The uthread at the head of the queue can be resumed. -/
theorem head_resumes {s : State} {next : Ptr} {u : Uthread} (framed : s.sched.Framed)
    (found : s.sched.runqPopFront.2.heap next = some u) (runnable : u.state = .runnable) :
    u.ctx.frame.Resumes := by
  have known : s.sched.core next = some u.core := by
    rw [← Sched.runqPopFront_core, Sched.core_some found]
  have fits := framed next u.core known
  have ready : u.core.state = .runnable := runnable
  rw [Uthread.FrameFits, ready] at fits
  exact fits

theorem framed_switchTo {s t : State} {next : Ptr} {u : Uthread} (framed : s.sched.Framed)
    (found : s.sched.runqPopFront.2.heap next = some u) (runnable : u.state = .runnable) :
    (t.switchTo s.sched.runqPopFront.2 next u).sched.Framed := by
  obtain ⟨trace, core⟩ := switchTo_core (t := t) (head_resumes framed found runnable) found
  exact framed.modify core fun _ _ => rfl

theorem framed_loggedReturn {s base : State} {ut : Ptr} {u : Uthread} (inv : s.sched.QueueInvariant)
    (framed : s.sched.Framed) (user : s.sched.control = .user)
    (running : s.sched.running = some (ut, u)) (same : base.sched = s.sched) (args : LogArgs)
    (call : Call) (result : CallResult) :
    ((base.rrLogSyscall args).returnCall ut call result).sched.Framed := by
  obtain ⟨_, found, runs⟩ := inv.running_at user running
  rw [loggedReturn_sched, same]
  exact framed.reply found runs _ _

theorem Recording.step {program : Program} {s t : State} {input : Input} (inv : s.Recording)
    (taken : Librr.step program s input = some t) :
    RecordStep program s input t ∧ t.Recording := by
  have kind := recordStep_of_step inv.records inv.queue taken
  refine ⟨kind, inv.records.step kind,
    queueInvariant_of_refines inv.queue (kind.refines inv.queue), ?_⟩
  cases kind with
  | perform answer ut u sched user running performed =>
      exact inv.framed.performed inv.queue user running performed
  | immediate answer ut u call result args user running next done =>
      exact framed_loggedReturn inv.queue inv.framed user running rfl _ _ _
  | full answer ut u call op finish user running next submits half filled =>
      exact framed_loggedReturn inv.queue inv.framed user running rfl _ _ _
  | refused answer ut u call op finish user running next submits half room failed =>
      refine framed_loggedReturn inv.queue inv.framed user running ?_ _ _ _
      rfl
  | submitted answer ut u call op finish user running next submits half room accepted =>
      exact inv.framed.modify
        (Sched.rrSchedulerBlockCurrent_core (Sched.of_running running).1 inv.queue.on _)
        fun _ _ => ⟨answer, op, submits⟩
  | interrupted answer idle empty broken => exact inv.framed
  | killed answer cqe rest idle empty first sentinel full fatal => exact inv.framed
  | signal answer cqe rest idle empty first sentinel full harmless =>
      rw [cqeSeen, (rearmSignalRead_kept _ _).1, (rrLogSignal_same _ _ _).sched]
      exact inv.framed
  | short answer cqe rest idle empty first sentinel short =>
      rw [cqeSeen, (rearmSignalRead_kept _ _).1]
      exact inv.framed
  | wake answer cqe rest idle empty first tagged => exact inv.framed.wake _ _
  | dispatch answer next u idle head found runnable =>
      exact framed_switchTo inv.framed found runnable
  | post index res data sqe live flying => exact inv.framed

theorem Replaying.step {program : Program} {s t : State} {input : Input} (inv : s.Replaying)
    (taken : Librr.step program s input = some t) :
    ReplayStep program s input t ∧ t.Replaying := by
  have kind := replayStep_of_step inv.replays inv.queue taken
  refine ⟨kind, inv.replays.step kind,
    queueInvariant_of_refines inv.queue (kind.refines inv.queue), ?_⟩
  have replied : ∀ ut u action reply, s.sched.control = .user →
      s.sched.running = some (ut, u) → (s.sched.reply ut action reply).Framed := by
    intro ut u action reply user running
    obtain ⟨_, found, runs⟩ := inv.queue.running_at user running
    exact inv.framed.reply found runs _ _
  cases kind with
  | perform answer ut u sched user running performed =>
      exact inv.framed.performed inv.queue user running performed
  | answered answer ut u call reader event user running next matched =>
      exact replied ut u _ _ user running
  | refused answer ut u call reader errno user running next missed =>
      exact replied ut u _ _ user running
  | idle answer idle empty => exact inv.framed
  | again answer next u idle head found runnable same =>
      exact framed_switchTo inv.framed found runnable
  | switch answer next u reader idle head found runnable apart expected =>
      exact framed_switchTo inv.framed found runnable
  | abort answer next u reader errno idle head found runnable apart unexpected =>
      exact inv.framed

theorem afterInit_framed : Sched.afterInit.Framed := by
  intro ut u found
  simp only [Sched.core, Sched.afterInit, Heap.set_apply] at found
  split at found
  · cases found
    rfl
  · cases found

/-- The state `rr_init` leaves in record mode. -/
theorem recordStart_eq (stackSize : Nat) (signalFd : Int32) :
    recordStart stackSize signalFd =
      { fresh ⟨true, false, true, true, stackSize⟩ with
        ring := { Ring.absent with
          ready := true
          signalFd := some signalFd
          inflight := [⟨.read signalFd 128 0, rrSignalSentinel, 0⟩]
          fresh := 1 }
        seq := 1
        log := [⟨1, 1, .sched 0 1⟩]
        history := [.issued 0] } := rfl

theorem recordStart_recording (stackSize : Nat) (signalFd : Int32) :
    (recordStart stackSize signalFd).Recording := by
  rw [recordStart_eq]
  exact ⟨⟨rfl, rfl, rfl, rfl⟩, Sched.afterInit_queueInvariant, afterInit_framed⟩

/-- Replay starts with the first switch consumed, or the runtime is not ready and
the mismatch has been seen. -/
theorem replayStart_cases (stackSize : Nat) (virtualTime : Bool) (file : Option Bytes) :
    ((replayStart stackSize virtualTime file).config.runtimeReady = false ∧
      (replayStart stackSize virtualTime file).history = [.mismatch] ∧
      (replayStart stackSize virtualTime file).sched.control = .user) ∨
    (∃ reader started, Reader.rrReplayInit file = some reader ∧
      reader.rrReplayExpectSched 0 1 = (started, .ok ()) ∧
      replayStart stackSize virtualTime file =
        { fresh ⟨false, true, virtualTime, true, stackSize⟩ with reader := started }) := by
  unfold replayStart
  simp only
  split
  · exact Or.inl ⟨rfl, rfl, rfl⟩
  · rename_i reader opened
    split
    · exact Or.inl ⟨rfl, rfl, rfl⟩
    · rename_i started matched
      exact Or.inr ⟨reader, started, opened, matched, rfl⟩

theorem fresh_replaying (stackSize : Nat) (virtualTime : Bool) (reader : Reader) :
    Replaying { fresh ⟨false, true, virtualTime, true, stackSize⟩ with reader := reader } :=
  ⟨⟨rfl, rfl, rfl, rfl, rfl⟩, Sched.afterInit_queueInvariant, afterInit_framed⟩

theorem recording_of_exec {program : Program} {stackSize : Nat} {signalFd : Int32}
    {inputs : List Input} {s : State}
    (reached : exec (step program) (recordStart stackSize signalFd) inputs = some s) :
    s.Recording :=
  exec_invariant (fun _ _ _ taken inv => (inv.step taken).2)
    (recordStart_recording stackSize signalFd) reached

end State

end Librr
