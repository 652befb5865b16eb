import Librr.Fifo
import Librr.Tasks
import Librr.Turns

set_option autoImplicit false

namespace Librr

open IntrusiveQueue Relation Transition

/-- What a blocked uthread waits for. It is blocked in a join or in a call. -/
def Frame.cause : Frame → Cause
  | .joining id out _ => .join id out
  | .io call _ => .call call
  | _ => .join 0 false

namespace Sched

def status (s : Sched) (written : Nat → Bytes) (u : Uthread) :
    Coop.Status Action Reply Cause UInt64 :=
  match u.state with
  | .running => .running
  | .runnable => .ready (s.due written u)
  | .blocked => .waiting u.ctx.frame.cause
  | .done => .finished u.retval

def task (s : Sched) (written : Nat → Bytes) (u : Uthread) : Task :=
  ⟨u.startFn, u.ctx.trace, s.status written u⟩

def holder (s : Sched) : Coop.Turn UInt64 :=
  match s.control with
  | .user => .of s.currentId
  | .scheduler => .scheduler
  | .exited => .over
  | .aborted => .over

/-- The records, the linked queue and the control of the runtime stand for `m`. -/
structure Models (written : Nat → Bytes) (s : Sched) (m : Tasks) : Prop where
  threads : ∀ id t, m.thread id = some t ↔
    ∃ ut u, s.core ut = some u ∧ u.id = id ∧ s.task written u = t
  queue : ∃ items, Represents s.links items ∧ m.queue.map some = items.map s.idAt
  turn : m.turn = s.holder

section Records

variable {program : Program} {written : Nat → Bytes} {tags : List UInt64} {s t : Sched} {m : Tasks}

theorem Models.found (models : s.Models written m) {ut : Ptr} {u : Uthread}
    (found : s.core ut = some u) : m.thread u.id = some (s.task written u) :=
  (models.threads _ _).mpr ⟨ut, u, found, rfl, rfl⟩

theorem Models.found_heap (models : s.Models written m) {ut : Ptr} {u : Uthread}
    (found : s.heap ut = some u) : m.thread u.id = some (s.task written u.core) :=
  (models.threads _ _).mpr ⟨ut, u.core, core_some found, rfl, rfl⟩

theorem Models.of_find (models : s.Models written m) {id : UInt64} {ut : Ptr} {u : Uthread}
    (hit : s.rrSchedulerFind id = some (ut, u)) :
    m.thread id = some (s.task written u.core) := by
  obtain ⟨_, here, named⟩ := rrSchedulerFind_some hit
  rw [← named]
  exact models.found_heap here

theorem task_unfinished (s : Sched) (written : Nat → Bytes) {u : Uthread}
    (live : u.state ≠ .done) (value : UInt64) : (s.task written u).status ≠ .finished value := by
  cases state : u.state <;> simp_all [task, status]

/-- The result that is due does not change while other uthreads go on: a uthread whose join
is over has an ended target. -/
theorem task_lasting (joined : Joined program s) (lasting : s.Lasting t) {ut : Ptr} {u : Uthread}
    (found : s.core ut = some u) : t.task written u = s.task written u := by
  have same : u.state = .runnable → t.due written u = s.due written u := by
    intro runnable
    unfold due
    cases inside : u.ctx.frame with
    | joining id out target =>
        obtain ⟨v, there, _, done⟩ := (joined ut u found).aimed id out target inside
        obtain ⟨w, still, _, ended⟩ := lasting target v there
        simp only [there, still, Option.map_some, (ended (done runnable)).2]
    | _ => rfl
  unfold task status
  cases state : u.state with
  | runnable => simp only [same state]
  | _ => rfl

/-- The uthreads after a change of records that keeps their ids. -/
theorem threads_of_map {m' : Tasks} {change : Ptr → Uthread → Uthread}
    (core : ∀ ut, t.core ut = (s.core ut).map (change ut))
    (ids : ∀ ut u, s.core ut = some u → (change ut u).id = u.id)
    (each : ∀ ut u, s.core ut = some u → m'.thread u.id = some (t.task written (change ut u)))
    (only : ∀ id v, m'.thread id = some v → ∃ ut u, s.core ut = some u ∧ u.id = id)
    (id : UInt64) (v : Task) :
    m'.thread id = some v ↔ ∃ ut u, t.core ut = some u ∧ u.id = id ∧ t.task written u = v := by
  constructor
  · intro found
    obtain ⟨ut, u, present, rfl⟩ := only id v found
    rw [each ut u present] at found
    exact ⟨ut, change ut u, by rw [core, present, Option.map_some], ids ut u present,
      Option.some.inj found⟩
  · rintro ⟨ut, w, present, rfl, rfl⟩
    rw [core] at present
    obtain ⟨u, before, rfl⟩ := Option.map_eq_some_iff.mp present
    rw [ids ut u before]
    exact each ut u before

/-- The uthreads after a change of one record. Who waits for the others is not seen. -/
theorem Models.threads_change (models : s.Models written m) (sound : s.Sound program tags)
    {cur : Ptr} {u : Uthread} {change : Ptr → Uthread → Uthread}
    (core : ∀ ut, t.core ut = (s.core ut).map (change ut)) (found : s.core cur = some u)
    (alive : u.state ≠ .done) (named : (change cur u).id = u.id)
    (others : ∀ ut w, ut ≠ cur → ∃ waiter, change ut w = { w with joinWaiter := waiter })
    (id : UInt64) (v : Task) :
    (m.set u.id (t.task written (change cur u))).thread id = some v ↔
      ∃ ut w, t.core ut = some w ∧ w.id = id ∧ t.task written w = v := by
  have lasting : s.Lasting t := by
    refine .of_map core (forall_core found ⟨named, fun done => absurd done alive⟩ ?_)
    intro ut w away _
    obtain ⟨waiter, same⟩ := others ut w away
    rw [same]
    exact ⟨rfl, fun done => ⟨done, rfl⟩⟩
  refine threads_of_map core (forall_core found named ?_) (forall_core found ?_ ?_) ?_ id v
  · intro ut w away _
    obtain ⟨waiter, same⟩ := others ut w away
    rw [same]
  · rw [Coop.Threads.set_thread, if_pos rfl]
  · intro ut w away present
    obtain ⟨waiter, same⟩ := others ut w away
    have apart : w.id ≠ u.id := fun equal => away (sound.named.core_inj present found equal)
    rw [Coop.Threads.set_thread, if_neg apart, models.found present,
      ← task_lasting sound.joined lasting present, same]
    rfl
  · intro other w present
    rw [Coop.Threads.set_thread] at present
    split at present
    · rename_i same
      exact ⟨cur, u, found, same.symm⟩
    · obtain ⟨ut, x, there, named, _⟩ := (models.threads other w).mp present
      exact ⟨ut, x, there, named⟩

theorem Models.threads_modify (models : s.Models written m) (sound : s.Sound program tags)
    {cur : Ptr} {u : Uthread} {change : Uthread → Uthread}
    (core : t.core = s.core.modify cur change) (found : s.core cur = some u)
    (alive : u.state ≠ .done) (named : (change u).id = u.id) (id : UInt64) (v : Task) :
    (m.set u.id (t.task written (change u))).thread id = some v ↔
      ∃ ut w, t.core ut = some w ∧ w.id = id ∧ t.task written w = v := by
  have mapped : ∀ ut, t.core ut = (s.core ut).map fun w => if ut = cur then change w else w := by
    intro ut
    rw [core, Heap.modify_eq_map]
  have threads := models.threads_change sound mapped found alive (by rw [if_pos rfl]; exact named)
    (fun ut w away => ⟨w.joinWaiter, by rw [if_neg away]⟩) id v
  rw [if_pos rfl] at threads
  exact threads

end Records

section Queue

variable {program : Program} {written : Nat → Bytes} {tags : List UInt64} {s t : Sched} {m : Tasks}
  {items : List Ptr}

/-- The queue grows by exactly the uthreads that become runnable. -/
theorem Extends.exactly (extended : Extends items t) (invS : s.QueueInvariant)
    (invT : t.QueueInvariant) (shape : Represents s.links items) {new : List Ptr}
    (once : new.Nodup)
    (became : ∀ ut, ut ∈ new ↔ t.stateOf ut = some .runnable ∧ s.stateOf ut ≠ some .runnable) :
    Represents t.links (items ++ new) := by
  obtain ⟨more, shape', short⟩ := extended
  have order := becameRunnable_eq invS invT shape .next shape' short
  have members : ∀ ut, ut ∈ new ↔ ut ∈ more := fun ut => by
    rw [← order, becameRunnable_mem invT, became]
  have same : new.Perm more :=
    (List.perm_ext_iff_of_nodup once (List.nodup_append.mp shape'.nodup).2.1).mpr members
  have equal : new = more := by
    rcases more with _ | ⟨ut, rest⟩
    · exact List.perm_nil.mp same
    · obtain rfl : rest = [] := by
        rw [List.length_cons] at short
        exact List.eq_nil_of_length_eq_zero (by omega)
      exact List.perm_singleton.mp same
  rw [equal]
  exact shape'

theorem currentId_eq (s : Sched) : s.currentId = (s.current.bind s.idAt).getD 0 := by
  unfold currentId running idAt
  cases s.current with
  | none => rfl
  | some ut =>
      cases found : s.heap ut with
      | none => simp [found, core]
      | some u => simp [found, core, Uthread.core]

theorem SameBirths.idAt (births : s.SameBirths t) : t.idAt = s.idAt :=
  funext births.names.ids

theorem holder_congr (ids : t.idAt = s.idAt) (current : t.current = s.current)
    (control : t.control = s.control) : t.holder = s.holder := by
  unfold holder
  rw [control, currentId_eq, currentId_eq, ids, current]

/-- The ids in the queue after some uthreads became runnable. -/
theorem Models.queue_grows (models : s.Models written m) (invS : s.QueueInvariant)
    (invT : t.QueueInvariant) (ids : t.idAt = s.idAt)
    (extended : ∀ items, Represents s.links items → Extends items t) {new : List Ptr}
    {names : List UInt64} (once : new.Nodup)
    (became : ∀ ut, ut ∈ new ↔ t.stateOf ut = some .runnable ∧ s.stateOf ut ≠ some .runnable)
    (named : names.map some = new.map s.idAt) :
    ∃ items, Represents t.links items ∧ (m.queue ++ names).map some = items.map t.idAt := by
  obtain ⟨items, shape, queue⟩ := models.queue
  refine ⟨items ++ new, (extended items shape).exactly invS invT shape once became, ?_⟩
  rw [List.map_append, List.map_append, ids, queue, named]

theorem Models.queue_kept (models : s.Models written m) (invS : s.QueueInvariant)
    (invT : t.QueueInvariant) (ids : t.idAt = s.idAt)
    (extended : ∀ items, Represents s.links items → Extends items t)
    (unmoved : ∀ ut, t.stateOf ut = some .runnable → s.stateOf ut = some .runnable) :
    ∃ items, Represents t.links items ∧ m.queue.map some = items.map t.idAt := by
  have grown := @models.queue_grows _ _ _ _ invS invT ids extended [] [] List.nodup_nil ?_ rfl
  · rw [List.append_nil] at grown
    exact grown
  · intro ut
    have := unmoved ut
    simp_all

/-- After a change of one record that was not runnable. -/
theorem Models.queue_modify (models : s.Models written m) (invS : s.QueueInvariant)
    (invT : t.QueueInvariant) (ids : t.idAt = s.idAt)
    (extended : ∀ items, Represents s.links items → Extends items t) {cur : Ptr} {u : Uthread}
    {change : Uthread → Uthread} (core : t.core = s.core.modify cur change)
    (found : s.core cur = some u) (idle : u.state ≠ .runnable) :
    ∃ items, Represents t.links items ∧
      (m.queue ++ if (change u).state = .runnable then [u.id] else []).map some =
        items.map t.idAt := by
  have states : ∀ ut, t.stateOf ut =
      if ut = cur then some (change u).state else s.stateOf ut := by
    intro ut
    rw [stateOf_core, stateOf_core, core, Heap.modify_apply]
    split
    · rename_i here
      rw [here, found]
      rfl
    · rfl
  have before : s.stateOf cur ≠ some .runnable := by
    rw [stateOf_core, found, Option.map_some]
    simpa using idle
  have name : s.idAt cur = some u.id := by rw [Sched.idAt, found, Option.map_some]
  by_cases after : (change u).state = .runnable
  · rw [if_pos after]
    refine models.queue_grows invS invT ids extended (List.nodup_singleton cur) ?_
      (by rw [List.map_singleton, List.map_singleton, name])
    intro ut
    rw [states]
    by_cases here : ut = cur <;> simp_all
  · rw [if_neg after, List.append_nil]
    refine models.queue_kept invS invT ids extended fun ut => ?_
    rw [states]
    by_cases here : ut = cur <;> simp_all

/-- One record that was not runnable is changed. -/
theorem Models.modify (models : s.Models written m) (sound : s.Sound program tags)
    (invT : t.QueueInvariant) (ids : t.idAt = s.idAt)
    (extended : ∀ items, Represents s.links items → Extends items t) {cur : Ptr} {u : Uthread}
    {change : Uthread → Uthread} (core : t.core = s.core.modify cur change)
    (found : s.core cur = some u) (alive : u.state ≠ .done) (idle : u.state ≠ .runnable)
    (named : (change u).id = u.id) {m' : Tasks}
    (thread : m'.thread = (m.set u.id (t.task written (change u))).thread)
    (queue : m'.queue = m.queue ++ if (change u).state = .runnable then [u.id] else [])
    (turn : m'.turn = t.holder) : t.Models written m' where
  threads id v := by
    rw [thread]
    exact models.threads_modify sound core found alive named id v
  queue := by
    rw [queue]
    exact models.queue_modify sound.queue invT ids extended core found idle
  turn := turn

end Queue

section Running

variable {program : Program} {written : Nat → Bytes} {tags : List UInt64} {s t : Sched} {m : Tasks}
  {ut : Ptr} {u : Uthread} (models : s.Models written m) (sound : s.Sound program tags)
  (user : s.control = .user) (running : s.running = some (ut, u))

include models sound user running

theorem Models.runs : m.Runs u.id (s.task written u.core) := by
  obtain ⟨current, found, runs⟩ := sound.queue.running_at user running
  refine ⟨?_, models.found_heap (of_running running).2, ?_⟩
  · rw [models.turn, holder, user]
    simp only
    rw [currentId, running]
  · simp only [task, status, runs]

theorem Models.reply (action : Action) (reply : Reply) :
    (s.reply ut action reply).Models written
      (m.answer u.id (s.task written u.core) action reply) := by
  obtain ⟨current, found, runs⟩ := sound.queue.running_at user running
  refine models.modify sound (sound.queue.proceed user current action reply)
    (reply_births s ut action reply).idAt
    (fun items shape => (Extends.refl shape).congr (links_modify fun _ => rfl))
    (reply_core s ut action reply) found (by simp [runs]) (by simp [runs]) rfl ?_ ?_ ?_
  · simp only [Coop.Threads.answer, Coop.Threads.set, Coop.Thread.reply, task, status, runs,
      Context.finish]
    rfl
  · simp [Coop.Threads.answer, Coop.Threads.set, runs]
  · exact models.turn.trans (holder_congr (reply_births s ut action reply).idAt rfl rfl).symm

theorem Models.yield :
    s.rrSchedulerYieldCurrent.Models written
      (m.pass u.id (s.task written u.core) .yield .yielded) := by
  obtain ⟨current, found, runs⟩ := sound.queue.running_at user running
  refine models.modify sound (sound.queue.yield user) (yield_births s).idAt
    (fun items shape => extends_yield sound.queue shape user)
    (rrSchedulerYieldCurrent_core current sound.queue.on) found (by simp [runs]) (by simp [runs])
    rfl ?_ ?_ ?_
  · simp only [Coop.Threads.pass, Coop.Threads.wake, Coop.Threads.set, Coop.Thread.moveTo, task,
      status, suspend, due]
    rfl
  · simp [Coop.Threads.pass, Coop.Threads.wake, Coop.Threads.set, suspend, Uthread.core]
  · rw [rrSchedulerYieldCurrent_eq current sound.queue.on]
    rfl

theorem Models.submit (call : Call) (serial : Nat) :
    (s.rrSchedulerBlockCurrent (.io call serial)).Models written
      (m.wait u.id (s.task written u.core) (.call call)) := by
  obtain ⟨current, found, runs⟩ := sound.queue.running_at user running
  refine models.modify sound (sound.queue.block user _ (by simp)) (block_births s _).idAt
    (fun items shape => extends_block sound.queue shape user _)
    (rrSchedulerBlockCurrent_core current sound.queue.on _) found (by simp [runs])
    (by simp [runs]) rfl ?_ ?_ ?_
  · simp only [Coop.Threads.wait, Coop.Threads.set, Coop.Thread.moveTo, task, status, suspend,
      Frame.cause]
    rfl
  · simp [Coop.Threads.wait, Coop.Threads.set, suspend]
  · rw [rrSchedulerBlockCurrent_eq current sound.queue.on]
    rfl

end Running

section Scheduler

variable {program : Program} {stackSize : Nat} {written : Nat → Bytes} {tags : List UInt64}
  {s t : Sched} {m : Tasks} {ut : Ptr} {u : Uthread}

/-- A completion makes the result of the call due. -/
theorem Models.woken (models : s.Models written m) (sound : s.Sound program tags)
    (idle : s.control = .scheduler) (empty : s.runqHead = none) {id : UInt64}
    (hit : s.rrSchedulerFind id = some (ut, u)) (waits : u.WaitsForIo) (ioResult : Int32) :
    ∃ m', Tasks.Step program m m' ∧
      (s.rrSchedulerWakeById id ioResult none 0).Models written m' := by
  obtain ⟨_, here, _⟩ := rrSchedulerFind_some hit
  have found := core_some here
  obtain ⟨blocked, call, serial, inside⟩ := waits
  have state : u.core.state = .blocked := blocked
  have frame : u.core.ctx.frame = .io call serial := inside
  have submits : call.Submits := by
    have fits := sound.framed ut u.core found
    simp only [Uthread.FrameFits, state, frame] at fits
    exact fits
  obtain ⟨answer, op, issued⟩ := submits
  obtain ⟨finish, half⟩ := Call.finish_of_submit issued
  have core := s.rrSchedulerWakeById_core id ioResult none 0
  rw [hit] at core
  have births := s.wake_births id ioResult none 0
  have waiting : (s.task written u.core).status = .waiting (.call call) := by
    simp only [task, status, state, frame, Frame.cause]
  have turn : m.turn = .scheduler := by rw [models.turn, holder, idle]
  have nobody : m.queue = [] := by
    obtain ⟨items, shape, queue⟩ := models.queue
    rw [shape.empty_iff.mp empty, List.map_nil] at queue
    exact List.map_eq_nil_iff.mp queue
  refine ⟨_, .deliver u.core.id _ call finish ioResult (written serial) turn nobody
    (models.found found) waiting half, ?_⟩
  refine models.modify sound (sound.queue.wake idle id ioResult none 0) births.idAt
    (fun items shape => extends_wake sound.queue shape id ioResult none 0) core found
    (by simp [state]) (by simp [state]) ?_ ?_ ?_ ?_
  · rw [wakeRecord, if_pos state]
    rfl
  · simp only [Coop.Threads.wake, Coop.Threads.set, Coop.Thread.moveTo, task, status, wakeRecord,
      if_pos state, due, completed, frame, half, Option.map_some]
  · simp [Coop.Threads.wake, Coop.Threads.set, wakeRecord, state]
  · have frame := s.rrSchedulerWakeById_frame id ioResult none 0
    exact models.turn.trans (holder_congr births.idAt frame.current frame.control).symm

theorem due_none {s : Sched} {u : Uthread} (resumes : u.ctx.frame.Resumes)
    (nothing : s.due written u = none) : u.ctx.frame = .user := by
  unfold due at nothing
  cases inside : u.ctx.frame with
  | user => rfl
  | yielding => simp [inside] at nothing
  | joining id out target => simp [inside] at nothing
  | io call serial =>
      rw [inside] at resumes
      obtain ⟨answer, op, issued⟩ := resumes
      obtain ⟨finish, half⟩ := Call.finish_of_submit issued
      simp [inside, half] at nothing
  | exiting value =>
      rw [inside] at resumes
      exact resumes.elim

/-- What is due answers the action the uthread is in the middle of. -/
theorem due_action {s : Sched} {u : Uthread} {entry : Action × Reply}
    (given : s.due written u = some entry) : u.ctx.frame.action = some entry.1 := by
  unfold due at given
  cases inside : u.ctx.frame with
  | user => simp [inside] at given
  | yielding =>
      simp only [inside, Option.some.injEq] at given
      rw [← given]
      rfl
  | joining id out target =>
      simp only [inside, Option.some.injEq] at given
      rw [← given]
      rfl
  | io call serial =>
      simp only [inside, Option.map_eq_some_iff] at given
      obtain ⟨finish, _, rfl⟩ := given
      rfl
  | exiting value => simp [inside] at given

/-- The uthread runs in its own code, with what was due. -/
def goOn (due : Option (Action × Reply)) (v : Uthread) : Uthread :=
  { v with state := .running, ctx := ⟨v.ctx.trace ++ due.toList, .user⟩ }

theorem proceed_core (resumes : u.ctx.frame.Resumes) (found : s.core ut = some u) :
    ((s.runqPopFront.2.dispatch ut).proceed ut (s.due written u)).core =
      s.core.modify ut (goOn (s.due written u)) := by
  cases entry : s.due written u with
  | none =>
      have inside := due_none resumes entry
      simp only [proceed, dispatch_core, runqPopFront_core]
      funext other
      rw [Heap.modify_apply, Heap.modify_apply]
      split
      · rename_i here
        rw [here, found, Option.map_some, Option.map_some]
        simp only [goOn, Option.toList_none, List.append_nil, ← inside]
      · rfl
  | some pair =>
      obtain ⟨action, reply⟩ := pair
      simp only [proceed]
      rw [dispatch_reply_core]
      rfl

/-- The first uthread of the queue goes on with what is due. -/
theorem Models.dispatched (models : s.Models written m) (sound : s.Sound program tags)
    (idle : s.control = .scheduler) (head : s.runqHead = some ut)
    (here : s.runqPopFront.2.heap ut = some u) (runnable : u.state = .runnable) :
    ∃ m', Tasks.Step program m m' ∧
      ((s.runqPopFront.2.dispatch ut).proceed ut (s.due written u)).Models written m' := by
  have resumes := State.head_resumes (s := s.alone written) sound.framed here runnable
  have found : s.core ut = some u.core := by rw [← runqPopFront_core, core_some here]
  have state : u.core.state = .runnable := runnable
  have core : ((s.runqPopFront.2.dispatch ut).proceed ut (s.due written u)).core =
      s.core.modify ut (goOn (s.due written u)) := proceed_core (u := u.core) resumes found
  have births : s.SameBirths ((s.runqPopFront.2.dispatch ut).proceed ut (s.due written u)) := by
    rw [s.dispatched_eq written ut resumes]
    exact State.switchTo_births _ _ _ _
  obtain ⟨items, shape, queue⟩ := models.queue
  obtain ⟨_, _, _, taken⟩ := sound.queue.next_eq head
  obtain ⟨first, rest, rfl, left, _, switched⟩ := next_takes_first sound.queue shape taken
  cases switched
  have links : ((s.runqPopFront.2.dispatch ut).proceed ut (s.due written u)).links =
      (s.runqPopFront.2.dispatch ut).links := by
    cases s.due written u with
    | none => rfl
    | some pair => exact links_modify fun _ => rfl
  have named : s.idAt ut = some u.core.id := by rw [Sched.idAt, found, Option.map_some]
  rw [List.map_cons, named] at queue
  obtain ⟨id, more, whole, front, remaining⟩ := List.map_eq_cons_iff.mp queue
  obtain rfl : id = u.core.id := Option.some.inj front
  have turn : m.turn = .scheduler := by rw [models.turn, holder, idle]
  have ready : (s.task written u.core).status = .ready (s.due written u) := by
    simp only [task, status, state]
    rfl
  refine ⟨_, .dispatch u.core.id _ _ more turn whole (models.found found) ready, ?_, ?_, ?_⟩
  · intro id v
    have same : (s.task written u.core).resume (s.due written u) =
        ((s.runqPopFront.2.dispatch ut).proceed ut (s.due written u)).task written
          (goOn (s.due written u) u.core) := rfl
    simp only [Coop.Threads.dispatch, same]
    exact models.threads_modify sound core found (by simp [state]) rfl id v
  · exact ⟨rest, by rw [links]; exact left, by rw [births.idAt]; exact remaining⟩
  · have control : ((s.runqPopFront.2.dispatch ut).proceed ut (s.due written u)).control =
        .user := by
      cases s.due written u <;> rfl
    have current : ((s.runqPopFront.2.dispatch ut).proceed ut (s.due written u)).current =
        some ut := by
      cases s.due written u <;> rfl
    rw [holder, control]
    simp only
    rw [currentId_eq, births.idAt, current, Option.bind_some, named]
    rfl

end Scheduler

section Create

variable {program : Program} {written : Nat → Bytes} {tags : List UInt64} {s t : Sched} {m : Tasks}

theorem Sound.create (sound : s.Sound program tags) (user : s.control = .user) (stackSize : Nat)
    (fn : Option Fn) (answer : CreateAnswer)
    (bounded : (s.uthreadCreate stackSize fn answer).1.nextId < 2 ^ 64) :
    (s.uthreadCreate stackSize fn answer).1.Sound program tags := by
  have vacant := sound.queue.unallocated s.brk (Nat.le_refl _)
  refine ⟨sound.queue.create user stackSize fn answer, sound.framed.create stackSize fn answer,
    sound.named.create stackSize fn answer bounded, ?_, ?_⟩
  · rcases s.uthreadCreate_effect stackSize fn answer with ⟨core, _⟩ | ⟨start, mem, _, core, _⟩
    · exact sound.wakers.of_core core
    · exact sound.wakers.created core vacant (by simp [newUthread]) rfl
  · rcases s.uthreadCreate_effect stackSize fn answer with ⟨core, _⟩ | ⟨start, mem, _, core, _⟩
    · exact sound.joined.of_core core
    · exact sound.joined.created core vacant rfl rfl

/-- The uthreads after a record has been placed. -/
theorem Models.threads_set (models : s.Models written m) (sound : s.Sound program tags)
    {fresh : Ptr} {record : Uthread} (core : t.core = s.core.set fresh record)
    (vacant : s.core fresh = none) (unused : m.thread record.id = none) (id : UInt64) (v : Task) :
    (m.set record.id (t.task written record)).thread id = some v ↔
      ∃ ut w, t.core ut = some w ∧ w.id = id ∧ t.task written w = v := by
  have kept : ∀ ut w, s.core ut = some w → t.core ut = some w := by
    intro ut w present
    have apart : ut ≠ fresh := by
      rintro rfl
      rw [vacant] at present
      cases present
    rw [core, Heap.set_other _ _ apart, present]
  have lasting : s.Lasting t := fun ut w present => ⟨w, kept ut w present, rfl, fun done =>
    ⟨done, rfl⟩⟩
  rw [Coop.Threads.set_thread]
  by_cases here : id = record.id
  · subst here
    rw [if_pos rfl]
    constructor
    · intro same
      exact ⟨fresh, record, by rw [core, Heap.set_same], rfl, Option.some.inj same⟩
    · rintro ⟨ut, w, present, named, rfl⟩
      rw [core, Heap.set_apply] at present
      split at present
      · cases present
        rfl
      · have known := models.found present
        rw [named, unused] at known
        cases known
  · rw [if_neg here, models.threads]
    constructor
    · rintro ⟨ut, w, present, named, rfl⟩
      exact ⟨ut, w, kept ut w present, named, task_lasting sound.joined lasting present⟩
    · rintro ⟨ut, w, present, named, rfl⟩
      rw [core, Heap.set_apply] at present
      split at present
      · cases present
        exact absurd named.symm here
      · exact ⟨ut, w, present, named, (task_lasting sound.joined lasting present).symm⟩

/-- A new uthread is the last of the queue. -/
theorem Models.born (models : s.Models written m) (sound : s.Sound program tags)
    (user : s.control = .user) (placed : Sched) (record : Uthread) {start : Fn}
    (heap : placed.heap = s.heap.set s.brk record) (head : placed.runqHead = s.runqHead)
    (tail : placed.runqTail = s.runqTail) (current : placed.current = s.current)
    (control : placed.control = s.control) (unlinked : record.next = none)
    (unused : m.thread record.id = none) (begins : record.ctx = .start)
    (body : record.startFn = some start) (awake : record.state = .runnable) :
    (placed.rrSchedulerEnqueue s.brk).Models written (m.spawn record.id (some start)) := by
  have vacant := sound.queue.unallocated s.brk (Nat.le_refl _)
  have core : (placed.rrSchedulerEnqueue s.brk).core = s.core.set s.brk record := by
    rw [rrSchedulerEnqueue_core, core_set heap]
    congr 1
    rw [Uthread.core, ← unlinked]
  have frame := placed.rrSchedulerEnqueue_frame s.brk
  have kept : ∀ ut, s.core ut ≠ none → (placed.rrSchedulerEnqueue s.brk).idAt ut = s.idAt ut := by
    intro ut present
    have apart : ut ≠ s.brk := by
      rintro rfl
      exact present vacant
    rw [Sched.idAt, core, Heap.set_other _ _ apart, Sched.idAt]
  refine ⟨?_, ?_, ?_⟩
  · intro id v
    have fresh : (placed.rrSchedulerEnqueue s.brk).task written record =
        Coop.Thread.new (some start) := by
      simp only [task, status, awake, due, begins, body, Context.start, Coop.Thread.new]
    have threads := models.threads_set sound core vacant unused id v
    rw [fresh] at threads
    exact threads
  · obtain ⟨items, shape, queue⟩ := models.queue
    refine ⟨items ++ [s.brk], sound.queue.queued heap head tail unlinked shape, ?_⟩
    have ids : items.map (placed.rrSchedulerEnqueue s.brk).idAt = items.map s.idAt := by
      refine List.map_congr_left fun item member => kept item ?_
      rw [Ne, core_eq_none]
      exact sound.queue.queuedLive shape item member
    rw [List.map_append, ids, ← queue, List.map_singleton, Sched.idAt, core, Heap.set_same]
    simp [Coop.Threads.spawn, Coop.Threads.set]
  · obtain ⟨cur, v, now, found, _⟩ := sound.queue.runningCore user
    have same : (placed.rrSchedulerEnqueue s.brk).holder = s.holder := by
      unfold holder
      rw [frame.control, control, currentId_eq, currentId_eq, frame.current, current, now,
        Option.bind_some, Option.bind_some, kept cur (by simp [found])]
    exact models.turn.trans same.symm

/-- The caller goes on after a creation that leaves its own record alone. -/
theorem Models.replyAfter (models : t.Models written m) (sound : t.Sound program tags)
    {ut : Ptr} {u : Uthread} (user : t.control = .user) (current : t.current = some ut)
    (found : t.core ut = some u.core) (runs : u.core.state = .running) (action : Action)
    (reply : Reply) :
    (t.reply ut action reply).Models written
      (m.answer u.id (s.task written u.core) action reply) := by
  obtain ⟨v, there, same⟩ := of_core_some found
  have answered := models.reply sound user (running_eq current there) action reply
  have named : v.core.id = u.core.id := congrArg Uthread.id same
  have tasks : t.task written v.core = s.task written u.core := by
    rw [same]
    simp only [task, status, runs]
  rw [tasks, show v.id = u.id from named] at answered
  exact answered

theorem Models.create (models : s.Models written m) (sound : s.Sound program tags)
    (user : s.control = .user) {ut : Ptr} {u : Uthread} (running : s.running = some (ut, u))
    {fn : Option Fn} (next : program u.startFn u.ctx.replies = .create fn) (stackSize : Nat)
    (answer : CreateAnswer)
    (bounded : (s.uthreadCreate stackSize fn answer).1.nextId < 2 ^ 64) :
    ∃ m', Tasks.Step program m m' ∧ ((s.uthreadCreate stackSize fn answer).1.reply ut
      (.create fn) (.created (s.uthreadCreate stackSize fn answer).2)).Models written m' := by
  obtain ⟨current, here, runs⟩ := sound.queue.running_at user running
  have sound' := sound.create user stackSize fn answer bounded
  have found := sound.queue.create_core here stackSize fn answer
  obtain ⟨current', control⟩ := s.uthreadCreate_unswitched stackSize fn answer
  have now := models.runs sound user running
  generalize s.uthreadCreate stackSize fn answer = made,
    s.uthreadCreate_cases stackSize fn answer = outcomes at *
  rcases outcomes with ⟨threads, pages, nextId, rfl, _⟩ |
    ⟨start, mem, threads, allocated, pages, rfl, rfl, _⟩
  · refine ⟨_, .refuse u.id _ fn now next, ?_⟩
    have kept : ({ s with threads := threads, guardPages := pages, nextId := nextId } :
        Sched).Models written m := ⟨models.threads, models.queue, models.turn⟩
    exact kept.replyAfter (s := s) sound' user current found runs _ _
  · have short : s.nextId < 2 ^ 64 := sound.named.bounded
    have number : (UInt64.ofNat s.nextId).toNat = s.nextId := UInt64.toNat_ofNat_of_lt' short
    have unused : m.thread (UInt64.ofNat s.nextId) = none := by
      rw [Option.eq_none_iff_forall_ne_some]
      intro v known
      obtain ⟨other, w, there, named, _⟩ := (models.threads _ v).mp known
      obtain ⟨x, live, same⟩ := of_core_some there
      have low := (sound.named.ids other x live).2
      have named' : x.id = UInt64.ofNat s.nextId := (congrArg Uthread.id same).trans named
      rw [named', number] at low
      omega
    have named : UInt64.ofNat s.nextId ≠ 0 := by
      intro zero
      rw [zero] at number
      have := sound.named.started
      simp at number
      omega
    refine ⟨_, .create u.id _ start (UInt64.ofNat s.nextId) now next named unused, ?_⟩
    set record := newUthread (UInt64.ofNat s.nextId) start mem answer.pagesz stackSize
    set placed : Sched := { s with
      heap := s.heap.set s.brk record
      brk := s.brk + 1
      threads := threads
      allocated := allocated
      guardPages := pages
      nextId := s.nextId + 1 }
    have born := models.born sound user placed record rfl rfl rfl rfl rfl rfl unused rfl rfl rfl
    exact born.replyAfter (s := s) sound' (control.trans user) (current'.trans current) found runs
      _ _

end Create

section Join

variable {program : Program} {written : Nat → Bytes} {tags : List UInt64} {s t : Sched} {m : Tasks}
  (models : s.Models written m) (sound : s.Sound program tags)

include models sound

theorem Models.of_missed {id : UInt64} (missed : s.rrSchedulerFind id = none) :
    m.thread id = none := by
  rw [Option.eq_none_iff_forall_ne_some]
  intro v known
  obtain ⟨ut, w, there, named, _⟩ := (models.threads id v).mp known
  obtain ⟨u, live, same⟩ := of_core_some there
  have named' : u.id = id := (congrArg Uthread.id same).trans named
  exact rrSchedulerFind_none missed (sound.named.listed ut u live) live named'

/-- The uthreads that wait in joins are those that the records show in one. -/
theorem Models.joins_iff {other target : UInt64} :
    m.Joins other target ↔ ∃ w v record, s.core w = some record ∧ record.id = other ∧
      s.idAt v = some target ∧ record.WaitsForJoin v := by
  constructor
  · rintro ⟨task, out, known, waiting⟩
    obtain ⟨w, record, there, named, rfl⟩ := (models.threads other task).mp known
    have fits := sound.framed w record there
    simp only [Sched.task, status] at waiting
    cases state : record.state with
    | running => simp [state] at waiting
    | runnable => simp [state] at waiting
    | done => simp [state] at waiting
    | blocked =>
        simp only [Uthread.FrameFits, state] at fits
        simp only [state, Coop.Status.waiting.injEq] at waiting
        cases inside : record.ctx.frame with
        | joining id out v =>
            simp only [inside, Frame.cause, Cause.join.injEq] at waiting
            obtain ⟨rfl, rfl⟩ := waiting
            obtain ⟨vu, target, aimed, _⟩ := (sound.joined w record there).aimed id out v inside
            refine ⟨w, v, record, there, named, ?_, state, id, out, inside⟩
            rw [Sched.idAt, target, Option.map_some, aimed]
        | io call serial => simp [inside, Frame.cause] at waiting
        | _ => simp [inside, Frame.Waits] at fits
  · rintro ⟨w, v, record, there, rfl, target, blocked, id, out, inside⟩
    obtain ⟨vu, present, aimed, _⟩ := (sound.joined w record there).aimed id out v inside
    refine ⟨_, out, models.found there, ?_⟩
    simp only [Sched.task, status, blocked, inside, Frame.cause]
    rw [Sched.idAt, present, Option.map_some, aimed] at target
    cases target
    rfl

/-- Who waits for a live uthread is registered with it. -/
theorem Models.joins_awaits {v : Ptr} {vu : Uthread} (present : s.core v = some vu)
    {other : UInt64} : m.Joins other vu.id ↔ ∃ w, s.Awaits v w ∧ s.idAt w = some other := by
  rw [models.joins_iff sound]
  constructor
  · rintro ⟨w, v', record, there, rfl, target, waits⟩
    obtain ⟨x, found, named⟩ := Option.map_eq_some_iff.mp target
    obtain rfl := sound.named.core_inj found present named
    refine ⟨w, (sound.wakers.joins _ _).mpr ⟨record, there, waits⟩, ?_⟩
    rw [Sched.idAt, there, Option.map_some]
  · rintro ⟨w, awaits, named⟩
    obtain ⟨record, there, waits⟩ := (sound.wakers.joins v w).mp awaits
    rw [Sched.idAt, there, Option.map_some, Option.some.injEq] at named
    exact ⟨w, v, record, there, named, by rw [Sched.idAt, present, Option.map_some], waits⟩

/-- What a join answers at once. -/
theorem Models.joinAnswer {ut : Ptr} {u : Uthread} (running : s.running = some (ut, u))
    {id : UInt64} {out : Bool} {reply : Reply}
    (answered : s.rrUthreadJoin id out = (s, some reply)) : m.JoinAnswer u.id id out reply := by
  unfold rrUthreadJoin at answered
  cases hit : s.rrSchedulerFind id with
  | none =>
      simp only [hit, Prod.mk.injEq, true_and, Option.some.injEq] at answered
      subst answered
      exact .unknown (models.of_missed sound hit)
  | some entry =>
      obtain ⟨v, target⟩ := entry
      obtain ⟨_, there, named⟩ := rrSchedulerFind_some hit
      have known := models.of_find hit
      simp only [hit, running] at answered
      split at answered
      · rename_i same
        simp only [Prod.mk.injEq, true_and, Option.some.injEq] at answered
        subst answered
        exact .itself (named.symm.trans same)
      · split at answered
        · rename_i done
          simp only [Prod.mk.injEq, true_and, Option.some.injEq] at answered
          subst answered
          have ended : target.core.state = .done := done
          refine .ended _ target.retval known ?_
          simp only [Sched.task, status, ended]
          rfl
        · rename_i live
          split at answered
          · rename_i busy
            simp only [Prod.mk.injEq, true_and, Option.some.injEq] at answered
            subst answered
            obtain ⟨w, waiter⟩ := Option.ne_none_iff_exists'.mp busy.1
            have awaits : s.Awaits v w := ⟨target.core, core_some there, live, waiter⟩
            obtain ⟨record, present, _⟩ := (sound.wakers.joins v w).mp awaits
            have joins : m.Joins record.id target.core.id :=
              (models.joins_awaits sound (core_some there)).mpr ⟨w, awaits, by
                rw [Sched.idAt, present, Option.map_some]⟩
            have same : target.core.id = id := named
            rw [same] at joins
            exact .taken _ record.id known (s.task_unfinished written live) joins
          · simp at answered

/-- A join that has to wait. -/
theorem Models.joinWait (user : s.control = .user) {ut : Ptr} {u : Uthread}
    (running : s.running = some (ut, u)) {id : UInt64} {out : Bool} {target : Ptr}
    {record : Uthread} (next : program u.startFn u.ctx.replies = .join id out)
    (hit : s.rrSchedulerFind id = some (target, record)) (apart : record.id ≠ u.id)
    (live : record.state ≠ .done)
    (free : record.joinWaiter = none ∨ record.joinWaiter = some ut) :
    ∃ m', Tasks.Step program m m' ∧ ((s.modify target (awaitedBy ut)).rrSchedulerBlockCurrent
      (.joining id out target)).Models written m' := by
  obtain ⟨current, found, runs⟩ := sound.queue.running_at user running
  obtain ⟨_, there, named⟩ := rrSchedulerFind_some hit
  have present := core_some there
  have away := join_apart running hit apart
  have core := joinWait_core current sound.queue.on target (.joining id out target)
  have waits := rrUthreadJoin_waits hit running apart live free out
  have invT := sound.queue.join user id out
  have ext := fun items shape => @extends_join s items sound.queue shape user id out
  have births := s.join_births id out
  rw [waits] at invT ext births
  simp only at invT ext births
  generalize after : (s.modify target (awaitedBy ut)).rrSchedulerBlockCurrent
    (.joining id out target) = t at *
  have mapped := registered_records away core
  have nobody : ∀ other, ¬ m.Joins other id := by
    intro other joins
    have own : m.Joins other record.core.id := named ▸ joins
    obtain ⟨w, awaits, _⟩ := (models.joins_awaits sound present).mp own
    obtain ⟨x, same, _, waiter⟩ := awaits
    rw [present] at same
    cases same
    rcases free with unset | self
    · rw [show record.core.joinWaiter = none from unset] at waiter
      cases waiter
    · rw [show record.core.joinWaiter = some ut from self] at waiter
      cases waiter
      exact sound.wakers.unawaited found runs target ⟨record.core, present, live, self⟩
  refine ⟨_, .joinWait u.id _ id out _ (models.runs sound user running) next
    (models.of_find hit) (s.task_unfinished written live) (named ▸ apart) nobody, ?_, ?_, ?_⟩
  · intro other v
    have threads := models.threads_change sound mapped found (by simp [runs])
      (by rw [if_pos rfl]; rfl) ?_ other v
    · rw [if_pos rfl] at threads
      exact threads
    · intro x w self
      rw [if_neg self]
      split
      · exact ⟨some ut, rfl⟩
      · exact ⟨w.joinWaiter, rfl⟩
  · refine models.queue_kept sound.queue invT births.idAt ext fun x => ?_
    rw [stateOf_core, stateOf_core, mapped]
    cases known : s.core x with
    | none => simp
    | some v =>
        by_cases self : x = ut
        · simp [self, suspend]
        · by_cases aimed : x = target <;> simp_all [awaitedBy]
  · rw [← after, rrSchedulerBlockCurrent_eq (s := s.modify target (awaitedBy ut)) current
      sound.queue.on]
    rfl

end Join

/-- The record of a uthread that has ended. -/
def ended (value : UInt64) (u : Uthread) : Uthread :=
  { markDone value u with ctx := ⟨u.ctx.trace, .exiting value⟩ }

/-- The records after uthread `cur` has ended, for which `waiter` waits. -/
def afterExit (cur : Ptr) (waiter : Option Ptr) (value : UInt64) (ut : Ptr) (v : Uthread) :
    Uthread :=
  if ut = cur then ended value v else if waiter = some ut then wakeRecord id v else v

section Exit

variable {program : Program} {written : Nat → Bytes} {tags : List UInt64} {s t : Sched} {m : Tasks}
  {cur : Ptr} {u : Uthread} (models : s.Models written m) (sound : s.Sound program tags)
  (user : s.control = .user) (running : s.running = some (cur, u)) (value : UInt64)

include models sound user running

theorem Models.exitAlone (alone : ∀ w, ¬ s.Awaits cur w) :
    (s.rrSchedulerExitCurrent value).Models written
      (m.finish u.id (s.task written u.core) value) := by
  obtain ⟨current, found, runs⟩ := sound.queue.running_at user running
  have core : (s.rrSchedulerExitCurrent value).core = s.core.modify cur (ended value) := by
    funext ut
    rw [rrSchedulerExitCurrent_core current sound.queue.on, Heap.modify_eq_map]
    congr 1
    funext v
    rw [if_neg fun waiter => alone ut ((joinWaiter_iff found runs ut).mp waiter)]
    rfl
  refine models.modify sound (sound.queue.exit user value) (exit_births s value).idAt
    (fun items shape => extends_exit sound.queue shape user value) core found (by simp [runs])
    (by simp [runs]) rfl ?_ ?_ ?_
  · simp only [Coop.Threads.finish, Coop.Threads.set, Coop.Thread.moveTo, task, status, ended,
      markDone]
    rfl
  · simp [Coop.Threads.finish, Coop.Threads.set, ended, markDone]
  · rw [rrSchedulerExitCurrent_eq current sound.queue.on]
    rfl

/-- The end of a uthread that another one waits for: the join is answered. -/
theorem Models.exitJoined {w : Ptr} {record : Uthread} {target : UInt64} {out : Bool}
    (there : s.core w = some record) (blocked : record.state = .blocked)
    (inside : record.ctx.frame = .joining target out cur) :
    (s.rrSchedulerExitCurrent value).Models written
      ((m.finish u.id (s.task written u.core) value).wake record.id (s.task written record)
        (.join u.id out) (.ofEnded out value)) := by
  obtain ⟨current, found, runs⟩ := sound.queue.running_at user running
  obtain ⟨_, present, aimed, _⟩ := (sound.joined w record there).aimed target out cur inside
  rw [found] at present
  cases present
  have awaits : s.Awaits cur w :=
    (sound.wakers.joins cur w).mpr ⟨record, there, blocked, target, out, inside⟩
  have waiter := (joinWaiter_iff found runs w).mpr awaits
  have away : w ≠ cur := by
    rintro rfl
    rw [found] at there
    cases there
    rw [runs] at blocked
    cases blocked
  have apart : record.id ≠ u.id := fun same => away (sound.named.core_inj there found same)
  have core : ∀ ut, (s.rrSchedulerExitCurrent value).core ut =
      (s.core ut).map (afterExit cur (some w) value ut) := by
    intro ut
    rw [rrSchedulerExitCurrent_core current sound.queue.on, waiter]
    rfl
  have own : ∀ v, afterExit cur (some w) value cur v = ended value v := fun v => if_pos rfl
  have woken : afterExit cur (some w) value w record = { record with state := .runnable } := by
    rw [afterExit, if_neg away, if_pos rfl, wakeRecord, if_pos blocked]
    rfl
  have other : ∀ ut v, ut ≠ cur → ut ≠ w → afterExit cur (some w) value ut v = v :=
    fun ut v one two => (if_neg one).trans (if_neg fun same => two (Option.some.inj same).symm)
  -- Three records: the one that ends, the one that is woken, and any other.
  have records : ∀ {holds : Ptr → Uthread → Prop}, holds cur u.core → holds w record →
      (∀ ut v, ut ≠ cur → ut ≠ w → s.core ut = some v → holds ut v) →
      ∀ ut v, s.core ut = some v → holds ut v := by
    intro holds first second others
    refine forall_core found first fun ut v one known => ?_
    by_cases two : ut = w
    · subst two
      rw [there] at known
      cases known
      exact second
    · exact others ut v one two known
  have lasting : s.Lasting (s.rrSchedulerExitCurrent value) := by
    refine .of_map core (records ?_ ?_ ?_)
    · rw [own]
      exact ⟨rfl, fun done => by rw [runs] at done; cases done⟩
    · rw [woken]
      exact ⟨rfl, fun done => by rw [blocked] at done; cases done⟩
    · intro ut v one two _
      rw [other ut v one two]
      exact ⟨rfl, fun done => ⟨done, rfl⟩⟩
  refine ⟨threads_of_map core (records ?_ ?_ ?_) (records ?_ ?_ ?_) ?_, ?_, ?_⟩
  · rw [own]
    rfl
  · rw [woken]
  · intro ut v one two _
    rw [other ut v one two]
  · have first : u.core.id ≠ record.id := fun same => apart same.symm
    rw [own, Coop.Threads.wake_thread, if_neg first]
    exact (Coop.Threads.finish_thread _ _ _ _ _).trans (if_pos rfl)
  · have stored : (s.rrSchedulerExitCurrent value).core cur = some (ended value u.core) := by
      rw [core, found, Option.map_some, own]
    rw [woken, Coop.Threads.wake_thread, if_pos rfl]
    simp only [task, status, due, inside, stored, Option.map_some, Coop.Thread.moveTo, ← aimed]
    rfl
  · intro ut v one two known
    have first : v.id ≠ u.id := fun same => one (sound.named.core_inj known found same)
    have second : v.id ≠ record.id := fun same => two (sound.named.core_inj known there same)
    rw [other ut v one two, Coop.Threads.wake_thread, if_neg second,
      Coop.Threads.finish_thread, if_neg first, models.found known,
      task_lasting sound.joined lasting known]
  · intro name v known
    rw [Coop.Threads.wake_thread, Coop.Threads.finish_thread] at known
    split at known
    · rename_i same
      exact ⟨w, record, there, same.symm⟩
    · split at known
      · rename_i same
        exact ⟨cur, u.core, found, same.symm⟩
      · obtain ⟨ut, x, here, named, _⟩ := (models.threads name v).mp known
        exact ⟨ut, x, here, named⟩
  · refine models.queue_grows sound.queue (sound.queue.exit user value) (exit_births s value).idAt
      (fun items shape => extends_exit sound.queue shape user value) (List.nodup_singleton w) ?_ ?_
    · have states : ∀ ut v, s.core ut = some v → (ut = w ↔
          (afterExit cur (some w) value ut v).state = .runnable ∧ v.state ≠ .runnable) := by
        refine records ?_ ?_ ?_
        · rw [own]
          simp [ended, markDone, away.symm]
        · rw [woken]
          simp [blocked]
        · intro ut v one two _
          rw [other ut v one two]
          simp [two]
      intro ut
      rw [stateOf_core, stateOf_core, core, List.mem_singleton]
      cases known : s.core ut with
      | none =>
          have absent : ut ≠ w := by
            rintro rfl
            rw [there] at known
            cases known
          simp [absent]
      | some v => simpa using states ut v known
    · rw [List.map_singleton, List.map_singleton, Sched.idAt, there, Option.map_some]
  · rw [rrSchedulerExitCurrent_eq current sound.queue.on]
    rfl

theorem Models.exit (next : program u.startFn u.ctx.replies = .exit value ∨
      program u.startFn u.ctx.replies = .ret ∧ u.startFn ≠ none ∧ value = 0) :
    ∃ m', Tasks.Step program m m' ∧ (s.rrSchedulerExitCurrent value).Models written m' := by
  obtain ⟨_, found, _⟩ := sound.queue.running_at user running
  have runs := models.runs sound user running
  by_cases awaited : ∃ w, s.Awaits cur w
  · obtain ⟨w, awaits⟩ := awaited
    obtain ⟨record, there, blocked, target, out, inside⟩ := (sound.wakers.joins cur w).mp awaits
    obtain ⟨_, present, aimed, _⟩ := (sound.joined w record there).aimed target out cur inside
    rw [found] at present
    cases present
    have waiting : (s.task written record).status = .waiting (.join u.id out) := by
      simp only [task, status, blocked, inside, Frame.cause, ← aimed]
      rfl
    exact ⟨_, .exitJoined u.id _ value record.id _ out runs next (models.found there) waiting,
      models.exitJoined sound user running value there blocked inside⟩
  · have alone : ∀ w, ¬ s.Awaits cur w := fun w awaits => awaited ⟨w, awaits⟩
    refine ⟨_, .exit u.id _ value runs next fun other joins => ?_,
      models.exitAlone sound user running value alone⟩
    have own : m.Joins other u.core.id := joins
    obtain ⟨w, awaits, _⟩ := (models.joins_awaits sound found).mp own
    exact alone w awaits

end Exit

/-- A step of the runtime is at most one step of the uthreads it stands for. -/
theorem Turn.simulated {program : Program} {stackSize : Nat} {written : Nat → Bytes} {async : Bool}
    {tags : List UInt64} {s t : Sched} {m : Tasks}
    (turn : s.Turn program stackSize written async t) (sound : s.Sound program tags)
    (bounded : t.nextId < 2 ^ 64) (models : s.Models written m) :
    ∃ m', ReflGen (Tasks.Step program) m m' ∧ t.Models written m' := by
  suffices moved : (∃ m', Tasks.Step program m m' ∧ t.Models written m') ∨ t.Models written m by
    rcases moved with ⟨m', step, after⟩ | same
    · exact ⟨m', .single step, after⟩
    · exact ⟨m, .refl, same⟩
  cases turn with
  | perform answer ut u t user running performed =>
      have runs := models.runs sound user running
      generalize next : program u.startFn u.ctx.replies = action at performed
      cases performed with
      | create fn => exact .inl (models.create sound user running next stackSize answer bounded)
      | yield => exact .inl ⟨_, .yield u.id _ runs next, models.yield sound user running⟩
      | joinNow id out reply answered =>
          exact .inl ⟨_, .joinNow u.id _ id out reply runs next
            (models.joinAnswer sound running answered), models.reply sound user running _ _⟩
      | joinWait id out target record hit apart live free =>
          exact .inl (models.joinWait sound user running next hit apart live free)
      | exit value => exact .inl (models.exit sound user running value (.inl next))
      | ret fn started =>
          exact .inl (models.exit sound user running 0 (.inr ⟨next, by simp [started], rfl⟩))
      | stop main =>
          exact .inl ⟨_, .ret u.id _ runs next main, models.threads, models.queue, rfl⟩
  | answered ut u call result user running next =>
      exact .inl ⟨_, .call u.id _ call result (models.runs sound user running) next,
        models.reply sound user running _ _⟩
  | submitted ut u call serial user running next submits waits =>
      exact .inl ⟨_, .submit u.id _ call (models.runs sound user running) next,
        models.submit sound user running call serial⟩
  | woken id ioResult ut u idle empty hit inside waits =>
      exact .inl (models.woken sound idle empty hit inside ioResult)
  | dispatched next u idle head found runnable =>
      exact .inl (models.dispatched sound idle head found runnable)
  | stopped control idle ends =>
      have turn : m.turn = .scheduler := by rw [models.turn, holder, idle]
      refine .inl ⟨_, .kill turn, models.threads, models.queue, ?_⟩
      rcases ends with rfl | rfl <;> rfl
  | unmoved => exact .inr models

/-- At the start of the process the main thread is the only one. -/
theorem afterInit_models (written : Nat → Bytes) : afterInit.Models written Tasks.start := by
  refine ⟨?_, ⟨[], ?_, rfl⟩, rfl⟩
  · intro id v
    simp only [Tasks.start]
    constructor
    · intro found
      split at found
      · rename_i main
        cases found
        exact ⟨0, { Uthread.zeroed with id := 1, state := .running }, rfl, main.symm, rfl⟩
      · cases found
    · rintro ⟨ut, u, found, rfl, rfl⟩
      obtain ⟨w, here, rfl⟩ := of_core_some found
      simp only [afterInit, Heap.set_apply] at here
      split at here
      · cases here
        rfl
      · cases here
  · refine ⟨rfl, rfl, List.nodup_nil, fun p _ => ?_⟩
    simp only [links, afterInit, Heap.set_apply]
    split <;> rfl

end Sched

end Librr
