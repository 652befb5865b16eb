import Librr.Base.Transition
import Librr.SchedulerFacts

set_option autoImplicit false

namespace Librr

open IntrusiveQueue Transition

/-- What can happen to the scheduler's state: the calls of the running uthread,
the iterations of `scheduler_loop`, and the end of the process. A completion
carries any id, whether or not a uthread with it waits. -/
inductive SchedOp where
  | create (stackSize : Nat) (fn : Option Fn) (answer : CreateAnswer)
  | yield
  | block (call : Call) (serial : Nat)
  | join (id : UInt64) (out : Bool)
  | exit (value : UInt64)
  | proceed (action : Action) (reply : Reply)
  | next
  | wake (id : UInt64) (ioResult : Int32)
  | stop (aborted : Bool)

namespace Sched

/-- An iteration of `scheduler_loop` that finds a queued uthread. -/
def schedulerNext (s : Sched) : Option Sched :=
  match s.runqPopFront with
  | (none, _) => none
  | (some ut, popped) =>
    match popped.heap ut with
    | none => none
    | some u => if u.state ≠ .runnable then some popped else some (popped.dispatch ut)

def schedStep (s : Sched) : SchedOp → Option Sched
  | .create stackSize fn answer =>
    if s.control = .user then some (s.uthreadCreate stackSize fn answer).1 else none
  | .yield => if s.control = .user then some s.rrSchedulerYieldCurrent else none
  | .block call serial =>
    if s.control = .user then some (s.rrSchedulerBlockCurrent (.io call serial)) else none
  | .join id out => if s.control = .user then some (s.rrUthreadJoin id out).1 else none
  | .exit value => if s.control = .user then some (s.rrSchedulerExitCurrent value) else none
  | .proceed action reply =>
    if s.control = .user then s.current.map fun cur => s.reply cur action reply else none
  | .next => if s.control = .scheduler then s.schedulerNext else none
  | .wake id ioResult =>
    if s.control = .scheduler ∧ s.runqHead = none then
      some (s.rrSchedulerWakeById id ioResult none 0)
    else none
  | .stop aborted => some { s with control := if aborted then .aborted else .exited }

/-- What one operation does, with the condition under which it can happen. -/
inductive Moves (s : Sched) : SchedOp → Sched → Prop where
  | create (stackSize : Nat) (fn : Option Fn) (answer : CreateAnswer)
    (user : s.control = .user) :
    Moves s (.create stackSize fn answer) (s.uthreadCreate stackSize fn answer).1
  | yield (user : s.control = .user) : Moves s .yield s.rrSchedulerYieldCurrent
  | block (call : Call) (serial : Nat) (user : s.control = .user) :
    Moves s (.block call serial) (s.rrSchedulerBlockCurrent (.io call serial))
  | join (id : UInt64) (out : Bool) (user : s.control = .user) :
    Moves s (.join id out) (s.rrUthreadJoin id out).1
  | exit (value : UInt64) (user : s.control = .user) :
    Moves s (.exit value) (s.rrSchedulerExitCurrent value)
  | proceed (action : Action) (reply : Reply) (cur : Ptr) (user : s.control = .user)
    (current : s.current = some cur) : Moves s (.proceed action reply) (s.reply cur action reply)
  | next (t : Sched) (idle : s.control = .scheduler) (found : s.schedulerNext = some t) :
    Moves s .next t
  | wake (id : UInt64) (ioResult : Int32) (idle : s.control = .scheduler)
    (empty : s.runqHead = none) :
    Moves s (.wake id ioResult) (s.rrSchedulerWakeById id ioResult none 0)
  | stop (aborted : Bool) :
    Moves s (.stop aborted) { s with control := if aborted then .aborted else .exited }

theorem schedStep_moves {s t : Sched} {op : SchedOp} (taken : s.schedStep op = some t) :
    s.Moves op t := by
  cases op with
  | create stackSize fn answer =>
      simp only [schedStep, Option.ite_none_right_eq_some, Option.some.injEq] at taken
      exact taken.2 ▸ .create stackSize fn answer taken.1
  | yield =>
      simp only [schedStep, Option.ite_none_right_eq_some, Option.some.injEq] at taken
      exact taken.2 ▸ .yield taken.1
  | block call serial =>
      simp only [schedStep, Option.ite_none_right_eq_some, Option.some.injEq] at taken
      exact taken.2 ▸ .block call serial taken.1
  | join id out =>
      simp only [schedStep, Option.ite_none_right_eq_some, Option.some.injEq] at taken
      exact taken.2 ▸ .join id out taken.1
  | exit value =>
      simp only [schedStep, Option.ite_none_right_eq_some, Option.some.injEq] at taken
      exact taken.2 ▸ .exit value taken.1
  | proceed action reply =>
      simp only [schedStep, Option.ite_none_right_eq_some, Option.map_eq_some_iff] at taken
      obtain ⟨user, cur, current, rfl⟩ := taken
      exact .proceed action reply cur user current
  | next =>
      simp only [schedStep, Option.ite_none_right_eq_some] at taken
      exact .next t taken.1 taken.2
  | wake id ioResult =>
      simp only [schedStep, Option.ite_none_right_eq_some, Option.some.injEq] at taken
      exact taken.2 ▸ .wake id ioResult taken.1.1 taken.1.2
  | stop aborted =>
      cases taken
      exact .stop aborted

/-- The list threaded through `next` is finite and duplicate-free, ends at the
tail, and holds exactly the runnable uthreads; no other one has a link. -/
def RunqExact (s : Sched) : Prop :=
  ∃ items, Represents s.links items ∧ ∀ ut, ut ∈ items ↔ s.stateOf ut = some .runnable

structure QueueInvariant (s : Sched) : Prop where
  runq : s.RunqExact
  user : s.control = .user →
    ∃ cur, s.current = some cur ∧ ∀ ut, s.stateOf ut = some .running ↔ ut = cur
  scheduler : s.control = .scheduler → ∀ ut, s.stateOf ut ≠ some .running
  ended : ∀ ut u, s.core ut = some u → (u.state = .done ↔ ∃ value, u.ctx.frame = .exiting value)
  unallocated : ∀ ut, s.brk ≤ ut → s.core ut = none
  on : s.schedRunning = true

theorem heap_of_stateOf {s : Sched} {ut : Ptr} {state : UtState}
    (found : s.stateOf ut = some state) : ∃ u, s.heap ut = some u ∧ u.state = state := by
  simpa [stateOf] using found

/-- The run queue is one list, and its uthreads are runnable. -/
theorem RunqExact.runnable {s : Sched} (exact : s.RunqExact) {items : List Ptr}
    (shape : Represents s.links items) (ut : Ptr) :
    ut ∈ items ↔ s.stateOf ut = some .runnable := by
  obtain ⟨others, shape', runnable⟩ := exact
  obtain rfl : others = items := shape'.chain.unique shape.chain
  exact runnable ut

theorem RunqExact.congr {s t : Sched} (exact : s.RunqExact) (links : t.links = s.links)
    (states : ∀ ut, t.stateOf ut = some .runnable ↔ s.stateOf ut = some .runnable) :
    t.RunqExact := by
  obtain ⟨items, shape, runnable⟩ := exact
  exact ⟨items, links ▸ shape, fun ut => (runnable ut).trans (states ut).symm⟩

theorem represents_enqueue {s : Sched} {ut : Ptr} {items : List Ptr}
    (shape : Represents s.links items) (absent : ut ∉ items)
    (live : ∀ item ∈ items, s.heap item ≠ none) :
    Represents (s.rrSchedulerEnqueue ut).links (items ++ [ut]) := by
  rw [rrSchedulerEnqueue_links fun tail found => live tail (shape.tail_mem found)]
  exact shape.enqueue absent

/-- Queueing the one runnable uthread that the list does not hold yet. -/
theorem runqExact_of_enqueue {s : Sched} {ut : Ptr} {items : List Ptr}
    (shape : Represents s.links items) (absent : ut ∉ items)
    (states : ∀ other, (other ∈ items ∨ other = ut) ↔ s.stateOf other = some .runnable) :
    (s.rrSchedulerEnqueue ut).RunqExact := by
  refine ⟨items ++ [ut], represents_enqueue shape absent ?_, ?_⟩
  · intro item member
    obtain ⟨u, present, _⟩ := heap_of_stateOf ((states item).mp (Or.inl member))
    rw [present]
    simp
  · intro other
    rw [List.mem_append, List.mem_singleton, states other, rrSchedulerEnqueue_stateOf]

/-- Every wake-up first makes a uthread runnable that was not, so that it is not
queued yet. -/
theorem RunqExact.enqueue {s : Sched} {ut : Ptr} {change : Uthread → Uthread}
    (exact : s.RunqExact) (allocated : s.heap ut ≠ none)
    (idle : s.stateOf ut ≠ some .runnable) (runs : ∀ u, (change u).state = .runnable)
    (kept : ∀ u, (change u).next = u.next) :
    ((s.modify ut change).rrSchedulerEnqueue ut).RunqExact := by
  obtain ⟨items, shape, runnable⟩ := exact
  have unmoved : Represents (s.modify ut change).links items := by
    rw [links_modify kept]
    exact shape
  refine runqExact_of_enqueue unmoved ?_ ?_
  · exact fun member => idle ((runnable ut).mp member)
  · intro other
    rw [runnable other, stateOf_modify]
    by_cases same : other = ut
    · subst same
      obtain ⟨u, present⟩ := Option.ne_none_iff_exists'.mp allocated
      simp [present, runs]
    · simp [same]

/-- Popping the head and running it removes it from both sides at once. -/
theorem RunqExact.pop {s : Sched} {ut : Ptr} (exact : s.RunqExact)
    (head : s.runqHead = some ut) :
    s.stateOf ut = some .runnable ∧ (s.runqPopFront.2.dispatch ut).RunqExact := by
  obtain ⟨items, shape, runnable⟩ := exact
  cases items with
  | nil =>
      have none : s.runqHead = none := shape.chain
      rw [none] at head
      cases head
  | cons front rest =>
      have first : s.runqHead = some front := shape.chain.1
      obtain rfl : front = ut := by
        rw [first] at head
        exact Option.some.inj head
      have queued : s.stateOf front = some .runnable := (runnable front).mp (by simp)
      obtain ⟨absent, _⟩ := List.nodup_cons.mp shape.nodup
      refine ⟨queued, rest, ?_, ?_⟩
      · change Represents (s.runqPopFront.2.setState front .running).links rest
        rw [setState_links, (runqPopFront_links head).2]
        exact shape.popFront
      · intro other
        change other ∈ rest ↔ (s.runqPopFront.2.setState front .running).stateOf other = _
        rw [stateOf_setState, runqPopFront_stateOf]
        by_cases same : other = front
        · subst same
          simp [absent]
        · rw [if_neg same, ← runnable other]
          simp [same]

theorem afterInit_queueInvariant : QueueInvariant afterInit := by
  have only : ∀ ut, afterInit.core ut =
      if ut = 0 then some { Uthread.zeroed with id := 1, state := .running } else none := by
    intro ut
    simp only [core, afterInit, Heap.set_apply]
    split <;> rfl
  have unlinked : ∀ ut, afterInit.links.next ut = none := by
    intro ut
    simp only [links, afterInit, Heap.set_apply]
    split <;> rfl
  refine ⟨⟨[], ⟨rfl, rfl, List.nodup_nil, fun ut _ => unlinked ut⟩, ?_⟩, ?_, ?_, ?_, ?_, rfl⟩
  · intro ut
    rw [stateOf_core, only]
    split <;> simp
  · intro _
    refine ⟨0, rfl, ?_⟩
    intro ut
    rw [stateOf_core, only]
    split <;> simp_all
  · intro stopped
    cases stopped
  · intro ut u found
    rw [only] at found
    split at found
    · cases found
      simp [Uthread.zeroed, Context.start]
    · cases found
  · intro ut above
    have apart : ut ≠ 0 := by
      have : 1 ≤ ut := above
      omega
    rw [only, if_neg apart]

section Steps

variable {s : Sched} {cur : Ptr}

/-- The running uthread, as the invariant gives it. -/
theorem QueueInvariant.runningCore (inv : s.QueueInvariant) (user : s.control = .user) :
    ∃ cur u, s.current = some cur ∧ s.core cur = some u ∧ u.state = .running ∧
      (∀ value, u.ctx.frame ≠ .exiting value) ∧
      ∀ ut v, s.core ut = some v → v.state = .running → ut = cur := by
  obtain ⟨cur, current, only⟩ := inv.user user
  have here := (only cur).mpr rfl
  rw [stateOf_core] at here
  obtain ⟨u, found, runs⟩ := Option.map_eq_some_iff.mp here
  refine ⟨cur, u, current, found, runs, ?_, ?_⟩
  · intro value framed
    have done := (inv.ended cur u found).mpr ⟨value, framed⟩
    rw [runs] at done
    cases done
  · intro ut v present active
    apply (only ut).mp
    rw [stateOf_core, present, Option.map_some, active]

/-- The same where it is known which uthread runs. -/
theorem QueueInvariant.running_at (inv : s.QueueInvariant) (user : s.control = .user) {ut : Ptr}
    {u : Uthread} (running : s.running = some (ut, u)) :
    s.current = some ut ∧ s.core ut = some u.core ∧ u.core.state = .running := by
  obtain ⟨current, present⟩ := of_running running
  obtain ⟨cur, v, current', found, runs, _⟩ := inv.runningCore user
  have same : cur = ut := Option.some.inj (current'.symm.trans current)
  rw [same, core_some present, Option.some.injEq] at found
  exact ⟨current, core_some present, found ▸ runs⟩

/-- A context leaves for the scheduler: its record changes as `change` says and
no uthread runs afterwards. -/
theorem QueueInvariant.leave {t : Sched} {change : Uthread → Uthread}
    (inv : s.QueueInvariant) (user : s.control = .user) (current : s.current = some cur)
    (runq : t.RunqExact) (control : t.control = .scheduler)
    (core : t.core = s.core.modify cur change) (brk : t.brk = s.brk)
    (on : t.schedRunning = s.schedRunning) (stops : ∀ u, (change u).state ≠ .running)
    (ended : ∀ u, (change u).state = .done ↔ ∃ value, (change u).ctx.frame = .exiting value) :
    t.QueueInvariant := by
  obtain ⟨cur', _, current', _, _, _, only⟩ := inv.runningCore user
  obtain rfl : cur' = cur := by
    rw [current'] at current
    exact Option.some.inj current
  refine ⟨runq, ?_, ?_, ?_, ?_, on.trans inv.on⟩
  · intro active
    rw [control] at active
    cases active
  · intro _ ut active
    rw [stateOf_core, core, Heap.modify_apply] at active
    split at active
    · obtain ⟨u, found, runs⟩ := Option.map_eq_some_iff.mp active
      obtain ⟨v, _, rfl⟩ := Option.map_eq_some_iff.mp found
      exact stops v runs
    · rename_i apart
      obtain ⟨u, found, runs⟩ := Option.map_eq_some_iff.mp active
      exact apart (only ut u found runs)
  · intro ut u found
    rw [core, Heap.modify_apply] at found
    split at found
    · obtain ⟨v, _, rfl⟩ := Option.map_eq_some_iff.mp found
      exact ended v
    · exact inv.ended ut u found
  · intro ut above
    rw [core, Heap.modify_eq_none]
    exact inv.unallocated ut (brk ▸ above)

theorem QueueInvariant.yield (inv : s.QueueInvariant) (user : s.control = .user) :
    s.rrSchedulerYieldCurrent.QueueInvariant := by
  obtain ⟨cur, u, current, found, runs, _, _⟩ := inv.runningCore user
  have parts := rrSchedulerYieldCurrent_eq current inv.on
  have frame := rrSchedulerEnqueue_frame (s.setState cur .runnable) cur
  refine inv.leave user current ?_ (by rw [parts]; rfl)
    (rrSchedulerYieldCurrent_core current inv.on) (by rw [parts]; exact frame.brk)
    (by rw [parts]; exact frame.schedRunning) (fun _ => by simp [suspend])
    (fun _ => by simp [suspend])
  have allocated : s.heap cur ≠ none := by
    rw [Ne, ← core_eq_none, found]
    simp
  have idle : s.stateOf cur ≠ some .runnable := by
    rw [stateOf_core, found, Option.map_some, runs]
    simp
  have queued : ((s.setState cur .runnable).rrSchedulerEnqueue cur).RunqExact :=
    inv.runq.enqueue allocated idle (fun _ => rfl) (fun _ => rfl)
  rw [parts]
  exact queued.congr (swapOut_links _ _ _) (fun ut => by rw [swapOut_stateOf])

theorem QueueInvariant.block (inv : s.QueueInvariant) (user : s.control = .user)
    (frame : Frame) (returns : ∀ value, frame ≠ .exiting value) :
    (s.rrSchedulerBlockCurrent frame).QueueInvariant := by
  obtain ⟨cur, u, current, found, runs, _, _⟩ := inv.runningCore user
  have parts := rrSchedulerBlockCurrent_eq current inv.on frame
  refine inv.leave user current ?_ (by rw [parts]; rfl)
    (rrSchedulerBlockCurrent_core current inv.on frame) (by rw [parts]; rfl) (by rw [parts]; rfl)
    (fun _ => by simp [suspend]) (fun _ => by simpa [suspend] using returns)
  have waits : (s.setState cur .blocked).RunqExact := by
    refine inv.runq.congr (setState_links _ _ _) ?_
    intro ut
    rw [stateOf_setState]
    split
    · rename_i same
      rw [same, stateOf_core, found, Option.map_some, runs]
      simp
    · rfl
  rw [parts]
  exact waits.congr (swapOut_links _ _ _) (fun ut => by rw [swapOut_stateOf])

theorem RunqExact.wakeJoiner (exact : s.RunqExact) (waiter : Option Ptr) :
    (s.wakeJoiner waiter).RunqExact := by
  unfold Sched.wakeJoiner
  split
  · exact exact
  · rename_i ut
    split
    · exact exact
    · rename_i w found
      split
      · rename_i blocked
        refine exact.enqueue (by simp [found]) ?_ (fun _ => rfl) (fun _ => rfl)
        simp [stateOf, found, blocked]
      · exact exact

theorem RunqExact.wakeById (exact : s.RunqExact) (id : UInt64) (ioResult : Int32)
    (data : Option Bytes) (dataLen : Nat) :
    (s.rrSchedulerWakeById id ioResult data dataLen).RunqExact := by
  unfold rrSchedulerWakeById
  split
  · exact exact
  · rename_i ut u found
    obtain ⟨_, present, _⟩ := rrSchedulerFind_some found
    split
    · exact exact
    · rename_i blocked
      refine exact.enqueue (by simp [present]) ?_ (fun _ => rfl) (fun _ => rfl)
      simp [stateOf, present, not_not.mp blocked]

/-- A wake-up keeps every record's standing towards `exiting`: a blocked record
is not done, before or after. -/
theorem wakeRecord_ended {change : Uthread → Uthread} {u : Uthread}
    (sameCtx : (change u).ctx = u.ctx)
    (ended : u.state = .done ↔ ∃ value, u.ctx.frame = .exiting value) :
    (wakeRecord change u).state = .done ↔
      ∃ value, (wakeRecord change u).ctx.frame = .exiting value := by
  unfold wakeRecord
  split
  · rename_i blocked
    have notDone : u.state ≠ .done := by simp [blocked]
    simp only [sameCtx, ← ended, notDone, reduceCtorEq]
  · exact ended

theorem wakeRecord_running {change : Uthread → Uthread} {u : Uthread} :
    (wakeRecord change u).state = .running ↔ u.state = .running := by
  unfold wakeRecord
  split
  · rename_i blocked
    simp [blocked]
  · rfl

theorem QueueInvariant.exit (inv : s.QueueInvariant) (user : s.control = .user)
    (retval : UInt64) : (s.rrSchedulerExitCurrent retval).QueueInvariant := by
  obtain ⟨cur, u, current, found, runs, _, only⟩ := inv.runningCore user
  have records := rrSchedulerExitCurrent_core current inv.on retval
  have ended : (s.modify cur (markDone retval)).RunqExact := by
    refine inv.runq.congr (links_modify (fun _ => rfl)) ?_
    intro ut
    rw [stateOf_modify]
    split
    · rename_i same
      rw [same, stateOf_core, found, Option.map_some, runs]
      simp [markDone]
    · rfl
  have frame := wakeJoiner_frame (s.modify cur (markDone retval))
    ((s.heap cur).bind Uthread.joinWaiter)
  have parts := rrSchedulerExitCurrent_eq current inv.on retval
  refine ⟨?_, ?_, ?_, ?_, ?_, ?_⟩
  · rw [parts]
    exact (ended.wakeJoiner _).congr (swapOut_links _ _ _) (fun ut => by rw [swapOut_stateOf])
  · intro active
    rw [parts] at active
    cases active
  · intro _ ut active
    rw [stateOf_core, records] at active
    obtain ⟨v, present, runs⟩ := Option.map_eq_some_iff.mp active
    obtain ⟨w, old, rfl⟩ := Option.map_eq_some_iff.mp present
    split at runs
    · cases runs
    · rename_i apart
      split at runs
      · exact apart (only ut w old (wakeRecord_running.mp runs))
      · exact apart (only ut w old runs)
  · intro ut v present
    rw [records] at present
    obtain ⟨w, old, rfl⟩ := Option.map_eq_some_iff.mp present
    split
    · exact iff_of_true rfl ⟨retval, rfl⟩
    · split
      · exact wakeRecord_ended rfl (inv.ended ut w old)
      · exact inv.ended ut w old
  · intro ut above
    rw [parts] at above
    rw [records, inv.unallocated ut (frame.brk ▸ above), Option.map_none]
  · rw [parts]
    exact frame.schedRunning.trans inv.on

theorem QueueInvariant.wake (inv : s.QueueInvariant) (idle : s.control = .scheduler)
    (id : UInt64) (ioResult : Int32) (data : Option Bytes) (dataLen : Nat) :
    (s.rrSchedulerWakeById id ioResult data dataLen).QueueInvariant := by
  have frame := rrSchedulerWakeById_frame s id ioResult data dataLen
  have records := rrSchedulerWakeById_core s id ioResult data dataLen
  have origin : ∀ ut v, (s.rrSchedulerWakeById id ioResult data dataLen).core ut = some v →
      ∃ w, s.core ut = some w ∧ (v = w ∨ ∃ change, v = wakeRecord change w ∧
        (change w).ctx = w.ctx) := by
    intro ut v present
    rw [records] at present
    split at present
    · exact ⟨v, present, Or.inl rfl⟩
    · rw [Heap.modify_apply] at present
      split at present
      · obtain ⟨w, old, rfl⟩ := Option.map_eq_some_iff.mp present
        exact ⟨w, old, Or.inr ⟨_, rfl, rfl⟩⟩
      · exact ⟨v, present, Or.inl rfl⟩
  refine ⟨inv.runq.wakeById id ioResult data dataLen, ?_, ?_, ?_, ?_, ?_⟩
  · intro active
    rw [frame.control, idle] at active
    cases active
  · intro _ ut active
    rw [stateOf_core] at active
    obtain ⟨v, present, runs⟩ := Option.map_eq_some_iff.mp active
    obtain ⟨w, old, same⟩ := origin ut v present
    apply inv.scheduler idle ut
    rw [stateOf_core, old, Option.map_some]
    rcases same with rfl | ⟨change, rfl, _⟩
    · rw [runs]
    · rw [wakeRecord_running.mp runs]
  · intro ut v present
    obtain ⟨w, old, rfl | ⟨change, rfl, sameCtx⟩⟩ := origin ut v present
    · exact inv.ended ut _ old
    · exact wakeRecord_ended sameCtx (inv.ended ut w old)
  · intro ut above
    have absent := inv.unallocated ut (frame.brk ▸ above)
    rw [records]
    split
    · exact absent
    · rw [Heap.modify_eq_none]
      exact absent
  · exact frame.schedRunning.trans inv.on

/-- Fields that only the tables and the id counter differ in do not matter. -/
theorem QueueInvariant.tables {t : Sched} (inv : s.QueueInvariant) (heap : t.heap = s.heap)
    (head : t.runqHead = s.runqHead) (tail : t.runqTail = s.runqTail)
    (current : t.current = s.current) (control : t.control = s.control) (brk : t.brk = s.brk)
    (on : t.schedRunning = s.schedRunning) : t.QueueInvariant := by
  have links : t.links = s.links := by simp only [Sched.links, heap, head, tail]
  have core : t.core = s.core := by
    funext ut
    simp only [Sched.core, heap]
  have states : t.stateOf = s.stateOf := by
    funext ut
    simp only [stateOf, heap]
  refine ⟨inv.runq.congr links (fun ut => by rw [states]), ?_, ?_, ?_, ?_, on.trans inv.on⟩
  · rw [control, current, states]
    exact inv.user
  · rw [control, states]
    exact inv.scheduler
  · rw [core]
    exact inv.ended
  · rw [core, brk]
    exact inv.unallocated

/-- A fresh record has no queue link, so it does not disturb the list it joins. -/
theorem QueueInvariant.create (inv : s.QueueInvariant) (user : s.control = .user)
    (stackSize : Nat) (fn : Option Fn) (answer : CreateAnswer) :
    (s.uthreadCreate stackSize fn answer).1.QueueInvariant := by
  rcases uthreadCreate_cases s stackSize fn answer with
    ⟨threads, pages, nextId, outcome, _⟩ | ⟨start, mem, threads, allocated, pages, outcome, _⟩
  · rw [outcome]
    exact inv.tables rfl rfl rfl rfl rfl rfl rfl
  rw [outcome]
  obtain ⟨cur, u, current, found, runs, _, only⟩ := inv.runningCore user
  have vacant : s.core s.brk = none := inv.unallocated s.brk (Nat.le_refl _)
  obtain ⟨items, shape, runnable⟩ := inv.runq
  set record := newUthread (UInt64.ofNat s.nextId) start mem answer.pagesz stackSize
  set placed : Sched := { s with
    heap := s.heap.set s.brk record
    brk := s.brk + 1
    threads := threads
    allocated := allocated
    guardPages := pages
    nextId := s.nextId + 1 }
  have core : placed.core = s.core.set s.brk record.core := core_set rfl
  have links : placed.links = s.links :=
    links_set rfl rfl rfl ((core_eq_none s s.brk).mp vacant) rfl
  have states : ∀ ut, placed.stateOf ut =
      if ut = s.brk then some .runnable else s.stateOf ut := by
    intro ut
    rw [stateOf_core, core, Heap.set_apply]
    split
    · rfl
    · rw [stateOf_core]
  have frame := rrSchedulerEnqueue_frame placed s.brk
  refine ⟨?_, ?_, ?_, ?_, ?_, frame.schedRunning.trans inv.on⟩
  · have unmoved : Represents placed.links items := links ▸ shape
    refine runqExact_of_enqueue unmoved ?_ ?_
    · intro member
      have queued := (runnable s.brk).mp member
      rw [stateOf_core, vacant] at queued
      cases queued
    · intro other
      rw [states, runnable other]
      by_cases same : other = s.brk
      · simp [same]
      · simp [same]
  · intro _
    refine ⟨cur, frame.current.trans current, ?_⟩
    intro ut
    rw [rrSchedulerEnqueue_stateOf, states]
    split
    · rename_i same
      subst same
      simp only [Option.some.injEq, reduceCtorEq, false_iff]
      rintro rfl
      rw [vacant] at found
      cases found
    · constructor
      · intro active
        rw [stateOf_core] at active
        obtain ⟨v, present, busy⟩ := Option.map_eq_some_iff.mp active
        exact only ut v present busy
      · rintro rfl
        rw [stateOf_core, found, Option.map_some, runs]
  · intro stopped
    rw [frame.control] at stopped
    exact absurd (user.symm.trans stopped) (by simp)
  · intro ut v present
    rw [rrSchedulerEnqueue_core, core, Heap.set_apply] at present
    split at present
    · cases present
      exact iff_of_false (by simp [record, newUthread, Uthread.core])
        (by simp [record, newUthread, Uthread.core, Uthread.zeroed, Context.start])
    · exact inv.ended ut v present
  · intro ut above
    rw [frame.brk] at above
    have higher : s.brk + 1 ≤ ut := above
    rw [rrSchedulerEnqueue_core, core, Heap.set_other _ _ (by omega)]
    exact inv.unallocated ut (by omega)

theorem QueueInvariant.join (inv : s.QueueInvariant) (user : s.control = .user)
    (id : UInt64) (out : Bool) : (s.rrUthreadJoin id out).1.QueueInvariant := by
  rcases rrUthreadJoin_cases s id out with
    ⟨reply, outcome⟩ | ⟨ut, target, self, me, _, _, _, _, _, outcome⟩
  · rw [outcome]
    exact inv
  rw [outcome]
  have core := awaitedBy_core s ut self
  have states : (s.modify ut (awaitedBy self)).stateOf = s.stateOf := by
    funext other
    rw [stateOf_modify]
    split <;> rfl
  have marked : (s.modify ut (awaitedBy self)).QueueInvariant := by
    refine ⟨inv.runq.congr (links_modify (fun _ => rfl)) (fun ut => by rw [states]), ?_, ?_, ?_,
      ?_, inv.on⟩
    · rw [states]
      exact inv.user
    · rw [states]
      exact inv.scheduler
    · intro other v present
      rw [core, Heap.modify_apply] at present
      split at present
      · obtain ⟨w, old, rfl⟩ := Option.map_eq_some_iff.mp present
        exact inv.ended other w old
      · exact inv.ended other v present
    · intro other above
      rw [core, Heap.modify_eq_none]
      exact inv.unallocated other above
  exact marked.block user _ (fun _ => by simp)

theorem QueueInvariant.proceed (inv : s.QueueInvariant) (user : s.control = .user)
    (current : s.current = some cur) (action : Action) (reply : Reply) :
    (s.reply cur action reply).QueueInvariant := by
  obtain ⟨cur', u, current', found, runs, _, _⟩ := inv.runningCore user
  obtain rfl : cur' = cur := Option.some.inj (current'.symm.trans current)
  have states : (s.reply cur' action reply).stateOf = s.stateOf := by
    funext other
    change (s.modify cur' _).stateOf other = _
    rw [stateOf_modify]
    split <;> rfl
  refine ⟨inv.runq.congr (links_modify (fun _ => rfl)) (fun ut => by rw [states]), ?_, ?_, ?_,
    ?_, inv.on⟩
  · rw [states]
    exact inv.user
  · rw [states]
    exact inv.scheduler
  · intro other v present
    rw [reply_core, Heap.modify_apply] at present
    split at present
    · rename_i same
      subst same
      rw [found, Option.map_some] at present
      cases present
      exact iff_of_false (by simp [runs]) (by simp [Context.finish])
    · exact inv.ended other v present
  · intro other above
    rw [reply_core, Heap.modify_eq_none]
    exact inv.unallocated other above

/-- The head of the queue is runnable, so `scheduler_loop` always runs it. -/
theorem QueueInvariant.next_eq (inv : s.QueueInvariant) {ut : Ptr}
    (head : s.runqHead = some ut) :
    ∃ u, s.core ut = some u ∧ u.state = .runnable ∧
      s.schedulerNext = some (s.runqPopFront.2.dispatch ut) := by
  obtain ⟨queued, _⟩ := inv.runq.pop head
  rw [stateOf_core] at queued
  obtain ⟨u, found, runnable⟩ := Option.map_eq_some_iff.mp queued
  refine ⟨u, found, runnable, ?_⟩
  have popped : s.runqPopFront = (some ut, s.runqPopFront.2) :=
    Prod.ext (runqPopFront_links head).1 rfl
  obtain ⟨v, present, rfl⟩ := of_core_some (s := s.runqPopFront.2) (runqPopFront_core s ▸ found)
  have ready : v.state = .runnable := runnable
  unfold schedulerNext
  rw [popped]
  simp [present, ready]

/-- An iteration that finds a queued uthread dispatches it. -/
theorem QueueInvariant.next_dispatches {t : Sched} (inv : s.QueueInvariant)
    (taken : s.schedulerNext = some t) :
    ∃ ut u, s.runqHead = some ut ∧ s.core ut = some u ∧ u.state = .runnable ∧
      t = s.runqPopFront.2.dispatch ut ∧
      t.core = s.core.modify ut fun u => { u with state := .running } := by
  cases head : s.runqHead with
  | none => simp [schedulerNext, runqPopFront, head] at taken
  | some ut =>
      obtain ⟨u, found, runnable, dispatched⟩ := inv.next_eq head
      rw [dispatched] at taken
      cases taken
      exact ⟨ut, u, rfl, found, runnable, rfl, by rw [dispatch_core, runqPopFront_core]⟩

theorem QueueInvariant.next {t : Sched} (inv : s.QueueInvariant) (idle : s.control = .scheduler)
    (taken : s.schedulerNext = some t) : t.QueueInvariant := by
  obtain ⟨ut, u, head, found, runnable, rfl, core⟩ := inv.next_dispatches taken
  have frame := runqPopFront_frame s
  refine ⟨(inv.runq.pop head).2, ?_, ?_, ?_, ?_, frame.schedRunning.trans inv.on⟩
  · intro _
    refine ⟨ut, rfl, ?_⟩
    intro other
    rw [stateOf_core, core, Heap.modify_apply]
    split
    · rename_i same
      simp [same, found]
    · rename_i apart
      have idles := inv.scheduler idle other
      rw [stateOf_core] at idles
      exact iff_of_false idles apart
  · intro stopped
    cases stopped
  · intro other v present
    rw [core, Heap.modify_apply] at present
    split at present
    · rename_i same
      subst same
      rw [found, Option.map_some] at present
      cases present
      have running := (inv.ended other u found).not.mp (by simp [runnable])
      exact iff_of_false (by simp) running
    · exact inv.ended other v present
  · intro other above
    rw [core, Heap.modify_eq_none]
    exact inv.unallocated other (frame.brk ▸ above)

end Steps

theorem schedStep_queueInvariant (s : Sched) (op : SchedOp) (t : Sched)
    (taken : s.schedStep op = some t) (inv : s.QueueInvariant) : t.QueueInvariant := by
  cases schedStep_moves taken with
  | create stackSize fn answer user => exact inv.create user stackSize fn answer
  | yield user => exact inv.yield user
  | block call serial user => exact inv.block user _ (fun _ => by simp)
  | join id out user => exact inv.join user id out
  | exit value user => exact inv.exit user value
  | proceed action reply cur user current => exact inv.proceed user current action reply
  | next _ idle found => exact inv.next idle found
  | wake id ioResult idle empty => exact inv.wake idle id ioResult none 0
  | stop aborted =>
      have ended : (if aborted then Control.aborted else Control.exited) ≠ .user ∧
          (if aborted then Control.aborted else Control.exited) ≠ .scheduler := by
        cases aborted <;> simp
      exact ⟨inv.runq, fun user => absurd user ended.1, fun idle => absurd idle ended.2,
        inv.ended, inv.unallocated, inv.on⟩

/-- A done uthread stays done. -/
def DoneKept (s t : Sched) : Prop :=
  ∀ ut, s.stateOf ut = some .done → t.stateOf ut = some .done

theorem doneKept_of_map {s t : Sched} {change : Ptr → Uthread → Uthread}
    (core : ∀ ut, t.core ut = (s.core ut).map (change ut))
    (kept : ∀ ut u, s.core ut = some u → u.state = .done → (change ut u).state = .done) :
    s.DoneKept t := by
  intro ut done
  rw [stateOf_core] at done ⊢
  obtain ⟨u, found, ended⟩ := Option.map_eq_some_iff.mp done
  rw [core, found, Option.map_some, Option.map_some, kept ut u found ended]

theorem doneKept_of_modify {s t : Sched} {cur : Ptr} {u : Uthread} {change : Uthread → Uthread}
    (core : t.core = s.core.modify cur change) (found : s.core cur = some u)
    (alive : u.state ≠ .done) : s.DoneKept t := by
  refine doneKept_of_map (fun ut => by rw [core, Heap.modify_eq_map]) ?_
  intro ut v present ended
  split
  · rename_i same
    subst same
    rw [found] at present
    cases present
    exact absurd ended alive
  · exact ended

theorem wakeRecord_done {change : Uthread → Uthread} {u : Uthread} (ended : u.state = .done) :
    (wakeRecord change u).state = .done := by
  simp [wakeRecord, ended]

theorem schedStep_doneKept (s : Sched) (op : SchedOp) (t : Sched)
    (taken : s.schedStep op = some t) (inv : s.QueueInvariant) : s.DoneKept t := by
  cases schedStep_moves taken with
  | create stackSize fn answer user =>
      rcases uthreadCreate_cases s stackSize fn answer with
        ⟨threads, pages, nextId, outcome, _⟩ | ⟨start, mem, threads, allocated, pages, outcome, _⟩
      · rw [outcome]
        exact fun _ done => done
      · rw [outcome]
        intro ut done
        have vacant := inv.unallocated s.brk (Nat.le_refl _)
        have apart : ut ≠ s.brk := by
          rintro rfl
          rw [stateOf_core, vacant] at done
          cases done
        rw [rrSchedulerEnqueue_stateOf, stateOf_core, core_set (s := s) rfl,
          Heap.set_other _ _ apart, ← stateOf_core]
        exact done
  | yield user =>
      obtain ⟨cur, u, current, found, runs, _⟩ := inv.runningCore user
      exact doneKept_of_modify (rrSchedulerYieldCurrent_core current inv.on) found (by simp [runs])
  | block call serial user =>
      obtain ⟨cur, u, current, found, runs, _⟩ := inv.runningCore user
      exact doneKept_of_modify (rrSchedulerBlockCurrent_core current inv.on _) found
        (by simp [runs])
  | join id out user =>
      obtain ⟨cur, u, current, found, runs, _⟩ := inv.runningCore user
      rcases rrUthreadJoin_cases s id out with
        ⟨reply, outcome⟩ | ⟨ut, target, self, me, _, _, _, _, _, outcome⟩
      · rw [outcome]
        exact fun _ done => done
      · rw [outcome]
        have marked : s.DoneKept (s.modify ut (awaitedBy self)) := by
          refine doneKept_of_map (fun other => by rw [awaitedBy_core, Heap.modify_eq_map]) ?_
          intro other v _ ended
          split <;> exact ended
        have waiting : (s.modify ut (awaitedBy self)).core cur =
            some (if cur = ut then awaitedBy self u else u) := by
          rw [awaitedBy_core, Heap.modify_eq_map, found, Option.map_some]
        have blocked : (s.modify ut (awaitedBy self)).DoneKept
            ((s.modify ut (awaitedBy self)).rrSchedulerBlockCurrent (.joining id out ut)) := by
          have currentKept : (s.modify ut (awaitedBy self)).current = some cur := current
          refine doneKept_of_modify (rrSchedulerBlockCurrent_core currentKept inv.on _) waiting ?_
          split <;> simp [awaitedBy, runs]
        exact fun other done => blocked other (marked other done)
  | exit value user =>
      obtain ⟨cur, u, current, found, runs, _⟩ := inv.runningCore user
      refine doneKept_of_map (rrSchedulerExitCurrent_core current inv.on value) ?_
      intro ut v _ ended
      split
      · rfl
      · split
        · exact wakeRecord_done ended
        · exact ended
  | proceed action reply cur user current =>
      refine doneKept_of_map (fun ut => by rw [reply_core, Heap.modify_eq_map]) ?_
      intro ut v _ ended
      split <;> exact ended
  | next _ idle dispatches =>
      obtain ⟨ut, u, _, found, runnable, _, core⟩ := inv.next_dispatches dispatches
      exact doneKept_of_modify core found (by simp [runnable])
  | wake id ioResult idle empty =>
      intro ut done
      rw [stateOf_core] at done ⊢
      obtain ⟨u, found, ended⟩ := Option.map_eq_some_iff.mp done
      rw [rrSchedulerWakeById_core]
      split
      · rw [found, Option.map_some, ended]
      · rw [Heap.modify_eq_map, found, Option.map_some, Option.map_some]
        split
        · rw [wakeRecord_done ended]
        · rw [ended]
  | stop aborted => exact fun _ done => done

/-- In every reachable state the run queue is a well-formed list of exactly the
runnable uthreads and at most the current one runs. A done uthread stays done in
every continuation, and the uthread `scheduler_loop` pops is always runnable and
never inside the `swapcontext` of its exit. -/
theorem runq_exact_in_every_state (ops : List SchedOp) (s : Sched)
    (reached : exec schedStep afterInit ops = some s) :
    s.QueueInvariant ∧
    (∀ more later, exec schedStep s more = some later → s.DoneKept later) ∧
    (∀ ut, s.runqPopFront.1 = some ut → ∃ u, s.runqPopFront.2.heap ut = some u ∧
      u.state = .runnable ∧ (∀ value, u.ctx.frame ≠ .exiting value) ∧
      s.schedulerNext = some (s.runqPopFront.2.dispatch ut)) := by
  have inv : s.QueueInvariant :=
    exec_invariant schedStep_queueInvariant afterInit_queueInvariant reached
  refine ⟨inv, ?_, ?_⟩
  · intro more later continued
    have kept : ∀ t op t', schedStep t op = some t' → t.QueueInvariant ∧ s.DoneKept t →
        t'.QueueInvariant ∧ s.DoneKept t' := fun t op t' taken kept =>
      ⟨schedStep_queueInvariant t op t' taken kept.1,
        fun ut done => schedStep_doneKept t op t' taken kept.1 ut (kept.2 ut done)⟩
    exact (exec_invariant kept ⟨inv, fun _ done => done⟩ continued).2
  · intro ut popped
    have head : s.runqHead = some ut := by
      cases first : s.runqHead with
      | none => simp [runqPopFront, first] at popped
      | some other =>
          rw [(runqPopFront_links first).1] at popped
          exact popped
    obtain ⟨u, found, runnable, dispatched⟩ := inv.next_eq head
    obtain ⟨v, present, rfl⟩ := of_core_some (s := s.runqPopFront.2) (runqPopFront_core s ▸ found)
    have alive := (inv.ended ut v.core found).not.mp (by simp [runnable])
    refine ⟨v, present, runnable, ?_, dispatched⟩
    intro value framed
    exact alive ⟨value, framed⟩

/-- Two uthreads are created; the main thread joins the first, which yields, so that
the second is at the head of the queue. -/
def joinAfterCreates : List SchedOp :=
  [.create 8192 (some 0) ⟨true, 4096, some 65536, true, true, true, true, true, true⟩,
    .create 8192 (some 1) ⟨true, 4096, some 131072, true, true, true, true, true, true⟩,
    .join 2 true, .next, .yield]

theorem runq_exact_after_join :
    ∃ s, exec schedStep afterInit joinAfterCreates = some s ∧ s.QueueInvariant ∧
      s.runqPopFront.1 = some 2 := by
  have ran : (exec schedStep afterInit joinAfterCreates).map (fun s => s.runqPopFront.1) =
      some (some 2) := by decide +kernel
  obtain ⟨s, reached, popped⟩ := Option.map_eq_some_iff.mp ran
  exact ⟨s, reached, (runq_exact_in_every_state joinAfterCreates s reached).1, popped⟩

end Sched

end Librr
