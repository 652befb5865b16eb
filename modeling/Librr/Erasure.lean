import Librr.Frames

set_option autoImplicit false

namespace Librr

/-- A record without what only one of the two runs uses: the buffers of a completed
operation and the addresses of the stack. The finished actions are seen through
`view`. -/
def Uthread.erased (view : Action × Reply → Action × Reply) (u : Uthread) : Uthread :=
  { u with
    ctx := ⟨u.ctx.trace.map view, u.ctx.frame⟩
    ioResult := 0
    ioDataLen := 0
    ioData := []
    stack := 0
    stackSize := 0
    stackMap := 0
    stackMapSize := 0 }

/-- Every call `rr_uthread_create` makes succeeds. -/
structure CreateAnswer.Succeeds (answer : CreateAnswer) : Prop where
  calloc : answer.calloc = true
  mmap : answer.mmap.isSome = true
  mprotect : answer.mprotect = true
  fsBase : answer.fsBase = true
  getcontext : answer.getcontext = true
  guards : answer.reallocGuards = true
  threads : answer.reallocThreads = true
  allocated : answer.reallocAllocated = true

instance (answer : CreateAnswer) : Decidable answer.Succeeds :=
  decidable_of_iff (answer.calloc ∧ answer.mmap.isSome ∧ answer.mprotect ∧ answer.fsBase ∧
      answer.getcontext ∧ answer.reallocGuards ∧ answer.reallocThreads ∧ answer.reallocAllocated)
    ⟨fun ⟨a, b, c, d, e, f, g, h⟩ => ⟨a, b, c, d, e, f, g, h⟩,
      fun ⟨a, b, c, d, e, f, g, h⟩ => ⟨a, b, c, d, e, f, g, h⟩⟩

/-- A view that changes the results of wrapped calls only. -/
def Plain (view : Action × Reply → Action × Reply) : Prop :=
  ∀ action reply, (∀ result, reply ≠ .returned result) → view (action, reply) = (action, reply)

namespace Sched

theorem registerAll_succeeds {answer : CreateAnswer} (succeeds : answer.Succeeds) (s : Sched)
    (ut : Ptr) (page : GuardPage) :
    ∃ threads allocated guardPages, s.registerAll answer ut page =
        ({ s with threads := threads, allocated := allocated, guardPages := guardPages }, true) ∧
      threads.items = s.threads.items ++ [ut] := by
  rcases s.registerAll_outcomes answer ut page with
    ⟨refused, _⟩ | ⟨_, refused, _⟩ | ⟨_, threads, allocated, pages, outcome, listed, _⟩
  · simp [Table.Refuses, succeeds.guards] at refused
  · simp [Table.Refuses, succeeds.threads, succeeds.allocated] at refused
  · exact ⟨threads, allocated, pages, outcome, listed⟩

/-- The scheduler's state up to addresses of stacks and capacities of tables. -/
def erased (view : Action × Reply → Action × Reply) (s : Sched) : Sched :=
  { s with
    heap := fun ut => (s.heap ut).map (Uthread.erased view)
    threads := ⟨s.threads.items, 0⟩
    allocated := ⟨[], 0⟩
    guardPages := ⟨[], 0⟩ }

section Erasure

variable (view : Action × Reply → Action × Reply) (s : Sched)

theorem erased_modify {ut : Ptr} {change other : Uthread → Uthread}
    (commutes : ∀ u, (change u).erased view = other (u.erased view)) :
    (s.modify ut change).erased view = (s.erased view).modify ut other := by
  have heap : (fun p => ((s.heap.modify ut change) p).map (Uthread.erased view)) =
      Heap.modify (fun p => (s.heap p).map (Uthread.erased view)) ut other := by
    funext p
    simp only [Heap.modify_apply]
    split
    · rw [Option.map_map, Option.map_map]
      congr 1
      funext u
      exact commutes u
    · rfl
  simp only [erased, modify, heap]

theorem erased_setNext (ut : Ptr) (next : Option Ptr) :
    (s.setNext ut next).erased view = (s.erased view).setNext ut next :=
  erased_modify view s fun _ => rfl

theorem erased_setState (ut : Ptr) (state : UtState) :
    (s.setState ut state).erased view = (s.erased view).setState ut state :=
  erased_modify view s fun _ => rfl

theorem erased_control (control : Control) :
    ({ s with control := control } : Sched).erased view =
      { s.erased view with control := control } := rfl

theorem erased_swapOut (ut : Ptr) (frame : Frame) :
    (s.swapOut ut frame).erased view = (s.erased view).swapOut ut frame := by
  have inner : (s.modify ut fun u => { u with ctx := ⟨u.ctx.trace, frame⟩ }).erased view =
      (s.erased view).modify ut fun u => { u with ctx := ⟨u.ctx.trace, frame⟩ } :=
    erased_modify view s fun _ => rfl
  rw [swapOut, erased_control, inner]
  rfl

theorem erased_dispatch (next : Ptr) :
    (s.dispatch next).erased view = (s.erased view).dispatch next := by
  have inner := erased_setState view s next .running
  unfold dispatch
  rw [← inner]
  rfl

theorem erased_reply (ut : Ptr) (action : Action) (reply : Reply) :
    (s.reply ut action reply).erased view =
      (s.erased view).reply ut (view (action, reply)).1 (view (action, reply)).2 := by
  apply erased_modify
  intro u
  simp [Uthread.erased, Context.finish]

theorem erased_reply_plain {view : Action × Reply → Action × Reply} (plain : Plain view)
    (s : Sched) (ut : Ptr) (action : Action) {reply : Reply}
    (other : ∀ result, reply ≠ .returned result) :
    (s.reply ut action reply).erased view = (s.erased view).reply ut action reply := by
  rw [erased_reply, plain action reply other]

theorem erased_enqueue (ut : Ptr) :
    (s.rrSchedulerEnqueue ut).erased view = (s.erased view).rrSchedulerEnqueue ut := by
  have tail : (s.erased view).runqTail = s.runqTail := rfl
  unfold rrSchedulerEnqueue
  rw [tail]
  cases s.runqTail with
  | none =>
      have inner := erased_setNext view s ut none
      simp only
      rw [← inner]
      rfl
  | some last =>
      have inner : ((s.setNext ut none).setNext last (some ut)).erased view =
          ((s.erased view).setNext ut none).setNext last (some ut) := by
        rw [erased_setNext, erased_setNext]
      simp only
      rw [← inner]
      rfl

theorem erased_popFront :
    (s.erased view).runqPopFront = (s.runqPopFront.1, s.runqPopFront.2.erased view) := by
  have head : (s.erased view).runqHead = s.runqHead := rfl
  unfold runqPopFront
  rw [head]
  cases s.runqHead with
  | none => rfl
  | some ut =>
      have inner := erased_setNext view s ut none
      have next : ((s.erased view).heap ut).bind Uthread.next = (s.heap ut).bind Uthread.next := by
        simp only [erased]
        cases s.heap ut <;> rfl
      simp only [next]
      rw [← inner]
      rfl

theorem erased_running :
    (s.erased view).running = s.running.map fun entry => (entry.1, entry.2.erased view) := by
  simp only [running, erased]
  cases s.current with
  | none => rfl
  | some ut =>
      simp only [Option.bind_some]
      cases s.heap ut <;> rfl

theorem erased_currentId : (s.erased view).currentId = s.currentId := by
  unfold currentId
  rw [erased_running]
  cases s.running <;> rfl

theorem erased_find (id : UInt64) :
    (s.erased view).rrSchedulerFind id =
      (s.rrSchedulerFind id).map fun entry => (entry.1, entry.2.erased view) := by
  unfold rrSchedulerFind
  have items : (s.erased view).threads.items = s.threads.items := rfl
  rw [items]
  induction s.threads.items with
  | nil => rfl
  | cons ut rest ih =>
      simp only [List.findSome?_cons, ih]
      cases found : s.heap ut with
      | none => simp [erased, found]
      | some u =>
          have same : (u.erased view).id = u.id := rfl
          by_cases hit : u.id = id
          · simp [erased, found, same, hit]
          · simp [erased, found, same, hit]

theorem erased_yield :
    s.rrSchedulerYieldCurrent.erased view = (s.erased view).rrSchedulerYieldCurrent := by
  have current : (s.erased view).current = s.current := rfl
  have on : (s.erased view).schedRunning = s.schedRunning := rfl
  unfold rrSchedulerYieldCurrent
  rw [current, on]
  cases s.current with
  | none => rfl
  | some cur =>
      simp only
      split
      · rfl
      · rw [erased_swapOut, erased_enqueue, erased_setState]

theorem erased_block (frame : Frame) :
    (s.rrSchedulerBlockCurrent frame).erased view =
      (s.erased view).rrSchedulerBlockCurrent frame := by
  have current : (s.erased view).current = s.current := rfl
  have on : (s.erased view).schedRunning = s.schedRunning := rfl
  unfold rrSchedulerBlockCurrent
  rw [current, on]
  cases s.current with
  | none => rfl
  | some cur =>
      simp only
      split
      · rfl
      · rw [erased_swapOut, erased_setState]

theorem erased_wakeJoiner (waiter : Option Ptr) :
    (s.wakeJoiner waiter).erased view = (s.erased view).wakeJoiner waiter := by
  unfold wakeJoiner
  cases waiter with
  | none => rfl
  | some ut =>
      cases found : s.heap ut with
      | none => simp [erased, found]
      | some w =>
          have seen : (s.erased view).heap ut = some (w.erased view) := by simp [erased, found]
          have state : (w.erased view).state = w.state := rfl
          simp only [found, seen, state]
          split
          · rw [erased_enqueue, erased_setState]
          · rfl

theorem erased_exit (value : UInt64) :
    (s.rrSchedulerExitCurrent value).erased view =
      (s.erased view).rrSchedulerExitCurrent value := by
  have current : (s.erased view).current = s.current := rfl
  have on : (s.erased view).schedRunning = s.schedRunning := rfl
  unfold rrSchedulerExitCurrent
  rw [current, on]
  cases s.current with
  | none => rfl
  | some cur =>
      have waiter : ((s.erased view).heap cur).bind Uthread.joinWaiter =
          (s.heap cur).bind Uthread.joinWaiter := by
        simp only [erased]
        cases s.heap cur <;> rfl
      have ended : (s.modify cur (markDone value)).erased view =
          (s.erased view).modify cur (markDone value) := erased_modify view s fun _ => rfl
      simp only
      split
      · rfl
      · rw [erased_swapOut, erased_wakeJoiner, ended, waiter]

theorem erased_join (id : UInt64) (out : Bool) :
    (s.erased view).rrUthreadJoin id out =
      ((s.rrUthreadJoin id out).1.erased view, (s.rrUthreadJoin id out).2) := by
  unfold rrUthreadJoin
  rw [erased_find]
  cases s.rrSchedulerFind id with
  | none => rfl
  | some hit =>
      obtain ⟨ut, target⟩ := hit
      simp only [Option.map_some, erased_running]
      have same : (target.erased view).id = target.id ∧
          (target.erased view).state = target.state ∧
          (target.erased view).retval = target.retval ∧
          (target.erased view).joinWaiter = target.joinWaiter := ⟨rfl, rfl, rfl, rfl⟩
      cases s.running with
      | none =>
          simp only [Option.map_none, same]
          split <;> rfl
      | some mine =>
          obtain ⟨self, me⟩ := mine
          have own : (me.erased view).id = me.id := rfl
          have waited : (s.modify ut (awaitedBy self)).erased view =
              (s.erased view).modify ut (awaitedBy self) := erased_modify view s fun _ => rfl
          simp only [Option.map_some, same, own]
          split
          · rfl
          · split
            · rfl
            · split
              · rfl
              · rw [erased_block, waited]

/-- The erased state after a creation in which every call succeeds. A null function
and an exhausted address space are refused all the same. -/
def born (s : Sched) (fn : Option Fn) : Sched × UInt64 :=
  match fn with
  | none => (s, 0)
  | some start =>
    if 2 ^ 64 < (s.brk + 1) * sizeofUthread then (s, 0)
    else
      (rrSchedulerEnqueue { s with
        heap := s.heap.set s.brk
          ((newUthread (UInt64.ofNat s.nextId) start 0 0 0).erased id)
        brk := s.brk + 1
        threads := ⟨s.threads.items ++ [s.brk], 0⟩
        nextId := s.nextId + 1 } s.brk, UInt64.ofNat s.nextId)

theorem erased_create {answer : CreateAnswer} (succeeds : answer.Succeeds) (stackSize : Nat)
    (fn : Option Fn) :
    (s.erased view).born fn = ((s.uthreadCreate stackSize fn answer).1.erased view,
      (s.uthreadCreate stackSize fn answer).2) := by
  cases fn with
  | none => rfl
  | some start =>
      obtain ⟨mem, mapped⟩ := Option.isSome_iff_exists.mp succeeds.mmap
      simp only [born, uthreadCreate, rrUthreadCreate, succeeds.calloc, mapped, succeeds.mprotect,
        succeeds.fsBase, succeeds.getcontext, Bool.not_true, Bool.false_or, decide_eq_true_eq,
        Bool.false_eq_true, ↓reduceIte]
      have brk : (s.erased view).brk = s.brk := rfl
      rw [brk]
      split
      · rfl
      · obtain ⟨threads, allocated, pages, registered, items⟩ := registerAll_succeeds succeeds
          { s with nextId := s.nextId + 1 } s.brk ⟨mem, answer.pagesz, UInt64.ofNat s.nextId⟩
        rw [registered]
        simp only [erased_enqueue, Prod.mk.injEq]
        refine ⟨?_, rfl⟩
        congr 1
        have heap : (s.erased view).heap.set s.brk
              ((newUthread (UInt64.ofNat s.nextId) start 0 0 0).erased id) =
            fun p => ((s.heap.set s.brk (newUthread (UInt64.ofNat s.nextId) start mem
              answer.pagesz stackSize)) p).map (Uthread.erased view) := by
          funext p
          simp only [Heap.set_apply]
          split <;> rfl
        have nextId : (s.erased view).nextId = s.nextId := rfl
        have known : (s.erased view).threads.items = s.threads.items := rfl
        rw [nextId, known, heap]
        simp only [erased, items]

end Erasure

/-- The actions that concern the scheduler alone, on erased states. -/
def localStep (s : Sched) (ut : Ptr) (startFn : Option Fn) : Action → Sched
  | .create fn => (s.born fn).1.reply ut (.create fn) (.created (s.born fn).2)
  | .yield => s.rrSchedulerYieldCurrent
  | .join id out =>
    match s.rrUthreadJoin id out with
    | (sched, none) => sched
    | (sched, some reply) => sched.reply ut (.join id out) reply
  | .exit value => s.rrSchedulerExitCurrent value
  | .call _ => s
  | .ret =>
    match startFn with
    | none => { s with control := .exited }
    | some _ => s.rrSchedulerExitCurrent 0

theorem rrUthreadJoin_reply {s t : Sched} {id : UInt64} {out : Bool} {reply : Reply}
    (answered : s.rrUthreadJoin id out = (t, some reply)) (result : CallResult) :
    reply ≠ .returned result := by
  rintro rfl
  unfold rrUthreadJoin at answered
  repeat' split at answered
  all_goals simp at answered

/-- Two runs whose states agree up to erasure do the same in such an action. -/
theorem Local.erased {view : Action × Reply → Action × Reply} (plain : Plain view)
    {stackSize : Nat} {s t : Sched} {ut : Ptr} {u : Uthread} {answer : CreateAnswer}
    {action : Action} (succeeds : answer.Succeeds) (running : s.running = some (ut, u))
    (performed : s.Local stackSize ut u answer action t) :
    t.erased view = (s.erased view).localStep ut u.startFn action := by
  cases performed with
  | create fn =>
      rw [erased_reply_plain plain _ _ _ (by simp), localStep,
        erased_create view s succeeds stackSize fn]
  | yield => exact erased_yield view s
  | joinNow id out reply answered =>
      rw [erased_reply_plain plain _ _ _ (rrUthreadJoin_reply answered)]
      simp only [localStep, erased_join, answered]
  | joinWait id out target record found apart live free =>
      simp only [localStep, erased_join, rrUthreadJoin_waits found running apart live free]
  | exit value => exact erased_exit view s value
  | ret fn started =>
      simp only [localStep, started]
      exact erased_exit view s 0
  | stop main =>
      simp only [localStep, main]
      rfl

/-- A uthread that is switched to finishes the action it was suspended in. -/
def resumed (s : Sched) (ut : Ptr) : Frame → Sched
  | .yielding => s.reply ut .yield .yielded
  | .joining id out target =>
    s.reply ut (.join id out) (.joined 0 none
      (if out then (s.heap target).map Uthread.retval else none))
  | _ => s

theorem erased_resumed {view : Action × Reply → Action × Reply} (plain : Plain view) (s : Sched)
    (ut : Ptr) (frame : Frame) :
    (s.resumed ut frame).erased view = (s.erased view).resumed ut frame := by
  cases frame with
  | yielding => exact erased_reply_plain plain s ut _ (by simp)
  | joining id out target =>
      have retval : ((s.erased view).heap target).map Uthread.retval =
          (s.heap target).map Uthread.retval := by
        simp only [erased, Option.map_map]
        rfl
      rw [resumed, resumed, retval]
      exact erased_reply_plain plain s ut _ (by simp)
  | user => rfl
  | io call serial => rfl
  | exiting value => rfl

/-- A record that has been blocked in a call and woken with a result. -/
def wokenWith (frame : Frame) (raw : Int32) (u : Uthread) : Uthread :=
  { u with
    state := .runnable
    ctx := ⟨u.ctx.trace, frame⟩
    ioResult := raw
    ioDataLen := 0
    next := none }

/-- Where nothing else is queued, a uthread that blocks and is woken is alone in the
queue. -/
theorem woken_eq {s : Sched} {ut : Ptr} {u v : Uthread} {frame : Frame} {id : UInt64}
    (on : s.schedRunning = true) (running : s.running = some (ut, u))
    (tail : s.runqTail = none)
    (found : (s.rrSchedulerBlockCurrent frame).rrSchedulerFind id = some (ut, v)) (raw : Int32) :
    (s.rrSchedulerBlockCurrent frame).rrSchedulerWakeById id raw none 0 =
      { s with
        heap := s.heap.modify ut (wokenWith frame raw)
        runqHead := some ut
        runqTail := some ut
        control := .scheduler } := by
  obtain ⟨current, present⟩ := of_running running
  have parts := rrSchedulerBlockCurrent_eq current on frame
  obtain ⟨_, hit, _⟩ := rrSchedulerFind_some found
  have blocked : v.state = .blocked := by
    rw [parts] at hit
    simp only [swapOut, setState, modify, Heap.modify_modify, Heap.modify_same, present,
      Option.map_some, Option.some.injEq] at hit
    rw [← hit]
  unfold rrSchedulerWakeById
  simp only [found, blocked, ne_eq, not_true_eq_false, ↓reduceIte]
  rw [parts]
  simp only [rrSchedulerEnqueue, swapOut, setState, setNext, modify, tail, Heap.modify_modify]
  rfl

theorem erased_heap_modify (view : Action × Reply → Action × Reply) {heap : Heap Uthread}
    {ut : Ptr} {u : Uthread} {first second : Uthread → Uthread} (present : heap ut = some u)
    (same : (first u).erased view = (second u).erased view) :
    (fun p => (heap.modify ut first p).map (Uthread.erased view)) =
      fun p => (heap.modify ut second p).map (Uthread.erased view) := by
  funext p
  simp only [Heap.modify_apply]
  split
  · rename_i own
    rw [own, present, Option.map_some, Option.map_some, Option.map_some, Option.map_some, same]
  · rfl

/-- Popped and switched to again, it is where it was, up to what erasure hides. -/
theorem erased_roundTrip (view : Action × Reply → Action × Reply) {s : Sched} {ut : Ptr}
    {u : Uthread} {frame : Frame} {raw : Int32} (user : s.control = .user)
    (running : s.running = some (ut, u)) (head : s.runqHead = none) (tail : s.runqTail = none)
    (runs : u.state = .running) (unlinked : u.next = none) (action : Action) (reply : Reply)
    {woken : Sched}
    (same : woken = { s with
      heap := s.heap.modify ut (wokenWith frame raw)
      runqHead := some ut
      runqTail := some ut
      control := .scheduler }) :
    woken.runqPopFront.2.heap ut = some (wokenWith frame raw u) ∧
    ((woken.runqPopFront.2.dispatch ut).reply ut action reply).erased view =
      (s.reply ut action reply).erased view := by
  obtain ⟨current, present⟩ := of_running running
  have link : ((s.heap.modify ut (wokenWith frame raw)) ut).bind Uthread.next = none := by
    simp [Heap.modify_same, present, wokenWith]
  subst same
  refine ⟨?_, ?_⟩
  · simp only [runqPopFront, setNext, modify, Heap.modify_modify, Heap.modify_same, present]
    rfl
  · simp only [runqPopFront, setNext, dispatch, setState, Sched.reply, modify, link,
      Heap.modify_modify, ↓reduceIte, erased, Sched.mk.injEq, head, tail, current, user, and_true]
    apply erased_heap_modify view present
    simp [Uthread.erased, wokenWith, Context.finish, runs, unlinked]

end Sched

namespace State

/-- Outside an asynchronous call, a switch concerns the scheduler alone. -/
theorem switchTo_outside (s : State) (popped : Sched) (next : Ptr) {u : Uthread}
    (outside : ∀ call serial, u.ctx.frame ≠ .io call serial) :
    s.switchTo popped next u =
      { s with
        sched := (popped.dispatch next).resumed next u.ctx.frame
        history := s.history ++ s.switchSeen next u.id } := by
  rw [switchTo_eq, resume]
  cases frame : u.ctx.frame with
  | io call serial => exact absurd frame (outside call serial)
  | user => rfl
  | yielding => rfl
  | joining id out target => rfl
  | exiting value => rfl

end State

end Librr
