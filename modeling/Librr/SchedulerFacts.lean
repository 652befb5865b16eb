import Librr.Scheduler

set_option autoImplicit false

namespace Librr

open IntrusiveQueue

/-- A record without its queue link. -/
def Uthread.core (u : Uthread) : Uthread := { u with next := none }

/-- The table is full and cannot be made larger. -/
def Table.Refuses {α : Type} (table : Table α) (realloc : Bool) : Prop :=
  table.items.length = table.cap ∧ realloc = false

instance {α : Type} (table : Table α) (realloc : Bool) : Decidable (table.Refuses realloc) :=
  inferInstanceAs (Decidable (_ ∧ _))

theorem Table.push_cases {α : Type} (table : Table α) (realloc : Bool) (item : α) :
    table.Refuses realloc ∧ table.push realloc item = none ∨
      ¬ table.Refuses realloc ∧
        ∃ grown, table.push realloc item = some grown ∧ grown.items = table.items ++ [item] := by
  by_cases full : table.items.length = table.cap
  · cases realloc with
    | false => exact .inl ⟨⟨full, rfl⟩, by simp [push, full]⟩
    | true =>
        refine .inr ⟨fun refused => Bool.noConfusion refused.2,
          ⟨table.items ++ [item], if table.cap = 0 then 16 else table.cap * 2⟩, ?_, rfl⟩
        rw [push, if_pos full, if_pos rfl]
  · exact .inr ⟨fun refused => full refused.1, ⟨table.items ++ [item], table.cap⟩,
      by rw [push, if_neg full], rfl⟩

namespace Sched

@[simp] theorem modify_heap (s : Sched) (ut : Ptr) (change : Uthread → Uthread) :
    (s.modify ut change).heap = s.heap.modify ut change := rfl

/-- The run queue as the pointers hold it. -/
def links (s : Sched) : Links Ptr :=
  ⟨s.runqHead, s.runqTail, fun ut => (s.heap ut).bind Uthread.next⟩

def stateOf (s : Sched) (ut : Ptr) : Option UtState := (s.heap ut).map Uthread.state

/-- The actions a uthread has finished, with their results. -/
def traceAt (s : Sched) (ut : Ptr) : Option (List (Action × Reply)) :=
  (s.heap ut).map fun u => u.ctx.trace

theorem traceAt_reply (s : Sched) (ut : Ptr) (action : Action) (r : Reply) :
    (s.reply ut action r).traceAt ut = (s.traceAt ut).map (· ++ [(action, r)]) := by
  simp only [traceAt, reply, modify_heap, Heap.modify_same, Option.map_map]
  rfl

/-- All records without their queue links: what enqueueing and popping preserve. -/
def core (s : Sched) : Heap Uthread := fun ut => (s.heap ut).map Uthread.core

theorem core_some {s : Sched} {ut : Ptr} {u : Uthread} (found : s.heap ut = some u) :
    s.core ut = some u.core := by
  simp [core, found]

theorem of_core_some {s : Sched} {ut : Ptr} {u : Uthread} (found : s.core ut = some u) :
    ∃ v, s.heap ut = some v ∧ v.core = u := by
  simpa [core] using found

theorem stateOf_core (s : Sched) (ut : Ptr) :
    s.stateOf ut = (s.core ut).map Uthread.state := by
  simp only [stateOf, core, Option.map_map]
  rfl

theorem core_eq_none (s : Sched) (ut : Ptr) : s.core ut = none ↔ s.heap ut = none := by
  simp [core]

theorem core_modify {s : Sched} {ut : Ptr} {change : Uthread → Uthread}
    (unlinked : ∀ u, (change u).core = change u.core) :
    (s.modify ut change).core = s.core.modify ut change := by
  funext other
  by_cases same : other = ut
  · subst same
    simp only [core, modify, Heap.modify_same, Option.map_map]
    congr 1
    funext u
    exact unlinked u
  · simp only [core, modify, Heap.modify_other _ _ same]

theorem core_set {s t : Sched} {ut : Ptr} {record : Uthread}
    (placed : t.heap = s.heap.set ut record) : t.core = s.core.set ut record.core := by
  funext other
  simp only [core, placed, Heap.set_apply]
  split <;> rfl

/-- A record without a link at an unallocated address changes no link. -/
theorem links_set {s t : Sched} {ut : Ptr} {record : Uthread}
    (placed : t.heap = s.heap.set ut record) (head : t.runqHead = s.runqHead)
    (tail : t.runqTail = s.runqTail) (vacant : s.heap ut = none) (unlinked : record.next = none) :
    t.links = s.links := by
  simp only [links, head, tail, placed, Links.mk.injEq, true_and]
  funext other
  rw [Heap.set_apply]
  split
  · rename_i same
    simp [same, vacant, unlinked]
  · rfl

@[simp] theorem setNext_core (s : Sched) (ut : Ptr) (next : Option Ptr) :
    (s.setNext ut next).core = s.core := by
  funext other
  by_cases same : other = ut
  · subst same
    simp only [core, setNext, modify, Heap.modify_same, Option.map_map]
    congr 1
  · simp only [core, setNext, modify, Heap.modify_other _ _ same]

@[simp] theorem rrSchedulerEnqueue_core (s : Sched) (ut : Ptr) :
    (s.rrSchedulerEnqueue ut).core = s.core := by
  unfold rrSchedulerEnqueue
  split
  · exact setNext_core s ut none
  · rename_i tail found
    exact (setNext_core _ tail (some ut)).trans (setNext_core s ut none)

@[simp] theorem runqPopFront_core (s : Sched) : (s.runqPopFront.2).core = s.core := by
  unfold runqPopFront
  split
  · rfl
  · rename_i ut found
    exact setNext_core s ut none

/-- The parts of the state that queue operations leave alone. -/
structure SameFrame (before after : Sched) : Prop where
  brk : after.brk = before.brk
  current : after.current = before.current
  schedRunning : after.schedRunning = before.schedRunning
  threads : after.threads = before.threads
  allocated : after.allocated = before.allocated
  guardPages : after.guardPages = before.guardPages
  nextId : after.nextId = before.nextId
  control : after.control = before.control

theorem SameFrame.refl (s : Sched) : SameFrame s s :=
  ⟨rfl, rfl, rfl, rfl, rfl, rfl, rfl, rfl⟩

theorem SameFrame.trans {first second third : Sched} (one : SameFrame first second)
    (two : SameFrame second third) : SameFrame first third :=
  ⟨two.brk.trans one.brk, two.current.trans one.current,
    two.schedRunning.trans one.schedRunning, two.threads.trans one.threads,
    two.allocated.trans one.allocated, two.guardPages.trans one.guardPages,
    two.nextId.trans one.nextId, two.control.trans one.control⟩

theorem modify_frame (s : Sched) (ut : Ptr) (change : Uthread → Uthread) :
    SameFrame s (s.modify ut change) :=
  ⟨rfl, rfl, rfl, rfl, rfl, rfl, rfl, rfl⟩

theorem rrSchedulerEnqueue_frame (s : Sched) (ut : Ptr) :
    SameFrame s (s.rrSchedulerEnqueue ut) := by
  unfold rrSchedulerEnqueue
  split <;> exact ⟨rfl, rfl, rfl, rfl, rfl, rfl, rfl, rfl⟩

theorem runqPopFront_frame (s : Sched) : SameFrame s s.runqPopFront.2 := by
  unfold runqPopFront
  split <;> exact ⟨rfl, rfl, rfl, rfl, rfl, rfl, rfl, rfl⟩

theorem links_modify {s : Sched} {ut : Ptr} {change : Uthread → Uthread}
    (kept : ∀ u, (change u).next = u.next) : (s.modify ut change).links = s.links := by
  simp only [links, modify, Links.mk.injEq, true_and]
  funext other
  by_cases same : other = ut
  · subst same
    rw [Heap.modify_same]
    cases s.heap other with
    | none => rfl
    | some u => exact kept u
  · rw [Heap.modify_other _ _ same]

theorem setNext_next (s : Sched) (ut : Ptr) (next : Option Ptr)
    (allocated : s.heap ut ≠ none ∨ next = none) :
    (fun p => ((s.setNext ut next).heap p).bind Uthread.next) =
      Function.update (fun p => (s.heap p).bind Uthread.next) ut next := by
  funext other
  rw [setNext, modify_heap]
  by_cases same : other = ut
  · subst same
    rw [Function.update_self, Heap.modify_same]
    cases found : s.heap other with
    | none =>
        rcases allocated with live | rfl
        · exact absurd found live
        · rfl
    | some u => rfl
  · rw [Function.update_of_ne same, Heap.modify_other _ _ same]

/-- Popping the head acts on the pointers as the library's queue does. -/
theorem runqPopFront_links {s : Sched} {ut : Ptr} (head : s.runqHead = some ut) :
    s.runqPopFront.1 = some ut ∧ s.runqPopFront.2.links = s.links.popFront ut := by
  unfold runqPopFront
  rw [head]
  refine ⟨rfl, ?_⟩
  simp only [links, Links.popFront, Links.mk.injEq, true_and]
  exact ⟨if_congr Iff.rfl rfl rfl, setNext_next s ut none (Or.inr rfl)⟩

/-- So does enqueueing, where the tail is an allocated record. -/
theorem rrSchedulerEnqueue_links {s : Sched} {ut : Ptr}
    (live : ∀ tail, s.runqTail = some tail → s.heap tail ≠ none) :
    (s.rrSchedulerEnqueue ut).links = s.links.enqueue ut := by
  have unlinked := setNext_next s ut none (Or.inr rfl)
  unfold rrSchedulerEnqueue
  cases ended : s.runqTail with
  | none =>
      simp only [links, ended, Links.enqueue, Links.mk.injEq, true_and]
      exact unlinked
  | some tail =>
      have present : (s.setNext ut none).heap tail ≠ none := by
        rw [setNext, modify_heap, Ne, Heap.modify_eq_none]
        exact live tail ended
      simp only [links, ended, Links.enqueue, Links.mk.injEq]
      refine ⟨rfl, trivial, ?_⟩
      change (fun p => (((s.setNext ut none).setNext tail (some ut)).heap p).bind Uthread.next) = _
      rw [setNext_next _ tail (some ut) (Or.inl present), unlinked]

@[simp] theorem rrSchedulerEnqueue_stateOf (s : Sched) (ut : Ptr) :
    (s.rrSchedulerEnqueue ut).stateOf = s.stateOf := by
  funext other
  rw [stateOf_core, stateOf_core, rrSchedulerEnqueue_core]

@[simp] theorem runqPopFront_stateOf (s : Sched) : s.runqPopFront.2.stateOf = s.stateOf := by
  funext other
  rw [stateOf_core, stateOf_core, runqPopFront_core]

theorem stateOf_modify (s : Sched) (ut other : Ptr) (change : Uthread → Uthread) :
    (s.modify ut change).stateOf other =
      if other = ut then (s.heap other).map fun u => (change u).state else s.stateOf other := by
  simp only [stateOf, modify_heap, Heap.modify_apply]
  split
  · rw [Option.map_map]
    rfl
  · rfl

theorem stateOf_setState (s : Sched) (ut other : Ptr) (state : UtState) :
    (s.setState ut state).stateOf other =
      if other = ut then (s.heap other).map fun _ => state else s.stateOf other :=
  stateOf_modify s ut other _

@[simp] theorem swapOut_stateOf (s : Sched) (ut : Ptr) (frame : Frame) :
    (s.swapOut ut frame).stateOf = s.stateOf := by
  funext other
  change (s.modify ut _).stateOf other = _
  rw [stateOf_modify]
  split
  · rfl
  · rfl

@[simp] theorem swapOut_links (s : Sched) (ut : Ptr) (frame : Frame) :
    (s.swapOut ut frame).links = s.links := by
  change (s.modify ut fun u => { u with ctx := ⟨u.ctx.trace, frame⟩ }).links = s.links
  exact links_modify (fun _ => rfl)

@[simp] theorem setState_links (s : Sched) (ut : Ptr) (state : UtState) :
    (s.setState ut state).links = s.links :=
  links_modify (fun _ => rfl)

@[simp] theorem setState_core (s : Sched) (ut : Ptr) (state : UtState) :
    (s.setState ut state).core = s.core.modify ut fun u => { u with state := state } :=
  core_modify (fun _ => rfl)

@[simp] theorem swapOut_core (s : Sched) (ut : Ptr) (frame : Frame) :
    (s.swapOut ut frame).core =
      s.core.modify ut fun u => { u with ctx := ⟨u.ctx.trace, frame⟩ } :=
  core_modify (fun _ => rfl)

@[simp] theorem dispatch_core (s : Sched) (next : Ptr) :
    (s.dispatch next).core = s.core.modify next fun u => { u with state := .running } :=
  setState_core s next .running

@[simp] theorem reply_core (s : Sched) (ut : Ptr) (action : Action) (reply : Reply) :
    (s.reply ut action reply).core =
      s.core.modify ut fun u => { u with ctx := u.ctx.finish action reply } :=
  core_modify (fun _ => rfl)

theorem running_eq {s : Sched} {ut : Ptr} {u : Uthread} (current : s.current = some ut)
    (found : s.heap ut = some u) : s.running = some (ut, u) := by
  simp [running, current, found]

theorem of_running {s : Sched} {ut : Ptr} {u : Uthread} (found : s.running = some (ut, u)) :
    s.current = some ut ∧ s.heap ut = some u := by
  simp only [running, Option.bind_eq_some_iff, Option.map_eq_some_iff, Prod.mk.injEq] at found
  obtain ⟨cur, current, v, present, rfl, rfl⟩ := found
  exact ⟨current, present⟩

theorem rrSchedulerFind_some {s : Sched} {id : UInt64} {ut : Ptr} {u : Uthread}
    (found : s.rrSchedulerFind id = some (ut, u)) :
    ut ∈ s.threads.items ∧ s.heap ut = some u ∧ u.id = id := by
  obtain ⟨other, member, hit⟩ := List.exists_of_findSome?_eq_some found
  simp only [Option.bind_eq_some_iff] at hit
  obtain ⟨v, present, same⟩ := hit
  split at same
  · rename_i matched
    cases same
    exact ⟨member, present, matched⟩
  · cases same

theorem rrSchedulerFind_none {s : Sched} {id : UInt64} (absent : s.rrSchedulerFind id = none)
    {ut : Ptr} {u : Uthread} (member : ut ∈ s.threads.items) (found : s.heap ut = some u) :
    u.id ≠ id := by
  have missed := List.findSome?_eq_none_iff.mp absent ut member
  simpa [found] using missed

theorem rrSchedulerYieldCurrent_eq {s : Sched} {cur : Ptr} (current : s.current = some cur)
    (on : s.schedRunning = true) :
    s.rrSchedulerYieldCurrent =
      ((s.setState cur .runnable).rrSchedulerEnqueue cur).swapOut cur .yielding := by
  simp [rrSchedulerYieldCurrent, current, on]

theorem rrSchedulerBlockCurrent_eq {s : Sched} {cur : Ptr} (current : s.current = some cur)
    (on : s.schedRunning = true) (frame : Frame) :
    s.rrSchedulerBlockCurrent frame = (s.setState cur .blocked).swapOut cur frame := by
  simp [rrSchedulerBlockCurrent, current, on]

/-- A record suspended at a `swapcontext` to the scheduler. -/
def suspend (state : UtState) (frame : Frame) (u : Uthread) : Uthread :=
  { u with state := state, ctx := ⟨u.ctx.trace, frame⟩ }

theorem rrSchedulerYieldCurrent_core {s : Sched} {cur : Ptr} (current : s.current = some cur)
    (on : s.schedRunning = true) :
    s.rrSchedulerYieldCurrent.core = s.core.modify cur (suspend .runnable .yielding) := by
  rw [rrSchedulerYieldCurrent_eq current on, swapOut_core, rrSchedulerEnqueue_core, setState_core,
    Heap.modify_modify]
  rfl

theorem rrSchedulerBlockCurrent_core {s : Sched} {cur : Ptr} (current : s.current = some cur)
    (on : s.schedRunning = true) (frame : Frame) :
    (s.rrSchedulerBlockCurrent frame).core = s.core.modify cur (suspend .blocked frame) := by
  rw [rrSchedulerBlockCurrent_eq current on, swapOut_core, setState_core, Heap.modify_modify]
  rfl

@[simp] theorem awaitedBy_core (s : Sched) (ut self : Ptr) :
    (s.modify ut (awaitedBy self)).core = s.core.modify ut (awaitedBy self) :=
  core_modify (fun _ => rfl)

theorem rrSchedulerExitCurrent_eq {s : Sched} {cur : Ptr} (current : s.current = some cur)
    (on : s.schedRunning = true) (retval : UInt64) :
    s.rrSchedulerExitCurrent retval =
      ((s.modify cur (markDone retval)).wakeJoiner ((s.heap cur).bind Uthread.joinWaiter)).swapOut
        cur (.exiting retval) := by
  simp [rrSchedulerExitCurrent, current, on]

theorem wakeJoiner_frame (s : Sched) (waiter : Option Ptr) : SameFrame s (s.wakeJoiner waiter) := by
  unfold wakeJoiner
  split
  · exact .refl s
  · split
    · exact .refl s
    · split
      · exact (modify_frame s _ _).trans (rrSchedulerEnqueue_frame _ _)
      · exact .refl s

theorem rrSchedulerWakeById_frame (s : Sched) (id : UInt64) (ioResult : Int32)
    (data : Option Bytes) (dataLen : Nat) :
    SameFrame s (s.rrSchedulerWakeById id ioResult data dataLen) := by
  unfold rrSchedulerWakeById
  split
  · exact .refl s
  · split
    · exact .refl s
    · exact (modify_frame s _ _).trans (rrSchedulerEnqueue_frame _ _)

/-- A blocked record made runnable; any other record is left alone. -/
def wakeRecord (change : Uthread → Uthread) (u : Uthread) : Uthread :=
  if u.state = .blocked then { change u with state := .runnable } else u

theorem modify_wakeRecord {s : Sched} {ut : Ptr} {u : Uthread} (change : Uthread → Uthread)
    (found : s.heap ut = some u) :
    s.core.modify ut (wakeRecord change) =
      if u.state = .blocked then s.core.modify ut (fun v => { change v with state := .runnable })
      else s.core := by
  have present := core_some found
  split
  · rename_i blocked
    funext other
    simp only [Heap.modify_apply]
    split
    · rename_i same
      subst same
      have waits : u.core.state = .blocked := blocked
      rw [present, Option.map_some, Option.map_some, wakeRecord, if_pos waits]
    · rfl
  · rename_i idle
    funext other
    simp only [Heap.modify_apply]
    split
    · rename_i same
      subst same
      have settled : ¬u.core.state = .blocked := idle
      rw [present, Option.map_some, wakeRecord, if_neg settled]
    · rfl

/-- Exit's wake-up on the records: it reaches a blocked joiner only. -/
theorem wakeJoiner_core (s : Sched) (waiter : Option Ptr) (ut : Ptr) :
    (s.wakeJoiner waiter).core ut =
      (s.core ut).map fun u => if waiter = some ut then wakeRecord id u else u := by
  unfold wakeJoiner
  cases waiter with
  | none => simp
  | some target =>
      simp only [Option.some.injEq]
      have whole : ((s.core ut).map fun u => if target = ut then wakeRecord id u else u) =
          s.core.modify target (wakeRecord id) ut := by
        rw [Heap.modify_apply]
        by_cases same : ut = target
        · simp [same]
        · simp [same, Ne.symm same]
      rw [whole]
      cases found : s.heap target with
      | none =>
          by_cases same : ut = target
          · simp [Heap.modify_apply, same, core, found]
          · simp [Heap.modify_apply, same]
      | some w =>
          rw [modify_wakeRecord id found]
          simp only
          split
          · rw [rrSchedulerEnqueue_core, setState_core]
            rfl
          · rfl

/-- The records after an exit: the caller is done, and its joiner, if it waits,
is runnable. -/
theorem rrSchedulerExitCurrent_core {s : Sched} {cur : Ptr} (current : s.current = some cur)
    (on : s.schedRunning = true) (retval : UInt64) (ut : Ptr) :
    (s.rrSchedulerExitCurrent retval).core ut =
      (s.core ut).map fun u =>
        if ut = cur then { markDone retval u with ctx := ⟨u.ctx.trace, .exiting retval⟩ }
        else if (s.core cur).bind Uthread.joinWaiter = some ut then wakeRecord id u else u := by
  have waiter : (s.heap cur).bind Uthread.joinWaiter = (s.core cur).bind Uthread.joinWaiter := by
    simp only [core]
    cases s.heap cur <;> rfl
  have marked : (s.modify cur (markDone retval)).core = s.core.modify cur (markDone retval) :=
    core_modify (fun _ => rfl)
  rw [rrSchedulerExitCurrent_eq current on, swapOut_core, Heap.modify_apply, wakeJoiner_core,
    marked, Heap.modify_apply, waiter]
  by_cases own : ut = cur
  · simp only [own, ↓reduceIte, Option.map_map]
    congr 1
    funext u
    simp only [Function.comp_apply]
    split <;> rfl
  · simp only [own, ↓reduceIte]

/-- What a completion stores in the record it wakes. -/
def completed (ioResult : Int32) (copied : Bytes) (u : Uthread) : Uthread :=
  { u with ioResult := ioResult, ioDataLen := copied.length, ioData := overwrite u.ioData copied }

theorem rrSchedulerWakeById_core (s : Sched) (id : UInt64) (ioResult : Int32)
    (data : Option Bytes) (dataLen : Nat) :
    (s.rrSchedulerWakeById id ioResult data dataLen).core =
      match s.rrSchedulerFind id with
      | none => s.core
      | some (ut, _) =>
        s.core.modify ut
          (wakeRecord (completed ioResult ((data.getD []).take (min dataLen 64)))) := by
  unfold rrSchedulerWakeById
  cases found : s.rrSchedulerFind id with
  | none => rfl
  | some hit =>
      obtain ⟨ut, u⟩ := hit
      obtain ⟨_, present, _⟩ := rrSchedulerFind_some found
      simp only [modify_wakeRecord _ present]
      by_cases blocked : u.state = .blocked
      · rw [if_neg (not_not.mpr blocked), if_pos blocked, rrSchedulerEnqueue_core]
        exact core_modify (fun _ => rfl)
      · rw [if_pos blocked, if_neg blocked]

/-- A join either answers at once and changes nothing, or registers the caller
with a live target that no other uthread waits for, and blocks it. -/
theorem rrUthreadJoin_cases (s : Sched) (id : UInt64) (out : Bool) :
    (∃ reply, s.rrUthreadJoin id out = (s, some reply)) ∨
    (∃ ut target self me, s.rrSchedulerFind id = some (ut, target) ∧
      s.running = some (self, me) ∧ target.id ≠ me.id ∧ target.state ≠ .done ∧
      (target.joinWaiter = none ∨ target.joinWaiter = some self) ∧
      s.rrUthreadJoin id out =
        ((s.modify ut (awaitedBy self)).rrSchedulerBlockCurrent (.joining id out ut), none)) := by
  unfold rrUthreadJoin
  cases found : s.rrSchedulerFind id with
  | none => exact Or.inl ⟨_, rfl⟩
  | some hit =>
      obtain ⟨ut, target⟩ := hit
      cases active : s.running with
      | none =>
          by_cases done : target.state = .done
          · exact Or.inl ⟨_, by simp only [done, ↓reduceIte]; rfl⟩
          · exact Or.inl ⟨_, by simp only [done, ↓reduceIte]; rfl⟩
      | some mine =>
          obtain ⟨self, me⟩ := mine
          by_cases own : target.id = me.id
          · exact Or.inl ⟨_, by simp only [own, ↓reduceIte]; rfl⟩
          by_cases done : target.state = .done
          · exact Or.inl ⟨_, by simp only [own, done, ↓reduceIte]; rfl⟩
          by_cases busy : target.joinWaiter ≠ none ∧ target.joinWaiter ≠ some self
          · exact Or.inl ⟨_, by simp only [own, done, if_pos busy, ↓reduceIte]; rfl⟩
          · refine Or.inr ⟨ut, target, self, me, rfl, rfl, own, done, ?_, ?_⟩
            · by_cases free : target.joinWaiter = none
              · exact Or.inl free
              · exact Or.inr (not_not.mp (fun other => busy ⟨free, other⟩))
            · simp only [own, done, if_neg busy, ↓reduceIte]

theorem rrUthreadJoin_waits {s : Sched} {id : UInt64} {ut self : Ptr} {target me : Uthread}
    (found : s.rrSchedulerFind id = some (ut, target)) (running : s.running = some (self, me))
    (apart : target.id ≠ me.id) (live : target.state ≠ .done)
    (free : target.joinWaiter = none ∨ target.joinWaiter = some self) (out : Bool) :
    s.rrUthreadJoin id out =
      ((s.modify ut (awaitedBy self)).rrSchedulerBlockCurrent (.joining id out ut), none) := by
  have idle : ¬ (target.joinWaiter ≠ none ∧ target.joinWaiter ≠ some self) := by
    rintro ⟨taken, other⟩
    exact free.elim taken other
  simp [rrUthreadJoin, found, running, apart, live, if_neg idle]

/-- Everything `rr_uthread_create` does before it extends the tables succeeds. -/
def ReachesTables (s : Sched) (fn : Option Fn) (answer : CreateAnswer) : Prop :=
  fn.isSome ∧ answer.calloc ∧ (s.brk + 1) * sizeofUthread ≤ 2 ^ 64 ∧ answer.mmap.isSome ∧
    answer.mprotect ∧ answer.fsBase ∧ answer.getcontext

/-- The guard page is registered and one of the two tables behind it refuses. -/
def Strands (s : Sched) (fn : Option Fn) (answer : CreateAnswer) : Prop :=
  s.ReachesTables fn answer ∧ ¬ s.guardPages.Refuses answer.reallocGuards ∧
    (s.threads.Refuses answer.reallocThreads ∨ s.allocated.Refuses answer.reallocAllocated)

instance (s : Sched) (fn : Option Fn) (answer : CreateAnswer) :
    Decidable (s.ReachesTables fn answer) :=
  inferInstanceAs (Decidable (_ ∧ _))

instance (s : Sched) (fn : Option Fn) (answer : CreateAnswer) : Decidable (s.Strands fn answer) :=
  inferInstanceAs (Decidable (_ ∧ _))

/-- How the three pushes end. -/
theorem registerAll_outcomes (s : Sched) (answer : CreateAnswer) (ut : Ptr) (page : GuardPage) :
    s.guardPages.Refuses answer.reallocGuards ∧ s.registerAll answer ut page = (s, false) ∨
    ¬ s.guardPages.Refuses answer.reallocGuards ∧
        (s.threads.Refuses answer.reallocThreads ∨ s.allocated.Refuses answer.reallocAllocated) ∧
        (∃ threads guardPages, s.registerAll answer ut page =
          ({ s with threads := threads, guardPages := guardPages }, false) ∧
        (threads.items = s.threads.items ∨ threads.items = s.threads.items ++ [ut]) ∧
        guardPages.items = s.guardPages.items ++ [page]) ∨
    ¬ (s.threads.Refuses answer.reallocThreads ∨ s.allocated.Refuses answer.reallocAllocated) ∧
      ∃ threads allocated guardPages, s.registerAll answer ut page =
          ({ s with threads := threads, allocated := allocated, guardPages := guardPages }, true) ∧
        threads.items = s.threads.items ++ [ut] ∧ allocated.items = s.allocated.items ++ [ut] ∧
        guardPages.items = s.guardPages.items ++ [page] := by
  unfold registerAll rrRegisterGuardPage rrSchedulerRegisterThread rememberThread
  rcases s.guardPages.push_cases answer.reallocGuards page with
    ⟨refused, none⟩ | ⟨accepted, pages, guarded, paged⟩
  · exact .inl ⟨refused, by rw [none, Option.map_none]⟩
  · refine .inr ?_
    rcases s.threads.push_cases answer.reallocThreads ut with
      ⟨refused, none⟩ | ⟨taken, threads, registered, listed⟩
    · exact .inl ⟨accepted, .inl refused, s.threads, pages, by simp [guarded, none], .inl rfl,
        paged⟩
    · rcases s.allocated.push_cases answer.reallocAllocated ut with
        ⟨refused, none⟩ | ⟨kept, allocated, remembered, owned⟩
      · exact .inl ⟨accepted, .inr refused, threads, pages,
          by simp [guarded, registered, none], .inr listed, paged⟩
      · exact .inr ⟨fun refused => refused.elim taken kept, threads, allocated, pages,
          by simp [guarded, registered, remembered], listed, owned, paged⟩

/-- What was mapped is unmapped again. -/
def Unmapped (memory : List MemoryCall) : Prop :=
  memory = [] ∨ ∃ mem size, memory = [.mmap mem size, .munmap mem size]

/-- How a creation ends: early, in the middle of the tables, or with a new uthread. -/
theorem rrUthreadCreate_outcomes (s : Sched) (stackSize : Nat) (fn : Option Fn)
    (answer : CreateAnswer) :
    ¬ s.Strands fn answer ∧
        (∃ nextId memory, s.rrUthreadCreate stackSize fn answer =
          ⟨-1, 0, { s with nextId := nextId }, memory⟩ ∧
        s.nextId ≤ nextId ∧ nextId ≤ s.nextId + 1 ∧ Unmapped memory) ∨
    s.Strands fn answer ∧
        (∃ threads guardPages page memory, s.rrUthreadCreate stackSize fn answer =
          ⟨-1, 0, { s with threads := threads, guardPages := guardPages, nextId := s.nextId + 1 },
            memory⟩ ∧
        (threads.items = s.threads.items ∨ threads.items = s.threads.items ++ [s.brk]) ∧
        guardPages.items = s.guardPages.items ++ [page] ∧ Unmapped memory) ∨
    ¬ s.Strands fn answer ∧
      ∃ start mem threads allocated guardPages, s.rrUthreadCreate stackSize fn answer =
          ⟨0, UInt64.ofNat s.nextId, rrSchedulerEnqueue { s with
            heap := s.heap.set s.brk
              (newUthread (UInt64.ofNat s.nextId) start mem answer.pagesz stackSize)
            brk := s.brk + 1
            threads := threads
            allocated := allocated
            guardPages := guardPages
            nextId := s.nextId + 1 } s.brk, [.mmap mem ((answer.pagesz + stackSize) % 2 ^ 64)]⟩ ∧
        fn = some start ∧ answer.mmap = some mem ∧
        threads.items = s.threads.items ++ [s.brk] ∧
        allocated.items = s.allocated.items ++ [s.brk] ∧
        guardPages.items =
          s.guardPages.items ++ [⟨mem, answer.pagesz, UInt64.ofNat s.nextId⟩] ∧
        (s.brk + 1) * sizeofUthread ≤ 2 ^ 64 := by
  have early : ∀ memory, Unmapped memory → ∃ nextId memory',
      (⟨-1, 0, s, memory⟩ : Creation) = ⟨-1, 0, { s with nextId := nextId }, memory'⟩ ∧
        s.nextId ≤ nextId ∧ nextId ≤ s.nextId + 1 ∧ Unmapped memory' :=
    fun memory undone => ⟨s.nextId, memory, rfl, by omega, by omega, undone⟩
  unfold rrUthreadCreate
  cases fn with
  | none => exact .inl ⟨fun strands => Bool.noConfusion strands.1.1, early [] (.inl rfl)⟩
  | some start =>
      by_cases room : (!answer.calloc || decide (2 ^ 64 < (s.brk + 1) * sizeofUthread)) = true
      · simp only [room, if_true]
        refine .inl ⟨?_, early [] (.inl rfl)⟩
        rintro ⟨⟨_, calloc, fits, _⟩, _⟩
        simp only [calloc, Bool.not_true, Bool.false_or, decide_eq_true_eq] at room
        exact absurd room (Nat.not_lt.mpr fits)
      simp only [if_neg room]
      cases mapped : answer.mmap with
      | none =>
          refine .inl ⟨?_, early [] (.inl rfl)⟩
          rintro ⟨⟨_, _, _, mmap, _⟩, _⟩
          rw [mapped] at mmap
          cases mmap
      | some mem =>
          have back : Unmapped [.mmap mem ((answer.pagesz + stackSize) % 2 ^ 64),
              .munmap mem ((answer.pagesz + stackSize) % 2 ^ 64)] := .inr ⟨_, _, rfl⟩
          cases writable : answer.mprotect with
          | false =>
              refine .inl ⟨?_, early _ back⟩
              rintro ⟨⟨_, _, _, _, mprotect, _⟩, _⟩
              rw [writable] at mprotect
              cases mprotect
          | true =>
              by_cases ready : (!answer.fsBase || !answer.getcontext) = true
              · refine .inl ⟨?_, s.nextId + 1, _, by simp [ready], by omega, by omega, back⟩
                rintro ⟨⟨_, _, _, _, _, fsBase, getcontext⟩, _⟩
                simp [fsBase, getcontext] at ready
              simp only [Bool.or_eq_true, Bool.not_eq_true', decide_eq_true_eq, not_or,
                Bool.not_eq_false, Nat.not_lt] at room
              have reaches : s.ReachesTables (some start) answer := by
                simp only [Bool.or_eq_true, Bool.not_eq_true', not_or, Bool.not_eq_false] at ready
                exact ⟨rfl, room.1, room.2, by rw [mapped]; rfl, writable, ready.1, ready.2⟩
              simp only [Bool.not_true, Bool.false_eq_true, if_false, if_neg ready]
              rcases registerAll_outcomes { s with nextId := s.nextId + 1 } answer s.brk
                ⟨mem, answer.pagesz, UInt64.ofNat s.nextId⟩ with
                ⟨refused, outcome⟩ | ⟨accepted, refused, threads, pages, outcome, listed, paged⟩ |
                ⟨taken, threads, allocated, pages, outcome, listed, owned, paged⟩
              · rw [outcome]
                exact .inl ⟨fun strands => strands.2.1 refused, s.nextId + 1, _, rfl, by omega,
                  by omega, back⟩
              · rw [outcome]
                exact .inr (.inl ⟨⟨reaches, accepted, refused⟩, threads, pages, _, _, rfl, listed,
                  paged, back⟩)
              · rw [outcome]
                exact .inr (.inr ⟨fun strands => taken strands.2.2, start, mem, threads, allocated,
                  pages, rfl, rfl, rfl, listed, owned, paged, room.2⟩)

/-- A creation either fails, touching only the tables and the id counter, or adds
one runnable record at the fresh address and queues it. -/
theorem uthreadCreate_cases (s : Sched) (stackSize : Nat) (fn : Option Fn)
    (answer : CreateAnswer) :
    (∃ threads guardPages nextId, s.uthreadCreate stackSize fn answer =
        ({ s with threads := threads, guardPages := guardPages, nextId := nextId }, 0) ∧
      (threads.items = s.threads.items ∨ threads.items = s.threads.items ++ [s.brk]) ∧
      s.nextId ≤ nextId ∧ nextId ≤ s.nextId + 1) ∨
    (∃ start mem threads allocated guardPages, s.uthreadCreate stackSize fn answer =
        (rrSchedulerEnqueue { s with
            heap := s.heap.set s.brk
              (newUthread (UInt64.ofNat s.nextId) start mem answer.pagesz stackSize)
            brk := s.brk + 1
            threads := threads
            allocated := allocated
            guardPages := guardPages
            nextId := s.nextId + 1 } s.brk, UInt64.ofNat s.nextId) ∧
      fn = some start ∧ threads.items = s.threads.items ++ [s.brk] ∧
      (s.brk + 1) * sizeofUthread ≤ 2 ^ 64) := by
  unfold uthreadCreate
  rcases s.rrUthreadCreate_outcomes stackSize fn answer with
    ⟨_, nextId, memory, outcome, lower, upper, _⟩ |
    ⟨_, threads, pages, page, memory, outcome, listed, _⟩ |
    ⟨_, start, mem, threads, allocated, pages, outcome, named, _, listed, _, _, room⟩
  · rw [outcome]
    exact .inl ⟨s.threads, s.guardPages, nextId, rfl, .inl rfl, lower, upper⟩
  · rw [outcome]
    exact .inl ⟨threads, pages, s.nextId + 1, rfl, listed, by omega, by omega⟩
  · rw [outcome]
    exact .inr ⟨start, mem, threads, allocated, pages, rfl, named, listed, room⟩

end Sched

end Librr
