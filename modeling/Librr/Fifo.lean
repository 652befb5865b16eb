import Librr.Base.Fifo
import Librr.Creation

set_option autoImplicit false

namespace Librr

open IntrusiveQueue Transition

namespace Sched

/-- The uthreads that a step makes runnable. -/
def becameRunnable (s : Sched) (_ : SchedOp) (t : Sched) : List Ptr :=
  (List.range t.brk).filter fun ut =>
    t.stateOf ut = some .runnable ∧ s.stateOf ut ≠ some .runnable

/-- The uthread to which `scheduler_loop` switches. -/
def dispatched (_ : Sched) : SchedOp → Sched → List Ptr
  | .next, t => if t.control = .user then t.current.toList else []
  | _, _ => []

theorem QueueInvariant.queuedLive {s : Sched} (inv : s.QueueInvariant) {items : List Ptr}
    (shape : Represents s.links items) : ∀ item ∈ items, s.heap item ≠ none := by
  intro item member
  obtain ⟨u, found, _⟩ := heap_of_stateOf ((inv.runq.runnable shape item).mp member)
  rw [found]
  simp

/-- A record is changed and queued. -/
theorem represents_wake {s : Sched} {items : List Ptr} (shape : Represents s.links items)
    (live : ∀ item ∈ items, s.heap item ≠ none) {ut : Ptr} (absent : ut ∉ items)
    {change : Uthread → Uthread} (kept : ∀ u, (change u).next = u.next) :
    Represents ((s.modify ut change).rrSchedulerEnqueue ut).links (items ++ [ut]) := by
  refine represents_enqueue ?_ absent ?_
  · rw [links_modify kept]
    exact shape
  · intro item member
    rw [modify_heap, Ne, Heap.modify_eq_none]
    exact live item member

/-- The queue is `items` with at most one uthread behind. -/
def Extends (items : List Ptr) (s : Sched) : Prop :=
  ∃ new, Represents s.links (items ++ new) ∧ new.length ≤ 1

theorem Extends.refl {s : Sched} {items : List Ptr} (shape : Represents s.links items) :
    Extends items s :=
  ⟨[], by rw [List.append_nil]; exact shape, by simp⟩

theorem Extends.one {s : Sched} {items : List Ptr} {ut : Ptr}
    (shape : Represents s.links (items ++ [ut])) : Extends items s :=
  ⟨[ut], shape, by simp⟩

theorem Extends.congr {s t : Sched} {items : List Ptr} (extended : Extends items s)
    (links : t.links = s.links) : Extends items t := by
  obtain ⟨new, shape, short⟩ := extended
  exact ⟨new, links ▸ shape, short⟩

theorem extends_wakeJoiner {s : Sched} {items : List Ptr} (shape : Represents s.links items)
    (live : ∀ item ∈ items, s.heap item ≠ none)
    (awake : ∀ ut, s.stateOf ut = some .blocked → ut ∉ items) (joinWaiter : Option Ptr) :
    Extends items (s.wakeJoiner joinWaiter) := by
  unfold wakeJoiner
  split
  · exact .refl shape
  · rename_i waiter
    split
    · exact .refl shape
    · rename_i w present
      split
      · rename_i blocked
        have absent := awake waiter (by rw [stateOf, present, Option.map_some, blocked])
        exact .one (represents_wake shape live absent fun _ => rfl)
      · exact .refl shape

section Ops

variable {s : Sched} {items : List Ptr} (inv : s.QueueInvariant) (shape : Represents s.links items)

include inv shape

theorem extends_create (stackSize : Nat) (fn : Option Fn) (answer : CreateAnswer) :
    Extends items (s.uthreadCreate stackSize fn answer).1 := by
  rcases s.uthreadCreate_cases stackSize fn answer with
    ⟨threads, pages, nextId, outcome, _⟩ | ⟨start, mem, threads, allocated, pages, outcome, _⟩
  · rw [outcome]
    exact .refl shape
  · rw [outcome]
    set placed : Sched := { s with
      heap := s.heap.set s.brk
        (newUthread (UInt64.ofNat s.nextId) start mem answer.pagesz stackSize)
      brk := s.brk + 1
      threads := threads
      allocated := allocated
      guardPages := pages
      nextId := s.nextId + 1 }
    have heap : placed.heap = s.heap.set s.brk _ := rfl
    exact .one (inv.queued heap rfl rfl rfl shape)

theorem extends_yield (user : s.control = .user) : Extends items s.rrSchedulerYieldCurrent := by
  obtain ⟨cur, u, current, found, runs, _, _⟩ := inv.runningCore user
  have absent : cur ∉ items := by
    intro member
    have runnable := (inv.runq.runnable shape cur).mp member
    rw [stateOf_core, found, Option.map_some, runs] at runnable
    cases runnable
  have queued : Represents ((s.setState cur .runnable).rrSchedulerEnqueue cur).links
      (items ++ [cur]) := represents_wake shape (inv.queuedLive shape) absent fun _ => rfl
  rw [rrSchedulerYieldCurrent_eq current inv.on]
  exact (Extends.one queued).congr (swapOut_links _ _ _)

theorem extends_block (user : s.control = .user) (frame : Frame) :
    Extends items (s.rrSchedulerBlockCurrent frame) := by
  obtain ⟨cur, _, current, _⟩ := inv.runningCore user
  rw [rrSchedulerBlockCurrent_eq current inv.on]
  exact (Extends.refl shape).congr (by rw [swapOut_links, setState_links])

theorem extends_join (user : s.control = .user) (id : UInt64) (out : Bool) :
    Extends items (s.rrUthreadJoin id out).1 := by
  obtain ⟨cur, _, current, _⟩ := inv.runningCore user
  rcases s.rrUthreadJoin_cases id out with
    ⟨reply, outcome⟩ | ⟨ut, target, self, me, _, _, _, _, _, outcome⟩
  · rw [outcome]
    exact .refl shape
  · have kept : (s.modify ut (awaitedBy self)).current = some cur := current
    have links : (s.modify ut (awaitedBy self)).links = s.links := links_modify fun _ => rfl
    rw [outcome]
    simp only
    rw [rrSchedulerBlockCurrent_eq kept inv.on]
    exact (Extends.refl shape).congr (by rw [swapOut_links, setState_links, links])

theorem extends_exit (user : s.control = .user) (value : UInt64) :
    Extends items (s.rrSchedulerExitCurrent value) := by
  obtain ⟨cur, u, current, found, runs, _, _⟩ := inv.runningCore user
  have ended : Represents (s.modify cur (markDone value)).links items := by
    have kept : (s.modify cur (markDone value)).links = s.links := links_modify fun _ => rfl
    rw [kept]
    exact shape
  have live : ∀ item ∈ items, (s.modify cur (markDone value)).heap item ≠ none := by
    intro item member
    rw [modify_heap, Ne, Heap.modify_eq_none]
    exact inv.queuedLive shape item member
  have awake : ∀ ut, (s.modify cur (markDone value)).stateOf ut = some .blocked → ut ∉ items := by
    intro ut blocked member
    have runnable := (inv.runq.runnable shape ut).mp member
    rw [stateOf_modify] at blocked
    split at blocked
    · obtain ⟨v, _, done⟩ := Option.map_eq_some_iff.mp blocked
      cases done
    · rw [blocked] at runnable
      cases runnable
  rw [rrSchedulerExitCurrent_eq current inv.on]
  exact (extends_wakeJoiner ended live awake _).congr (swapOut_links _ _ _)

theorem extends_wake (id : UInt64) (ioResult : Int32) (data : Option Bytes) (dataLen : Nat) :
    Extends items (s.rrSchedulerWakeById id ioResult data dataLen) := by
  unfold rrSchedulerWakeById
  split
  · exact .refl shape
  · rename_i ut u found
    split
    · exact .refl shape
    · rename_i blocked
      have absent : ut ∉ items := by
        intro member
        have runnable := (inv.runq.runnable shape ut).mp member
        rw [stateOf, (rrSchedulerFind_some found).2.1, Option.map_some,
          not_not.mp blocked] at runnable
        cases runnable
      exact .one (represents_wake shape (inv.queuedLive shape) absent fun _ => rfl)

/-- An iteration of `scheduler_loop` that finds a uthread takes the first one. -/
theorem next_takes_first {t : Sched} (taken : s.schedulerNext = some t) :
    ∃ ut rest, items = ut :: rest ∧ Represents t.links rest ∧ t.control = .user ∧
      t.current = some ut := by
  cases items with
  | nil =>
      have empty : s.runqHead = none := shape.empty_iff.mpr rfl
      simp [schedulerNext, runqPopFront, empty] at taken
  | cons ut rest =>
      have head : s.runqHead = some ut := shape.chain.1
      obtain ⟨_, _, _, dispatch⟩ := inv.next_eq head
      rw [dispatch] at taken
      cases taken
      refine ⟨ut, rest, rfl, ?_, rfl, rfl⟩
      have links : (s.runqPopFront.2.dispatch ut).links = s.runqPopFront.2.links :=
        setState_links s.runqPopFront.2 ut .running
      rw [links, (runqPopFront_links head).2]
      exact shape.popFront

end Ops

/-- What one operation does to the run queue: a uthread is appended at most, or the first
one is dispatched. -/
theorem schedStep_queue {s t : Sched} {op : SchedOp} {items : List Ptr} (inv : s.QueueInvariant)
    (shape : Represents s.links items) (taken : s.schedStep op = some t) :
    Extends items t ∧ s.dispatched op t = [] ∨
      ∃ ut rest, items = ut :: rest ∧ Represents t.links rest ∧ s.dispatched op t = [ut] := by
  cases schedStep_moves taken with
  | create stackSize fn answer user =>
      exact .inl ⟨extends_create inv shape stackSize fn answer, rfl⟩
  | yield user => exact .inl ⟨extends_yield inv shape user, rfl⟩
  | block call serial user => exact .inl ⟨extends_block inv shape user _, rfl⟩
  | join id out user => exact .inl ⟨extends_join inv shape user id out, rfl⟩
  | exit value user => exact .inl ⟨extends_exit inv shape user value, rfl⟩
  | proceed action reply cur user current =>
      exact .inl ⟨(Extends.refl shape).congr (links_modify fun _ => rfl), rfl⟩
  | next _ idle found =>
      obtain ⟨ut, rest, first, left, user, current⟩ := next_takes_first inv shape found
      refine .inr ⟨ut, rest, first, left, ?_⟩
      simp only [dispatched, if_pos user, current, Option.toList_some]
  | wake id ioResult idle empty => exact .inl ⟨extends_wake inv shape id ioResult none 0, rfl⟩
  | stop aborted => exact .inl ⟨.refl shape, rfl⟩

theorem becameRunnable_mem {s t : Sched} (invT : t.QueueInvariant) (op : SchedOp) (ut : Ptr) :
    ut ∈ s.becameRunnable op t ↔
      t.stateOf ut = some .runnable ∧ s.stateOf ut ≠ some .runnable := by
  simp only [becameRunnable, List.mem_filter, List.mem_range, decide_eq_true_eq,
    and_iff_right_iff_imp]
  intro runnable
  by_contra above
  have vacant := invT.unallocated ut (Nat.not_lt.mp above)
  rw [stateOf_core, vacant] at runnable
  cases runnable.1

/-- The uthreads made runnable are those the queue has more. -/
theorem becameRunnable_eq {s t : Sched} {items new : List Ptr} (invS : s.QueueInvariant)
    (invT : t.QueueInvariant) (shape : Represents s.links items) (op : SchedOp)
    (shape' : Represents t.links (items ++ new)) (short : new.length ≤ 1) :
    s.becameRunnable op t = new := by
  have members : ∀ ut, ut ∈ s.becameRunnable op t ↔ ut ∈ new := by
    intro ut
    rw [becameRunnable_mem invT, ← invT.runq.runnable shape', Ne, ← invS.runq.runnable shape,
      List.mem_append]
    have apart : ut ∈ new → ut ∉ items := fun fresh old =>
      (List.nodup_append.mp shape'.nodup).2.2 ut old ut fresh rfl
    tauto
  have once : (s.becameRunnable op t).Nodup := List.nodup_range.filter _
  rcases new with _ | ⟨ut, more⟩
  · refine List.eq_nil_iff_forall_not_mem.mpr fun ut member => ?_
    exact List.not_mem_nil ((members ut).mp member)
  · obtain rfl : more = [] := by
      rw [List.length_cons] at short
      exact List.eq_nil_of_length_eq_zero (by omega)
    apply List.perm_singleton.mp
    exact (List.perm_ext_iff_of_nodup once (List.nodup_singleton ut)).mpr members

/-- One operation: what is queued and what becomes runnable is what is dispatched and what
is queued afterwards. -/
theorem schedStep_fifo (s : Sched) (op : SchedOp) (t : Sched) (items : List Ptr)
    (taken : s.schedStep op = some t) (held : s.QueueInvariant ∧ Represents s.links items) :
    ∃ rest, (t.QueueInvariant ∧ Represents t.links rest) ∧
      items ++ s.becameRunnable op t = s.dispatched op t ++ rest := by
  obtain ⟨inv, shape⟩ := held
  have inv' := schedStep_queueInvariant s op t taken inv
  rcases schedStep_queue inv shape taken with ⟨⟨new, shape', short⟩, none⟩ |
    ⟨ut, rest, rfl, shape', one⟩
  · refine ⟨items ++ new, ⟨inv', shape'⟩, ?_⟩
    rw [none, becameRunnable_eq inv inv' shape op shape' short, List.nil_append]
  · refine ⟨rest, ⟨inv', shape'⟩, ?_⟩
    have nobody : s.becameRunnable op t = [] := by
      refine List.eq_nil_iff_forall_not_mem.mpr fun other member => ?_
      obtain ⟨after, before⟩ := (becameRunnable_mem inv' op other).mp member
      rw [← inv'.runq.runnable shape'] at after
      rw [Ne, ← inv.runq.runnable shape] at before
      exact before (List.mem_cons_of_mem ut after)
    rw [nobody, one, List.append_nil, List.singleton_append]

/-- Over every run the uthreads are dispatched in the order in which they became runnable,
and those not dispatched yet are the run queue; and from every state on, those queued
there are dispatched first, in their order. -/
theorem dispatch_is_fifo {ops : List SchedOp} {s : Sched}
    (reached : exec schedStep afterInit ops = some s) :
    ∃ queued, Represents s.links queued ∧
      yields schedStep becameRunnable afterInit ops =
        yields schedStep dispatched afterInit ops ++ queued ∧
      ∀ more later, exec schedStep s more = some later →
        ∃ rest, Represents later.links rest ∧
          queued ++ yields schedStep becameRunnable s more =
            yields schedStep dispatched s more ++ rest := by
  have empty : Represents afterInit.links [] := ⟨rfl, rfl, List.nodup_nil, fun p _ => by
    simp only [links, afterInit, Heap.set_apply]
    split <;> rfl⟩
  obtain ⟨queued, ⟨inv, shape⟩, order⟩ :=
    yields_fifo schedStep_fifo ⟨afterInit_queueInvariant, empty⟩ reached
  refine ⟨queued, shape, order, ?_⟩
  intro more later continued
  obtain ⟨rest, ⟨_, shape'⟩, order'⟩ := yields_fifo schedStep_fifo ⟨inv, shape⟩ continued
  exact ⟨rest, shape', order'⟩

theorem dispatch_is_fifo_after_join :
    ∃ s queued, exec schedStep afterInit joinAfterCreates = some s ∧ Represents s.links queued ∧
      yields schedStep becameRunnable afterInit joinAfterCreates =
        yields schedStep dispatched afterInit joinAfterCreates ++ queued := by
  have returns : (exec schedStep afterInit joinAfterCreates).isSome := by decide +kernel
  obtain ⟨s, reached⟩ := Option.isSome_iff_exists.mp returns
  obtain ⟨queued, shape, order, _⟩ := dispatch_is_fifo reached
  exact ⟨s, queued, reached, shape, order⟩

end Sched

end Librr
