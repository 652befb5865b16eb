import Librr.RuntimeFacts

set_option autoImplicit false

namespace Librr

/-- What a record is given at its creation and keeps. -/
structure Birth where
  id : UInt64
  startFn : Option Fn
  stack : Nat
  stackMap : Nat
  deriving DecidableEq, Repr

def Uthread.birth (u : Uthread) : Birth := ⟨u.id, u.startFn, u.stack, u.stackMap⟩

/-- The guard page below the stack, as it is registered. -/
def Birth.guardPage (birth : Birth) : GuardPage :=
  ⟨birth.stackMap, birth.stack - birth.stackMap, birth.id⟩

namespace Sched

def birthAt (s : Sched) (ut : Ptr) : Option Birth := (s.heap ut).map Uthread.birth

/-- Nothing is created: the records keep what they were given, and the tables stand. -/
structure SameBirths (before after : Sched) : Prop where
  births : ∀ ut, after.birthAt ut = before.birthAt ut
  brk : after.brk = before.brk
  threads : after.threads = before.threads
  allocated : after.allocated = before.allocated
  guardPages : after.guardPages = before.guardPages
  nextId : after.nextId = before.nextId

theorem SameBirths.refl (s : Sched) : SameBirths s s := ⟨fun _ => rfl, rfl, rfl, rfl, rfl, rfl⟩

theorem SameBirths.trans {first second third : Sched} (one : SameBirths first second)
    (two : SameBirths second third) : SameBirths first third :=
  ⟨fun ut => (two.births ut).trans (one.births ut), two.brk.trans one.brk,
    two.threads.trans one.threads, two.allocated.trans one.allocated,
    two.guardPages.trans one.guardPages, two.nextId.trans one.nextId⟩

theorem birthAt_core (s : Sched) (ut : Ptr) : s.birthAt ut = (s.core ut).map Uthread.birth := by
  simp only [birthAt, core, Option.map_map]
  rfl

theorem SameFrame.births {s t : Sched} (frame : SameFrame s t) (core : t.core = s.core) :
    SameBirths s t :=
  ⟨fun ut => by rw [birthAt_core, birthAt_core, core], frame.brk, frame.threads, frame.allocated,
    frame.guardPages, frame.nextId⟩

theorem modify_births (s : Sched) (ut : Ptr) {change : Uthread → Uthread}
    (kept : ∀ u, (change u).birth = u.birth) : SameBirths s (s.modify ut change) := by
  refine ⟨?_, rfl, rfl, rfl, rfl, rfl⟩
  intro other
  rw [birthAt, birthAt, modify_heap, Heap.modify_apply]
  split
  · rw [Option.map_map]
    congr 1
    funext u
    exact kept u
  · rfl

theorem enqueue_births (s : Sched) (ut : Ptr) : SameBirths s (s.rrSchedulerEnqueue ut) :=
  (rrSchedulerEnqueue_frame s ut).births (rrSchedulerEnqueue_core s ut)

theorem popFront_births (s : Sched) : SameBirths s s.runqPopFront.2 :=
  (runqPopFront_frame s).births (runqPopFront_core s)

theorem swapOut_births (s : Sched) (ut : Ptr) (frame : Frame) :
    SameBirths s (s.swapOut ut frame) := by
  have inner : SameBirths s (s.modify ut fun u => { u with ctx := ⟨u.ctx.trace, frame⟩ }) :=
    modify_births s ut fun _ => rfl
  exact ⟨inner.births, rfl, rfl, rfl, rfl, rfl⟩

theorem reply_births (s : Sched) (ut : Ptr) (action : Action) (reply : Reply) :
    SameBirths s (s.reply ut action reply) :=
  modify_births s ut fun _ => rfl

theorem setState_births (s : Sched) (ut : Ptr) (state : UtState) :
    SameBirths s (s.setState ut state) :=
  modify_births s ut fun _ => rfl

theorem dispatch_births (s : Sched) (next : Ptr) : SameBirths s (s.dispatch next) := by
  have inner := setState_births s next .running
  exact ⟨inner.births, rfl, rfl, rfl, rfl, rfl⟩

theorem yield_births (s : Sched) : SameBirths s s.rrSchedulerYieldCurrent := by
  unfold rrSchedulerYieldCurrent
  split
  · exact .refl s
  · split
    · exact .refl s
    · exact ((setState_births s _ _).trans (enqueue_births _ _)).trans (swapOut_births _ _ _)

theorem block_births (s : Sched) (frame : Frame) :
    SameBirths s (s.rrSchedulerBlockCurrent frame) := by
  unfold rrSchedulerBlockCurrent
  split
  · exact .refl s
  · split
    · exact .refl s
    · exact (setState_births s _ _).trans (swapOut_births _ _ _)

theorem wakeJoiner_births (s : Sched) (waiter : Option Ptr) :
    SameBirths s (s.wakeJoiner waiter) := by
  unfold wakeJoiner
  split
  · exact .refl s
  · split
    · exact .refl s
    · split
      · exact (setState_births s _ _).trans (enqueue_births _ _)
      · exact .refl s

theorem exit_births (s : Sched) (value : UInt64) :
    SameBirths s (s.rrSchedulerExitCurrent value) := by
  unfold rrSchedulerExitCurrent
  split
  · exact .refl s
  · rename_i cur _
    have ended : SameBirths s (s.modify cur (markDone value)) := modify_births s cur fun _ => rfl
    split
    · exact .refl s
    · exact (ended.trans (wakeJoiner_births _ _)).trans (swapOut_births _ _ _)

theorem wake_births (s : Sched) (id : UInt64) (ioResult : Int32) (data : Option Bytes)
    (dataLen : Nat) : SameBirths s (s.rrSchedulerWakeById id ioResult data dataLen) := by
  unfold rrSchedulerWakeById
  split
  · exact .refl s
  · split
    · exact .refl s
    · apply SameBirths.trans _ (enqueue_births _ _)
      exact modify_births s _ fun _ => rfl

theorem join_births (s : Sched) (id : UInt64) (out : Bool) :
    SameBirths s (s.rrUthreadJoin id out).1 := by
  rcases s.rrUthreadJoin_cases id out with
    ⟨reply, outcome⟩ | ⟨ut, target, self, me, _, _, _, _, _, outcome⟩
  · rw [outcome]
    exact .refl s
  · rw [outcome]
    have waited : SameBirths s (s.modify ut (awaitedBy self)) := modify_births s ut fun _ => rfl
    exact waited.trans (block_births _ _)

theorem next_births {s t : Sched} (found : s.schedulerNext = some t) : SameBirths s t := by
  have popped := popFront_births s
  unfold schedulerNext at found
  split at found
  · cases found
  · rename_i ut rest pop
    rw [pop] at popped
    split at found
    · cases found
    · split at found
      · cases found
        exact popped
      · cases found
        exact popped.trans (dispatch_births rest ut)

theorem Local.births {stackSize : Nat} {s t : Sched} {ut : Ptr} {u : Uthread}
    {answer : CreateAnswer} {action : Action} (performed : s.Local stackSize ut u answer action t)
    (apart : ∀ fn, action ≠ .create fn) : SameBirths s t := by
  cases performed with
  | create fn => exact absurd rfl (apart fn)
  | yield => exact yield_births s
  | joinNow id out reply answered => exact reply_births s _ _ _
  | joinWait id out target record found other live free =>
      have waited : SameBirths s (s.modify target (awaitedBy ut)) :=
        modify_births s target fun _ => rfl
      exact waited.trans (block_births _ _)
  | exit value => exact exit_births s value
  | ret fn started => exact exit_births s 0
  | stop main => exact ⟨fun _ => rfl, rfl, rfl, rfl, rfl, rfl⟩

/-- Every operation of the scheduler is a creation or keeps all births. -/
theorem schedStep_births {s t : Sched} {op : SchedOp} (taken : s.schedStep op = some t) :
    (∃ stackSize fn answer, op = .create stackSize fn answer ∧
      t = (s.uthreadCreate stackSize fn answer).1) ∨ SameBirths s t := by
  cases schedStep_moves taken with
  | create stackSize fn answer user => exact .inl ⟨stackSize, fn, answer, rfl, rfl⟩
  | yield user => exact .inr (yield_births s)
  | block call serial user => exact .inr (block_births s _)
  | join id out user => exact .inr (join_births s id out)
  | exit value user => exact .inr (exit_births s value)
  | proceed action reply cur user current => exact .inr (reply_births s cur action reply)
  | next _ idle found => exact .inr (next_births found)
  | wake id ioResult idle empty => exact .inr (wake_births s id ioResult none 0)
  | stop aborted => exact .inr ⟨fun _ => rfl, rfl, rfl, rfl, rfl, rfl⟩

end Sched

end Librr
