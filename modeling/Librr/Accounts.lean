import Librr.Base.Ledger
import Librr.Creation
import Librr.Overlap
import Librr.Shutdown
import Librr.StartupFacts
import Librr.TaskRuns

set_option autoImplicit false

/-! The account of what the runtime holds stays in order as long as it runs. -/
namespace Librr

open Ledger Transition

namespace Sched

/-- The records keep their mappings. -/
def KeepsMaps (s t : Sched) : Prop :=
  ∀ ut u, s.core ut = some u → ∃ v, t.core ut = some v ∧ v.map = u.map

theorem KeepsMaps.trans {first second third : Sched} (one : first.KeepsMaps second)
    (two : second.KeepsMaps third) : first.KeepsMaps third := by
  intro ut u found
  obtain ⟨v, there, same⟩ := one ut u found
  obtain ⟨w, last, same'⟩ := two ut v there
  exact ⟨w, last, same'.trans same⟩

theorem keepsMaps_of_core {s t : Sched} (core : t.core = s.core) : s.KeepsMaps t :=
  fun _ u found => ⟨u, core ▸ found, rfl⟩

theorem keepsMaps_of_map {s t : Sched} {change : Ptr → Uthread → Uthread}
    (core : ∀ ut, t.core ut = (s.core ut).map (change ut))
    (kept : ∀ ut u, (change ut u).map = u.map) : s.KeepsMaps t := by
  intro ut u found
  exact ⟨change ut u, by rw [core, found]; rfl, kept ut u⟩

theorem keepsMaps_of_modify {s t : Sched} {cur : Ptr} {change : Uthread → Uthread}
    (core : t.core = s.core.modify cur change) (kept : ∀ u, (change u).map = u.map) :
    s.KeepsMaps t := by
  have records : ∀ ut, t.core ut = (s.core ut).map fun v => if ut = cur then change v else v :=
    fun ut => by rw [core, Heap.modify_eq_map]
  apply keepsMaps_of_map records
  intro ut u
  split
  · exact kept u
  · rfl

theorem wakeRecord_map (change : Uthread → Uthread) (kept : ∀ u, (change u).map = u.map)
    (u : Uthread) : (wakeRecord change u).map = u.map := by
  unfold wakeRecord
  split
  · exact kept u
  · rfl

theorem schedStep_keepsMaps {s t : Sched} {op : SchedOp} (queue : s.QueueInvariant)
    (taken : s.schedStep op = some t) : s.KeepsMaps t := by
  cases schedStep_moves taken with
  | create stackSize fn answer user =>
      exact fun ut u found => ⟨u, queue.create_core found stackSize fn answer, rfl⟩
  | yield user =>
      obtain ⟨cur, current, _⟩ := queue.user user
      exact keepsMaps_of_modify (rrSchedulerYieldCurrent_core current queue.on) fun _ => rfl
  | block call serial user =>
      obtain ⟨cur, current, _⟩ := queue.user user
      exact keepsMaps_of_modify (rrSchedulerBlockCurrent_core current queue.on _) fun _ => rfl
  | join id out user =>
      rcases s.rrUthreadJoin_cases id out with
        ⟨reply, outcome⟩ | ⟨ut, target, self, me, _, running, _, _, _, outcome⟩
      · rw [outcome]
        exact keepsMaps_of_core rfl
      · rw [outcome]
        have current : (s.modify ut (awaitedBy self)).current = some self := (of_running running).1
        have waited : s.KeepsMaps (s.modify ut (awaitedBy self)) :=
          keepsMaps_of_modify (awaitedBy_core s ut self) fun _ => rfl
        apply waited.trans
        exact keepsMaps_of_modify (rrSchedulerBlockCurrent_core current queue.on _) fun _ => rfl
  | exit value user =>
      obtain ⟨cur, current, _⟩ := queue.user user
      apply keepsMaps_of_map (rrSchedulerExitCurrent_core current queue.on value)
      intro ut u
      dsimp only
      split
      · rfl
      · split
        · exact wakeRecord_map id (fun _ => rfl) u
        · rfl
  | proceed action reply cur user current =>
      exact keepsMaps_of_modify (reply_core s cur action reply) fun _ => rfl
  | next _ idle found =>
      cases head : s.runqHead with
      | none => simp [schedulerNext, runqPopFront, head] at found
      | some ut =>
          obtain ⟨u, _, _, same⟩ := queue.next_eq head
          rw [same] at found
          cases found
          have popped : s.KeepsMaps s.runqPopFront.2 := keepsMaps_of_core (runqPopFront_core s)
          exact popped.trans (keepsMaps_of_modify (dispatch_core _ ut) fun _ => rfl)
  | wake id ioResult idle empty =>
      have records := rrSchedulerWakeById_core s id ioResult none 0
      split at records
      · exact keepsMaps_of_core records
      · exact keepsMaps_of_modify records (wakeRecord_map _ fun _ => rfl)
  | stop aborted => exact keepsMaps_of_core rfl

theorem exec_keepsMaps {s t : Sched} {ops : List SchedOp} (queue : s.QueueInvariant)
    (ran : exec schedStep s ops = some t) : s.KeepsMaps t := by
  have kept : ∀ (before : Sched) (op : SchedOp) (after : Sched),
      before.schedStep op = some after → before.QueueInvariant ∧ s.KeepsMaps before →
      after.QueueInvariant ∧ s.KeepsMaps after :=
    fun before op after taken ⟨inv, maps⟩ =>
      ⟨schedStep_queueInvariant _ _ _ taken inv, maps.trans (schedStep_keepsMaps inv taken)⟩
  exact (exec_invariant kept ⟨queue, keepsMaps_of_core rfl⟩ ran).2

end Sched

namespace State

variable {program : Program} {s t : State} {input : Input}

/-- Nothing is created, and the configuration stays. -/
structure Unborn (s t : State) : Prop where
  config : t.config = s.config
  births : s.sched.SameBirths t.sched

/-- A wrapped call creates no uthread. -/
theorem wrappedCall_unborn (s : State) (ut : Ptr) (call : Call) (answer : Answer) :
    s.Unborn (s.wrappedCall ut call answer) := by
  have returned : ∀ (base : State) (result : CallResult), base.config = s.config →
      base.sched = s.sched → s.Unborn (base.returnCall ut call result) := by
    intro base result config same
    refine ⟨config, ?_⟩
    rw [← same]
    exact Sched.reply_births _ _ _ _
  have logged : ∀ (base : State) (args : LogArgs) (result : CallResult),
      base.config = s.config → base.sched = s.sched →
      s.Unborn ((base.rrLogSyscall args).returnCall ut call result) := by
    intro base args result config same
    have kept := rrLogSyscall_same base args
    exact returned _ _ (kept.config.trans config) (kept.sched.trans same)
  have finished : ∀ (base : State) (raw : Int32) (data : Bytes), base.config = s.config →
      base.sched = s.sched → s.Unborn (base.finishIo ut call raw data) := by
    intro base raw data config same
    unfold finishIo
    split
    · exact ⟨config, same ▸ .refl _⟩
    · exact logged _ _ _ config same
  unfold wrappedCall
  split
  · split
    · exact logged _ _ _ rfl rfl
    · unfold submitAndBlock
      split
      · exact finished _ _ _ rfl rfl
      · split
        · exact ⟨rfl, Sched.block_births _ _⟩
        · exact finished _ _ _ rfl rfl
  · split
    · split
      · exact returned _ _ rfl rfl
      · exact returned _ _ rfl rfl
    · exact returned _ _ rfl rfl

theorem signalCompletion_unborn (s : State) (cqe : Cqe) (answer : WaitAnswer) :
    s.Unborn (s.signalCompletion cqe answer) := by
  have processed : s.Unborn (s.processSignal cqe) := by
    have same := rrLogSignal_same s s.ring.ssiSigno s.sched.currentId.toUInt32
    unfold processSignal rrSignalProcess
    split
    · split
      · exact ⟨same.config, fun _ => rfl, rfl, rfl, rfl, rfl, rfl⟩
      · exact ⟨same.config, by rw [same.sched]; exact .refl _⟩
    · exact ⟨rfl, .refl _⟩
  unfold signalCompletion
  split
  · exact processed
  · have kept := rearmSignalRead_kept (s.processSignal cqe) answer.submit
    exact ⟨kept.2.1.trans processed.config, by rw [cqeSeen, kept.1]; exact processed.births⟩

theorem switchTo_unborn {t : State} (same : t.config = s.config) (next : Ptr) (u : Uthread) :
    s.Unborn (t.switchTo s.sched.runqPopFront.2 next u) := by
  refine ⟨?_, switchTo_births _ _ _ _⟩
  rw [switchTo_eq, (resume_kept _ _ _).1]
  exact same

theorem schedulerLoop_unborn {answer : WaitAnswer} (taken : s.schedulerLoop answer = some t) :
    s.Unborn t := by
  unfold schedulerLoop at taken
  generalize pop : s.sched.runqPopFront = pair at taken
  obtain ⟨_ | next, rest⟩ := pair
  · simp only [rrIoWait] at taken
    split at taken
    · cases taken
      exact ⟨rfl, .refl _⟩
    split at taken
    · cases taken
    split at taken
    · cases taken
      exact signalCompletion_unborn s _ answer
    · cases taken
      exact ⟨rfl, Sched.wake_births _ _ _ _ _⟩
  · obtain rfl : rest = s.sched.runqPopFront.2 := by rw [pop]
    dsimp only at taken
    split at taken
    · cases taken
    split at taken
    · cases taken
      exact ⟨rfl, Sched.popFront_births s.sched⟩
    split at taken
    · cases taken
      exact switchTo_unborn rfl _ _
    split at taken
    · split at taken
      · cases taken
        exact ⟨rfl, fun _ => rfl, rfl, rfl, rfl, rfl, rfl⟩
      · rename_i reader _
        cases taken
        exact switchTo_unborn (s := s) (t := { s with reader := reader }) rfl _ _
    · cases taken
      exact switchTo_unborn (rrLogSched_same _ _ _).config _ _

/-- In every mode, a step creates a uthread or leaves the tables alone. -/
theorem step_births (ready : s.config.runtimeReady = true)
    (taken : Librr.step program s input = some t) :
    (∃ answer ut u fn, input = .act answer ∧ s.sched.control = .user ∧
      s.sched.running = some (ut, u) ∧ program u.startFn u.ctx.replies = .create fn ∧
      t.config = s.config ∧
      t.sched = (s.sched.uthreadCreate s.config.stackSize fn answer.create).1.reply ut
        (.create fn)
        (.created (s.sched.uthreadCreate s.config.stackSize fn answer.create).2)) ∨
    (∀ answer ut u fn, input = .act answer → s.sched.running = some (ut, u) →
      program u.startFn u.ctx.replies ≠ .create fn) ∧ s.Unborn t := by
  cases input with
  | act answer =>
      simp only [Librr.step, Option.ite_none_right_eq_some, act, ready, ↓reduceIte,
        Option.map_eq_some_iff, Prod.exists] at taken
      obtain ⟨user, ut, u, running, rfl⟩ := taken
      by_cases creates : ∃ fn, program u.startFn u.ctx.replies = .create fn
      · obtain ⟨fn, next⟩ := creates
        rw [next]
        exact .inl ⟨answer, ut, u, fn, rfl, user, running, next, rfl, rfl⟩
      refine .inr ⟨?_, ?_⟩
      · rintro _ _ _ fn - same wrong
        rw [running] at same
        cases same
        exact creates ⟨fn, wrong⟩
      by_cases isCall : ∃ call, program u.startFn u.ctx.replies = .call call
      · obtain ⟨call, next⟩ := isCall
        rw [next]
        exact wrappedCall_unborn s ut call answer
      · obtain ⟨sched, performed, same⟩ :=
          perform_local running answer fun call same => isCall ⟨call, same⟩
        rw [same]
        exact ⟨rfl, performed.births fun fn same => creates ⟨fn, same⟩⟩
  | loop answer =>
      simp only [Librr.step, Option.ite_none_right_eq_some] at taken
      exact .inr ⟨fun _ _ _ _ wrong => (by cases wrong), schedulerLoop_unborn taken.2⟩
  | post index res data =>
      simp only [Librr.step, Option.ite_none_right_eq_some, Option.map_eq_some_iff] at taken
      obtain ⟨_, sqe, _, rfl⟩ := taken
      exact .inr ⟨fun _ _ _ _ wrong => (by cases wrong), rfl, .refl _⟩

end State

namespace Process

/-- The stack that `rr_uthread_create` maps. -/
def stackOf (p : Process) (answer : CreateAnswer) (mem : Nat) : Resource :=
  .mapping mem ((answer.pagesz + p.runtime.config.stackSize) % 2 ^ 64)

theorem unmapped_memory {memory : List Sched.MemoryCall} (undone : Sched.Unmapped memory)
    (p : Process) : memory.foldl onMemory p = p := by
  rcases undone with rfl | ⟨mem, size, rfl⟩
  · rfl
  · exact p.release_acquire (.mapping mem size)

/-- `uthread_create` keeps the mapping exactly if it creates a uthread. -/
theorem uthreadCreate_cases (p : Process) (fn : Option Fn) (answer : CreateAnswer)
    {created : Sched × UInt64}
    (ran : p.runtime.sched.uthreadCreate p.runtime.config.stackSize fn answer = created) :
    p.uthreadCreate fn answer = p.withSched created.1 ∧
        created.1.core = p.runtime.sched.core ∧
        created.1.allocated = p.runtime.sched.allocated ∨
    ∃ mem record, answer.mmap = some mem ∧
        p.uthreadCreate fn answer = (p.acquire (p.stackOf answer mem)).withSched created.1 ∧
        record.stackMap = mem ∧
        record.stackMapSize = (answer.pagesz + p.runtime.config.stackSize) % 2 ^ 64 ∧
        created.1.core = p.runtime.sched.core.set p.runtime.sched.brk record ∧
        created.1.allocated.items =
          p.runtime.sched.allocated.items ++ [p.runtime.sched.brk] := by
  subst ran
  unfold uthreadCreate Sched.uthreadCreate
  rcases p.runtime.sched.rrUthreadCreate_outcomes p.runtime.config.stackSize fn answer with
    ⟨_, nextId, memory, outcome, _, _, undone⟩ |
    ⟨_, threads, pages, page, memory, outcome, _, _, undone⟩ |
    ⟨_, start, mem, threads, allocated, pages, outcome, _, mapped, _, owned, _⟩
  · rw [outcome]
    dsimp only
    rw [unmapped_memory undone]
    exact .inl ⟨rfl, rfl, rfl⟩
  · rw [outcome]
    dsimp only
    rw [unmapped_memory undone]
    exact .inl ⟨rfl, rfl, rfl⟩
  · rw [outcome]
    refine .inr ⟨mem, Sched.newUthread (UInt64.ofNat p.runtime.sched.nextId) start mem
      answer.pagesz p.runtime.config.stackSize, mapped, rfl, rfl, rfl, ?_, ?_⟩
    · dsimp only
      rw [Sched.rrSchedulerEnqueue_core, Sched.core_set rfl]
      rfl
    · dsimp only
      rw [(Sched.rrSchedulerEnqueue_frame _ _).allocated]
      exact owned

end Process

/-- Suspended in a `nanosleep`. -/
def Sched.SleepsAt (s : Sched) (ut : Ptr) : Prop :=
  ∃ req rem serial, s.frameAt ut = some (.io (.nanosleep req rem) serial)

theorem Sched.sleepsAt_congr {s t : Sched} {ut : Ptr}
    (same : ∀ call serial, t.frameAt ut = some (.io call serial) ↔
      s.frameAt ut = some (.io call serial)) : t.SleepsAt ut ↔ s.SleepsAt ut :=
  exists_congr fun req => exists_congr fun rem => exists_congr fun serial =>
    same (.nanosleep req rem) serial

/-- One frame changes, and was no call before. -/
theorem Sched.sleepsAt_other {s t : Sched} {cur ut : Ptr}
    (frames : t.frameAt ut = if ut = cur then (s.core ut).map fun _ => .user else s.frameAt ut)
    (outside : ¬ s.SleepsAt cur) : t.SleepsAt ut ↔ s.SleepsAt ut := by
  by_cases own : ut = cur
  · subst own
    rw [if_pos rfl] at frames
    refine iff_of_false ?_ outside
    rintro ⟨req, rem, serial, inside⟩
    rw [frames] at inside
    simp at inside
  · rw [if_neg own] at frames
    unfold SleepsAt
    rw [frames]

/-- Where calls are answered at once, nobody is suspended in one. -/
theorem Sched.Turn.frameAt_io {program : Program} {stackSize : Nat} {written : Nat → Bytes}
    {s t : Sched} (turn : s.Turn program stackSize written false t) (queue : s.QueueInvariant)
    (framed : s.Framed) {ut : Ptr} {call : Call} {serial : Nat}
    (inside : t.frameAt ut = some (.io call serial)) : s.frameAt ut = some (.io call serial) := by
  cases turn with
  | perform answer cur u t user running performed =>
      exact (performed.frameAt_io framed queue user running ut call serial).mp inside
  | answered cur u request result user running next => exact State.reply_frameAt_io inside
  | submitted cur u request serial user running next submits waits => cases waits
  | woken id ioResult cur u idle empty hit waiting waits => cases waits
  | dispatched next u idle head found runnable =>
      have resumes := State.head_resumes (s := s.alone written) framed found runnable
      have frames := State.switchTo_frameAt (s := s.alone written) (t := s.alone written) resumes
        found ut
      rw [s.dispatched_eq written next resumes] at inside
      have both := frames.symm.trans inside
      split at both
      · simp at both
      · exact both
  | stopped control idle ends => exact inside
  | unmoved => exact inside

namespace Life

variable {program : Program} {l : Life} {input : Input}

/-- What the static variables refer to. -/
def statics (l : Life) : Multiset Resource :=
  slot (l.schedStack.map (.mapping · rrSchedStackSize)) +
  (slot (if l.runtime.ring.ready then some .uring else none) +
  (slot (l.signalFd.map .descriptor) +
  (slot (l.altSp.map (.mapping · l.altSize)) +
  (slot (l.logFd.map .descriptor) +
  (slot (l.logRing.map (.mapping · rrLogRingSize)) +
  slot (l.replayFd.map .descriptor))))))

/-- The stacks of the uthreads. -/
def maps (l : Life) : Multiset Resource :=
  slots l.runtime.sched.allocated.items fun ut => (l.runtime.sched.core ut).bind Uthread.map

/-- The timers of the suspended `nanosleep`s. -/
def timers (l : Life) : Multiset Resource :=
  slots l.runtime.sched.allocated.items fun ut => (l.tfd ut).map .descriptor

/-- The mode, and what is not used in it. -/
inductive Mode (l : Life) : Prop where
  | records (records : l.runtime.Records) (unread : l.replayFd = none)
  | unrecorded (mode : l.runtime.Passes ∧ l.replayFd = none ∨ l.runtime.Replays)
    (signalFd : l.signalFd = none) (altSp : l.altSp = none) (logFd : l.logFd = none)
    (logRing : l.logRing = none) (quiet : ∀ ut, l.tfd ut = none)

/-- The account holds what the variables refer to, every record is in `g_allocated` once, all
uthreads but the main one have a stack of their own, and a uthread has a timer exactly while it
sleeps. -/
structure Sound (l : Life) : Prop where
  mode : l.Mode
  queue : l.runtime.sched.QueueInvariant
  framed : l.runtime.sched.Framed
  listed : ∀ ut, (l.runtime.sched.core ut).isSome ↔ ut ∈ l.runtime.sched.allocated.items
  distinct : l.runtime.sched.allocated.items.Nodup
  main : (l.runtime.sched.core 0).isSome
  mapped : ∀ ut u, l.runtime.sched.core ut = some u → (u.map = none ↔ ut = 0)
  timed : ∀ ut, (l.tfd ut).isSome ↔ l.runtime.sched.SleepsAt ut
  held : Holds l.held (l.timers + (l.maps + l.statics))

/-- The account and the timers change. -/
def book (l : Life) (held : Option (List Resource)) (tfd : Ptr → Option Int32) : Life :=
  { l.onProcess fun p => { p with held := held } with tfd := tfd }

theorem release_acquire (l : Life) (r : Resource) : (l.acquire r).release r = l := by
  have same := l.toProcess.release_acquire r
  exact congrArg (fun p => { l with toProcess := p }) same

/-- The timer is closed again unless the read of it is submitted. -/
theorem openTimer_cases (l : Life) (ut : Ptr) (req : Timespec) (rem : Option Bytes)
    (answer : Answer) :
    (∀ op, (Wrapper.nanosleep req rem).issue answer = .submit op →
        l.runtime.ring.sq.length = ringEntries ∨ answer.submit = false) ∧
      l.openTimer ut req answer = l ∨
    ∃ tfd, (Wrapper.nanosleep req rem).issue answer = .submit (.read tfd 8 0) ∧
      ¬ (l.runtime.ring.sq.length = ringEntries ∨ answer.submit = false) ∧
      l.openTimer ut req answer =
        l.book (take (.descriptor tfd) l.held) (Function.update l.tfd ut (some tfd)) := by
  have closed := fun tfd : Int32 => l.release_acquire (.descriptor tfd)
  simp only [Wrapper.nanosleep, openTimer]
  cases created : answer.timerfdCreate with
  | error errno => exact .inl ⟨fun op wrong => (by cases wrong), rfl⟩
  | ok tfd =>
      cases armed : answer.timerfdSettime req with
      | some errno => exact .inl ⟨fun op wrong => (by cases wrong), closed tfd⟩
      | none =>
          simp only [Ring.prepare]
          by_cases full : l.runtime.ring.sq.length = ringEntries
          · simp only [full, ↓reduceIte, true_or]
            exact .inl ⟨fun _ _ => trivial, closed tfd⟩
          · simp only [full, ↓reduceIte, false_or]
            cases answer.submit
            · exact .inl ⟨fun _ _ => rfl, closed tfd⟩
            · exact .inr ⟨tfd, rfl, by simp, rfl⟩

/-- A wrapped call takes something only if it is a sleep. -/
theorem settleAct_call (answer : Answer) {ut : Ptr} {u : Uthread} {call : Call}
    (records : l.runtime.Records) (running : l.runtime.sched.running = some (ut, u))
    (next : program u.startFn u.ctx.replies = .call call) :
    (∃ req rem, call = .nanosleep req rem ∧
        l.settleAct program answer = l.openTimer ut req answer) ∨
      (∀ req rem, call ≠ .nanosleep req rem) ∧ l.settleAct program answer = l := by
  simp only [settleAct, records.ready, records.active, running, next, Bool.not_true,
    Bool.false_eq_true, ↓reduceIte]
  cases call with
  | nanosleep req rem => exact .inl ⟨req, rem, rfl, rfl⟩
  | _ => exact .inr ⟨by simp, rfl⟩

theorem settleAct_returned {answer : Answer} {ut : Ptr} {u : Uthread} {call : Call}
    (records : l.runtime.Records) (running : l.runtime.sched.running = some (ut, u))
    (next : program u.startFn u.ctx.replies = .call call)
    (unsuspended : ∀ op, call.wrapper.issue answer = .submit op →
      l.runtime.ring.sq.length = ringEntries ∨ answer.submit = false) :
    l.settle program (.act answer) = l := by
  rcases settleAct_call answer records running next with ⟨req, rem, rfl, same⟩ | ⟨_, same⟩
  · rcases l.openTimer_cases ut req rem answer with ⟨_, closed⟩ | ⟨tfd, submits, room, _⟩
    · exact same.trans closed
    · exact absurd (unsuspended _ submits) room
  · exact same

theorem settleLoop_idle (empty : l.runtime.sched.runqHead = none) : l.settleLoop = l := by
  simp only [settleLoop, Sched.runqPopFront, empty]

theorem settleLoop_next {next : Ptr} {u : Uthread} (head : l.runtime.sched.runqHead = some next)
    (found : l.runtime.sched.runqPopFront.2.heap next = some u) (runnable : u.state = .runnable) :
    (∃ req rem serial, u.ctx.frame = .io (.nanosleep req rem) serial ∧
        l.settleLoop = l.closeTimer next) ∨
      (∀ req rem serial, u.ctx.frame ≠ .io (.nanosleep req rem) serial) ∧ l.settleLoop = l := by
  have popped : l.runtime.sched.runqPopFront = (some next, l.runtime.sched.runqPopFront.2) :=
    Prod.ext (Sched.runqPopFront_links head).1 rfl
  unfold settleLoop
  rw [popped]
  simp only [found, runnable, ne_eq, not_true_eq_false, ↓reduceIte]
  split
  · rename_i req rem serial inside
    exact .inl ⟨req, rem, serial, inside, rfl⟩
  · rename_i apart
    exact .inr ⟨apart, rfl⟩

/-- The timers with another value in one of the variables. -/
theorem timers_update (sound : l.Sound) {ut : Ptr} (listed : (l.runtime.sched.core ut).isSome)
    (value : Option Int32) :
    slots l.runtime.sched.allocated.items
        (fun other => (Function.update l.tfd ut value other).map Resource.descriptor) +
        slot ((l.tfd ut).map .descriptor) =
      slot (value.map .descriptor) + l.timers := by
  have moved : (fun other => (Function.update l.tfd ut value other).map Resource.descriptor) =
      Function.update (fun other => (l.tfd other).map .descriptor) ut (value.map .descriptor) := by
    funext other
    by_cases own : other = ut
    · rw [own, Function.update_self, Function.update_self]
    · rw [Function.update_of_ne own, Function.update_of_ne own]
  rw [moved]
  exact slots_update sound.distinct ((sound.listed ut).mp listed) _ _

/-- What a step makes of the account when it creates no uthread. -/
structure Settled (l : Life) (t : State) (settled : Life) : Prop where
  same : settled = l.book settled.held settled.tfd
  timed : ∀ ut, (settled.tfd ut).isSome ↔ t.sched.SleepsAt ut
  held : Holds settled.held
    (slots l.runtime.sched.allocated.items (fun ut => (settled.tfd ut).map .descriptor) +
      (l.maps + l.statics))

theorem Sound.unsettled (sound : l.Sound) {t : State}
    (same : ∀ ut, t.sched.SleepsAt ut ↔ l.runtime.sched.SleepsAt ut) : l.Settled t l :=
  ⟨rfl, fun ut => (sound.timed ut).trans (same ut).symm, sound.held⟩

/-- A sleep that suspends its caller keeps its timer. -/
theorem Sound.opened (sound : l.Sound) {t : State} {ut : Ptr} {tfd : Int32}
    (listed : (l.runtime.sched.core ut).isSome) (awake : ¬ l.runtime.sched.SleepsAt ut)
    (sleeps : t.sched.SleepsAt ut)
    (others : ∀ other, other ≠ ut → (t.sched.SleepsAt other ↔ l.runtime.sched.SleepsAt other)) :
    l.Settled t (l.book (take (.descriptor tfd) l.held) (Function.update l.tfd ut (some tfd))) := by
  have unused : l.tfd ut = none := by
    rw [← Option.not_isSome_iff_eq_none, sound.timed]
    exact awake
  refine ⟨rfl, fun other => ?_, ?_⟩
  · by_cases own : other = ut
    · subst own
      simp only [book, Function.update_self]
      exact iff_of_true rfl sleeps
    · simp only [book, Function.update_of_ne own]
      exact (sound.timed other).trans (others other own).symm
  · have timers := timers_update sound listed (some tfd)
    rw [unused] at timers
    simp only [Option.map_none, slot_none, add_zero, Option.map_some, slot_some] at timers
    have taken := sound.held.take (.descriptor tfd)
    simp only [book, timers, Multiset.singleton_add, Multiset.cons_add]
    exact taken

/-- A sleep that goes on closes its timer. -/
theorem Sound.closed (sound : l.Sound) {t : State} {ut : Ptr}
    (sleeps : l.runtime.sched.SleepsAt ut) (awake : ¬ t.sched.SleepsAt ut)
    (others : ∀ other, other ≠ ut → (t.sched.SleepsAt other ↔ l.runtime.sched.SleepsAt other)) :
    l.Settled t (l.closeTimer ut) := by
  obtain ⟨tfd, used⟩ := Option.isSome_iff_exists.mp ((sound.timed ut).mpr sleeps)
  have listed : (l.runtime.sched.core ut).isSome := by
    obtain ⟨_, _, _, inside⟩ := sleeps
    obtain ⟨u, found, _⟩ := Option.map_eq_some_iff.mp inside
    rw [found]
    rfl
  have same : l.closeTimer ut =
      l.book (give (.descriptor tfd) l.held) (Function.update l.tfd ut none) := by
    simp only [closeTimer, used]
    rfl
  rw [same]
  refine ⟨rfl, fun other => ?_, ?_⟩
  · by_cases own : other = ut
    · subst own
      simp only [book, Function.update_self]
      exact iff_of_false (by simp) awake
    · simp only [book, Function.update_of_ne own]
      exact (sound.timed other).trans (others other own).symm
  · have timers := timers_update sound listed none
    rw [used] at timers
    simp only [Option.map_none, slot_none, zero_add] at timers
    have held := sound.held
    rw [← timers, add_comm (slots _ _), add_assoc] at held
    exact held.clear

theorem Sound.awake (sound : l.Sound) {ut : Ptr} {u : Uthread}
    (user : l.runtime.sched.control = .user)
    (running : l.runtime.sched.running = some (ut, u)) : ¬ l.runtime.sched.SleepsAt ut := by
  rintro ⟨req, rem, serial, inside⟩
  obtain ⟨_, found, runs⟩ := sound.queue.running_at user running
  have fits := sound.framed ut u.core found
  rw [Uthread.FrameFits, runs] at fits
  rw [Sched.frameAt, found, Option.map_some, fits] at inside
  cases inside

/-- A call that returns at once has given back what it took. -/
theorem Sound.returned (sound : l.Sound) {ut : Ptr} {u : Uthread}
    (user : l.runtime.sched.control = .user)
    (running : l.runtime.sched.running = some (ut, u)) {t : State} {action : Action}
    {reply : Reply} (same : t.sched = l.runtime.sched.reply ut action reply) : l.Settled t l := by
  apply sound.unsettled
  intro other
  rw [same]
  exact Sched.sleepsAt_other (Sched.frameAt_reply _ _ _ _ other) (sound.awake user running)

theorem settleAct_local {answer : Answer} {ut : Ptr} {u : Uthread} {sched : Sched}
    (records : l.runtime.config.runtimeReady = true)
    (running : l.runtime.sched.running = some (ut, u))
    (performed : l.runtime.sched.Local l.runtime.config.stackSize ut u answer.create
      (program u.startFn u.ctx.replies) sched)
    (apart : ∀ fn, program u.startFn u.ctx.replies ≠ .create fn) :
    l.settleAct program answer = l := by
  simp only [settleAct, records, running, Bool.not_true, Bool.false_eq_true, ↓reduceIte]
  generalize program u.startFn u.ctx.replies = action at performed apart
  cases performed with
  | create fn => exact absurd rfl (apart fn)
  | _ => rfl

/-- Nothing happens to the account while the scheduler waits for the ring. -/
theorem Sound.waits (sound : l.Sound) {t : State} (answer : WaitAnswer)
    (empty : l.runtime.sched.runqHead = none)
    (frames : ∀ ut, t.sched.frameAt ut = l.runtime.sched.frameAt ut) :
    l.Settled t (l.settle program (.loop answer)) := by
  rw [settle, settleLoop_idle empty]
  apply sound.unsettled
  intro ut
  unfold Sched.SleepsAt
  rw [frames]

/-- A call that suspends its caller keeps a timer if it is a sleep, and only then. -/
theorem Sound.submitted (sound : l.Sound) (records : l.runtime.Records) {answer : Answer}
    {ut : Ptr} {u : Uthread} {call : Call} {op : IoOp} (user : l.runtime.sched.control = .user)
    (running : l.runtime.sched.running = some (ut, u))
    (next : program u.startFn u.ctx.replies = .call call)
    (submits : call.wrapper.issue answer = .submit op)
    (accepted : ¬ (l.runtime.ring.sq.length = ringEntries ∨ answer.submit = false)) :
    l.Settled (l.runtime.hand op call) (l.settle program (.act answer)) := by
  obtain ⟨current, found, _⟩ := sound.queue.running_at user running
  have frames := Sched.frameAt_modify (Sched.rrSchedulerBlockCurrent_core current
    sound.queue.on (.io call l.runtime.ring.fresh))
  have own : (l.runtime.hand op call).sched.frameAt ut =
      some (.io call l.runtime.ring.fresh) := by
    refine (frames ut).trans ?_
    rw [if_pos rfl, found]
    rfl
  have others : ∀ other, other ≠ ut → ((l.runtime.hand op call).sched.SleepsAt other ↔
      l.runtime.sched.SleepsAt other) := by
    intro other apart
    have kept : (l.runtime.hand op call).sched.frameAt other =
        l.runtime.sched.frameAt other := (frames other).trans (if_neg apart)
    unfold Sched.SleepsAt
    rw [kept]
  have awake := sound.awake user running
  rcases settleAct_call answer records running next with ⟨req, rem, rfl, same⟩ | ⟨other, same⟩
  · rcases l.openTimer_cases ut req rem answer with ⟨closed, _⟩ | ⟨tfd, _, _, opened⟩
    · exact absurd (closed op submits) accepted
    rw [settle, same, opened]
    exact sound.opened (by rw [found]; rfl) awake ⟨req, rem, _, own⟩ others
  · rw [settle, same]
    apply sound.unsettled
    intro thread
    by_cases here : thread = ut
    · subst here
      refine iff_of_false ?_ awake
      rintro ⟨req, rem, serial, inside⟩
      rw [own] at inside
      cases inside
      exact other req rem rfl
    · exact others thread here

/-- A uthread that goes on closes its timer if it was in a sleep, and only then. -/
theorem Sound.dispatched (sound : l.Sound) (answer : WaitAnswer) {next : Ptr} {u : Uthread}
    (head : l.runtime.sched.runqHead = some next)
    (found : l.runtime.sched.runqPopFront.2.heap next = some u) (runnable : u.state = .runnable) :
    l.Settled ((l.runtime.logSwitch u.id).switchTo l.runtime.sched.runqPopFront.2 next u)
      (l.settle program (.loop answer)) := by
  have resumes := State.head_resumes sound.framed found runnable
  have frames := State.switchTo_frameAt (t := l.runtime.logSwitch u.id) resumes found
  have known := Sched.frameAt_popped found
  rcases settleLoop_next head found runnable with
    ⟨req, rem, serial, inside, same⟩ | ⟨outside, same⟩
  · rw [settle, same]
    refine sound.closed ⟨req, rem, serial, known.trans (congrArg some inside)⟩ ?_ ?_
    · rintro ⟨_, _, _, wrong⟩
      rw [frames, if_pos rfl] at wrong
      simp at wrong
    · intro other apart
      unfold Sched.SleepsAt
      rw [frames, if_neg apart]
  · rw [settle, same]
    apply sound.unsettled
    intro other
    refine Sched.sleepsAt_other (frames other) ?_
    rintro ⟨req, rem, serial, inside⟩
    rw [known] at inside
    exact outside req rem serial (Option.some.inj inside)

theorem Sound.settles (sound : l.Sound) (records : l.runtime.Records) {t : State}
    (kind : State.RecordStep program l.runtime input t)
    (apart : ∀ answer ut u fn, input = .act answer → l.runtime.sched.running = some (ut, u) →
      program u.startFn u.ctx.replies ≠ .create fn) : l.Settled t (l.settle program input) := by
  cases kind with
  | perform answer ut u sched user running performed =>
      have same : l.settle program (.act answer) = l :=
        settleAct_local records.ready running performed fun fn =>
          apart answer ut u fn rfl running
      rw [same]
      apply sound.unsettled
      intro other
      exact Sched.sleepsAt_congr (performed.frameAt_io sound.framed sound.queue user running other)
  | immediate answer ut u call result args user running next done =>
      rw [settleAct_returned records running next fun op submits => ?_]
      · exact sound.returned user running (State.loggedReturn_sched _ _ _ _ _)
      · rw [done] at submits
        cases submits
  | full answer ut u call op finish user running next submits half filled =>
      rw [settleAct_returned records running next fun _ _ => .inl filled]
      exact sound.returned user running (State.loggedReturn_sched _ _ _ _ _)
  | refused answer ut u call op finish user running next submits half room failed =>
      rw [settleAct_returned records running next fun _ _ => .inr failed]
      exact sound.returned user running (State.loggedReturn_sched _ _ _ _ _)
  | submitted answer ut u call op finish user running next submits half room accepted =>
      exact sound.submitted records user running next submits (by simp [room, accepted])
  | interrupted answer idle empty broken => exact sound.waits answer empty fun _ => rfl
  | killed answer cqe rest idle empty first sentinel full fatal =>
      exact sound.waits answer empty fun _ => rfl
  | signal answer cqe rest idle empty first sentinel full harmless =>
      apply sound.waits answer empty
      intro ut
      rw [State.cqeSeen, (State.rearmSignalRead_kept _ _).1, (State.rrLogSignal_same _ _ _).sched]
  | short answer cqe rest idle empty first sentinel short =>
      apply sound.waits answer empty
      intro ut
      rw [State.cqeSeen, (State.rearmSignalRead_kept _ _).1]
  | wake answer cqe rest idle empty first tagged =>
      exact sound.waits answer empty fun ut => Sched.frameAt_wake ..
  | dispatch answer next u idle head found runnable =>
      exact sound.dispatched answer head found runnable
  | post index res data sqe live flying => exact sound.unsettled fun _ => Iff.rfl

theorem settleAct_inactive {answer : Answer} (inactive : l.runtime.config.rrActive = false)
    (apart : ∀ ut u fn, l.runtime.sched.running = some (ut, u) →
      program u.startFn u.ctx.replies ≠ .create fn) : l.settleAct program answer = l := by
  unfold settleAct
  split
  · rfl
  split
  · rfl
  rename_i ut u running
  split
  · rename_i fn next
    exact absurd next (apart ut u fn running)
  · rw [inactive]
    rfl
  · rfl

theorem settle_unrecorded (inactive : l.runtime.config.rrActive = false)
    (quiet : ∀ ut, l.tfd ut = none)
    (apart : ∀ answer ut u fn, input = .act answer → l.runtime.sched.running = some (ut, u) →
      program u.startFn u.ctx.replies ≠ .create fn) : l.settle program input = l := by
  cases input with
  | act answer => exact settleAct_inactive inactive fun ut u fn => apart answer ut u fn rfl
  | loop answer =>
      have kept : ∀ ut, l.closeTimer ut = l := fun ut => by simp only [closeTimer, quiet]
      rw [settle, settleLoop]
      split
      · rfl
      split
      · rfl
      split
      · rfl
      split
      · exact kept _
      · rfl
  | post index res data => rfl

/-- The kernel maps nothing at address 0, and no mapping is empty. -/
def Grants (stackSize : Nat) (input : Input) : Prop :=
  ∀ answer mem, input = .act answer → answer.create.mmap = some mem →
    mem ≠ 0 ∧ 0 < (answer.create.pagesz + stackSize) % 2 ^ 64

/-- The program closes nothing that the runtime holds. -/
def LeavesAlone (program : Program) (l : Life) (input : Input) : Prop :=
  ∀ fd ∈ l.closes program input, ∀ held ∈ l.held, .descriptor fd ∉ held

instance (program : Program) (l : Life) (input : Input) : Decidable (l.LeavesAlone program input) :=
  Option.decidableForallMem (l.closes program input)

theorem LeavesAlone.lose (alone : l.LeavesAlone program input) :
    l.lose (l.closes program input) = l := by
  cases closed : l.closes program input with
  | none => rfl
  | some fd =>
      have same : l.held.map (·.erase (.descriptor fd)) = l.held := by
        cases held : l.held with
        | none => rfl
        | some items =>
            rw [Option.map_some, List.erase_of_not_mem (alone fd closed items held)]
      exact congrArg (fun held => { l with held := held }) same

/-- What a step does to the runtime, whatever the mode. -/
structure Moved (l : Life) (t : State) : Prop where
  mode : ∀ held tfd, (l.runtime.config.modeRecord = false → tfd = l.tfd) →
    ((l.book held tfd).withRuntime t).Mode
  queue : t.sched.QueueInvariant
  framed : t.sched.Framed
  ring : t.ring.ready = l.runtime.ring.ready
  maps : l.runtime.sched.KeepsMaps t.sched

theorem Sound.moved (sound : l.Sound) {t : State}
    (ran : Librr.step program l.runtime input = some t) : l.Moved t := by
  rcases sound.mode with ⟨records, unread⟩ | ⟨mode, signalFd, altSp, logFd, logRing, quiet⟩
  · obtain ⟨kind, after⟩ := State.Recording.step ⟨records, sound.queue, sound.framed⟩ ran
    obtain ⟨ops, refined⟩ := kind.refines sound.queue
    exact ⟨fun _ _ _ => .records after.records unread, after.queue, after.framed,
      after.records.ring.trans records.ring.symm, Sched.exec_keepsMaps sound.queue refined⟩
  · obtain ⟨_, ring, turn⟩ :=
      State.Synchronous.turn (mode.imp_left And.left) sound.queue sound.framed ran
    obtain ⟨ops, refined⟩ := turn.refines sound.queue sound.framed
    have after : t.Passes ∧ l.replayFd = none ∨ t.Replays := by
      rcases mode with ⟨passes, unread⟩ | replays
      · obtain ⟨config, ring, _⟩ := (passes.step sound.queue ran).turn sound.framed
        exact .inl ⟨passes.kept config ring, unread⟩
      · exact .inr (State.Replaying.step ⟨replays, sound.queue, sound.framed⟩ ran).2.replays
    have unrecorded : l.runtime.config.modeRecord = false := by
      rcases mode with ⟨passes, _⟩ | replays
      · exact passes.modeRecord
      · exact replays.modeRecord
    refine ⟨fun _ _ same => .unrecorded after signalFd altSp logFd logRing fun ut => ?_,
      State.queueInvariant_of_refines sound.queue ⟨ops, refined⟩,
      turn.framed sound.queue sound.framed, congrArg Ring.ready ring,
      Sched.exec_keepsMaps sound.queue refined⟩
    exact (congrFun (same unrecorded) ut).trans (quiet ut)

/-- Every step that creates no uthread keeps the account in order. -/
theorem Sound.settled (sound : l.Sound) {t : State}
    (ran : Librr.step program l.runtime input = some t)
    (apart : ∀ answer ut u fn, input = .act answer → l.runtime.sched.running = some (ut, u) →
      program u.startFn u.ctx.replies ≠ .create fn) :
    l.Settled t (l.settle program input) ∧
      (l.runtime.config.modeRecord = false → (l.settle program input).tfd = l.tfd) := by
  rcases sound.mode with ⟨records, unread⟩ | ⟨mode, _, _, _, _, quiet⟩
  · obtain ⟨kind, _⟩ := State.Recording.step ⟨records, sound.queue, sound.framed⟩ ran
    refine ⟨sound.settles records kind apart, fun off => ?_⟩
    rw [records.modeRecord] at off
    cases off
  · have turn := (State.Synchronous.turn (mode.imp_left And.left) sound.queue sound.framed ran).2.2
    have inactive : l.runtime.config.rrActive = false := by
      rcases mode with ⟨passes, _⟩ | replays
      · simp [Config.rrActive, passes.modeRecord]
      · simp [Config.rrActive, replays.modeRecord]
    have asleep : ∀ ut, ¬ l.runtime.sched.SleepsAt ut := by
      intro ut
      rw [← sound.timed, quiet]
      simp
    rw [settle_unrecorded inactive quiet apart]
    refine ⟨sound.unsettled fun ut => iff_of_false ?_ (asleep ut), fun _ => rfl⟩
    rintro ⟨req, rem, serial, inside⟩
    exact asleep ut ⟨req, rem, serial, turn.frameAt_io sound.queue sound.framed inside⟩

theorem Sound.ready (sound : l.Sound) : l.runtime.config.runtimeReady = true := by
  rcases sound.mode with ⟨records, _⟩ | ⟨⟨passes, _⟩ | replays, _⟩
  · exact records.ready
  · exact passes.ready
  · exact replays.ready

/-- The account in order, from its parts. -/
theorem Sound.assemble {t : State} {held : Option (List Resource)} {tfd : Ptr → Option Int32}
    (moved : l.Moved t) (quiet : l.runtime.config.modeRecord = false → tfd = l.tfd)
    (listed : ∀ ut, (t.sched.core ut).isSome ↔ ut ∈ t.sched.allocated.items)
    (distinct : t.sched.allocated.items.Nodup) (main : (t.sched.core 0).isSome)
    (mapped : ∀ ut u, t.sched.core ut = some u → (u.map = none ↔ ut = 0))
    (timed : ∀ ut, (tfd ut).isSome ↔ t.sched.SleepsAt ut)
    (holds : Holds held
      (slots t.sched.allocated.items (fun ut => (tfd ut).map .descriptor) +
        (slots t.sched.allocated.items (fun ut => (t.sched.core ut).bind Uthread.map) +
          l.statics))) :
    ((l.book held tfd).withRuntime t).Sound := by
  have statics : ((l.book held tfd).withRuntime t).statics = l.statics := by
    simp only [Life.statics, withRuntime, book, onProcess, moved.ring]
  refine ⟨moved.mode held tfd quiet, moved.queue, moved.framed, listed, distinct, main, mapped,
    timed, ?_⟩
  rw [statics]
  exact holds

/-- A uthread that was there before has a stack of its own as before. -/
theorem Sound.mapped_kept (sound : l.Sound) {t : State} (moved : l.Moved t) {ut : Ptr}
    {v : Uthread} (before : (l.runtime.sched.core ut).isSome) (found : t.sched.core ut = some v) :
    v.map = none ↔ ut = 0 := by
  obtain ⟨u, known⟩ := Option.isSome_iff_exists.mp before
  obtain ⟨w, there, same⟩ := moved.maps ut u known
  rw [found, Option.some.injEq] at there
  rw [there, same]
  exact sound.mapped ut u known

theorem Sound.main_kept (sound : l.Sound) {t : State} (moved : l.Moved t) :
    (t.sched.core 0).isSome := by
  obtain ⟨u, known⟩ := Option.isSome_iff_exists.mp sound.main
  obtain ⟨v, there, _⟩ := moved.maps 0 u known
  rw [there]
  rfl

/-- The records of the uthreads that are there keep their mappings. -/
theorem Sound.maps_kept (sound : l.Sound) {t : State} (moved : l.Moved t) :
    slots l.runtime.sched.allocated.items (fun ut => (t.sched.core ut).bind Uthread.map) =
      l.maps := by
  apply slots_congr
  intro ut member
  obtain ⟨u, found⟩ := Option.isSome_iff_exists.mp ((sound.listed ut).mpr member)
  obtain ⟨v, there, same⟩ := moved.maps ut u found
  rw [found, there]
  exact same

/-- The account stays in order with the records that are there. -/
theorem Sound.assemble_same (sound : l.Sound) {t : State} (moved : l.Moved t)
    {held : Option (List Resource)} {tfd : Ptr → Option Int32}
    (quiet : l.runtime.config.modeRecord = false → tfd = l.tfd)
    (there : ∀ ut, (t.sched.core ut).isSome = (l.runtime.sched.core ut).isSome)
    (allocated : t.sched.allocated = l.runtime.sched.allocated)
    (timed : ∀ ut, (tfd ut).isSome ↔ t.sched.SleepsAt ut)
    (holds : Holds held
      (slots l.runtime.sched.allocated.items (fun ut => (tfd ut).map .descriptor) +
        (l.maps + l.statics))) :
    ((l.book held tfd).withRuntime t).Sound := by
  refine Sound.assemble moved quiet (fun ut => ?_) ?_ (sound.main_kept moved) (fun ut u found => ?_)
    timed ?_
  · rw [there, allocated]
    exact sound.listed ut
  · rw [allocated]
    exact sound.distinct
  · exact sound.mapped_kept moved (by rw [← there, found]; rfl) found
  · rw [allocated, sound.maps_kept moved]
    exact holds

theorem Sound.fresh (sound : l.Sound) : l.runtime.sched.core l.runtime.sched.brk = none :=
  sound.queue.unallocated _ (Nat.le_refl _)

/-- The account stays in order with one record more, which has a stack of its own. -/
theorem Sound.assemble_born (sound : l.Sound) {t : State} (moved : l.Moved t) {stack : Resource}
    (there : ∀ ut, (t.sched.core ut).isSome ↔
      (l.runtime.sched.core ut).isSome ∨ ut = l.runtime.sched.brk)
    (allocated : t.sched.allocated.items =
      l.runtime.sched.allocated.items ++ [l.runtime.sched.brk])
    (mapped : (t.sched.core l.runtime.sched.brk).bind Uthread.map = some stack)
    (timed : ∀ ut, (l.tfd ut).isSome ↔ t.sched.SleepsAt ut) :
    ((l.book (take stack l.held) l.tfd).withRuntime t).Sound := by
  have fresh := sound.fresh
  have unlisted : l.runtime.sched.brk ∉ l.runtime.sched.allocated.items := by
    rw [← sound.listed, fresh]
    simp
  have unused : l.tfd l.runtime.sched.brk = none := by
    rw [← Option.not_isSome_iff_eq_none, sound.timed]
    rintro ⟨_, _, _, inside⟩
    rw [Sched.frameAt, fresh] at inside
    cases inside
  have behind : l.runtime.sched.brk ≠ 0 := by
    intro first
    rw [first] at fresh
    have main := sound.main
    rw [fresh] at main
    cases main
  refine Sound.assemble moved (fun _ => rfl) (fun ut => ?_) ?_ (sound.main_kept moved)
    (fun ut u found => ?_) timed ?_
  · rw [there, allocated, List.mem_append, List.mem_singleton, sound.listed]
  · rw [allocated, List.nodup_append]
    refine ⟨sound.distinct, List.nodup_singleton _, ?_⟩
    rintro ut member _ rest rfl
    rw [List.mem_singleton.mp rest] at member
    exact unlisted member
  · rcases (there ut).mp (by rw [found]; rfl) with before | rfl
    · exact sound.mapped_kept moved before found
    · rw [found, Option.bind_some] at mapped
      rw [mapped]
      exact iff_of_false (by simp) behind
  · rw [allocated, slots_append, slots_append, sound.maps_kept moved]
    simp only [slots_cons, slots_nil, unused, mapped, Option.map_none, slot_none, slot_some,
      add_zero]
    have held := sound.held.take stack
    rw [← Multiset.singleton_add, add_left_comm, ← add_assoc {_}, add_comm {_}] at held
    exact held

theorem Sound.step_unborn (sound : l.Sound) {t : State}
    (ran : Librr.step program l.runtime input = some t)
    (apart : ∀ answer ut u fn, input = .act answer → l.runtime.sched.running = some (ut, u) →
      program u.startFn u.ctx.replies ≠ .create fn)
    (births : l.runtime.sched.SameBirths t.sched) :
    ((l.settle program input).withRuntime t).Sound := by
  obtain ⟨⟨same, timed, held⟩, quiet⟩ := sound.settled ran apart
  have there : ∀ ut, (t.sched.core ut).isSome = (l.runtime.sched.core ut).isSome := by
    intro ut
    have kept := births.births ut
    rw [Sched.birthAt_core, Sched.birthAt_core] at kept
    rw [← Option.isSome_map, kept, Option.isSome_map]
  rw [same]
  exact sound.assemble_same (sound.moved ran) quiet there births.allocated timed held

/-- A creation that fails has given its mapping back. -/
theorem Sound.step_create (sound : l.Sound) {t : State} {answer : Answer} {ut : Ptr}
    {u : Uthread} {fn : Option Fn} (granted : Grants l.runtime.config.stackSize (.act answer))
    (user : l.runtime.sched.control = .user)
    (running : l.runtime.sched.running = some (ut, u))
    (next : program u.startFn u.ctx.replies = .create fn) (moved : l.Moved t)
    {created : Sched × UInt64}
    (ran : l.runtime.sched.uthreadCreate l.runtime.config.stackSize fn answer.create = created)
    (same : t.sched = created.1.reply ut (.create fn) (.created created.2)) :
    ((l.settle program (.act answer)).withRuntime t).Sound := by
  have settled : l.settle program (.act answer) =
      l.onProcess (·.uthreadCreate fn answer.create) := by
    simp only [settle, settleAct, sound.ready, running, next, Bool.not_true, Bool.false_eq_true,
      ↓reduceIte]
  have timed : ∀ other, (l.tfd other).isSome ↔ t.sched.SleepsAt other := by
    intro other
    have performed : l.runtime.sched.Local l.runtime.config.stackSize ut u answer.create
        (.create fn) t.sched := by
      rw [same, ← ran]
      exact .create fn
    rw [sound.timed]
    exact (Sched.sleepsAt_congr
      (performed.frameAt_io sound.framed sound.queue user running other)).symm
  have records : ∀ other, (t.sched.core other).isSome = (created.1.core other).isSome := by
    intro other
    rw [same, Sched.reply_core, Heap.modify_eq_map, Option.isSome_map]
  have allocated : t.sched.allocated = created.1.allocated := by
    rw [same]
    exact (Sched.reply_births _ _ _ _).allocated
  rcases l.toProcess.uthreadCreate_cases fn answer.create ran with
    ⟨outcome, core, kept⟩ | ⟨mem, record, mapped, outcome, map, size, core, grown⟩
  · have final : (l.settle program (.act answer)).withRuntime t =
        (l.book l.held l.tfd).withRuntime t := by
      rw [settled, onProcess, outcome]
      rfl
    rw [final]
    refine sound.assemble_same moved (fun _ => rfl) (fun other => ?_) (allocated.trans kept) timed
      sound.held
    rw [records, core]
  · have final : (l.settle program (.act answer)).withRuntime t =
        (l.book (take (l.stackOf answer.create mem) l.held) l.tfd).withRuntime t := by
      rw [settled, onProcess, outcome]
      rfl
    have stack : (t.sched.core l.runtime.sched.brk).bind Uthread.map =
        some (l.stackOf answer.create mem) := by
      obtain ⟨nonzero, positive⟩ := granted answer mem rfl mapped
      have apart : l.runtime.sched.brk ≠ ut := by
        rintro rfl
        obtain ⟨_, found, _⟩ := sound.queue.running_at user running
        rw [sound.fresh] at found
        cases found
      rw [same, Sched.reply_core, Heap.modify_other _ _ apart, core, Heap.set_same,
        Option.bind_some, Uthread.map, map, size, if_pos ⟨nonzero, positive⟩]
      rfl
    rw [final]
    refine sound.assemble_born moved (fun other => ?_) (by rw [allocated, grown]) stack timed
    rw [records, core, Heap.set_apply]
    split
    · simp [*]
    · simp [*]

theorem Sound.step (sound : l.Sound) {l' : Life}
    (granted : Grants l.runtime.config.stackSize input) (alone : l.LeavesAlone program input)
    (taken : l.step program input = some l') :
    l'.Sound ∧ l'.runtime.config = l.runtime.config := by
  obtain ⟨t, ran, rfl⟩ := Option.map_eq_some_iff.mp taken
  rw [alone.lose]
  rcases State.step_births sound.ready ran with
    ⟨answer, ut, u, fn, rfl, user, running, next, config, same⟩ | ⟨apart, config, births⟩
  · exact ⟨sound.step_create granted user running next (sound.moved ran) rfl same, config⟩
  · exact ⟨sound.step_unborn ran apart births, config⟩

theorem sound_of_exec {inputs : List Input} {l' : Life} (sound : l.Sound)
    (granted : ∀ input ∈ inputs, Grants l.runtime.config.stackSize input)
    (alone : Along (Life.step program) (fun l input _ => l.LeavesAlone program input) l inputs)
    (reached : exec (Life.step program) l inputs = some l') : l'.Sound := by
  have allowed : Along (Life.step program)
      (fun _ input _ => Grants l.runtime.config.stackSize input) l inputs :=
    along_of_inputs granted
  have kept : ∀ (before : Life) (input : Input) (after : Life),
      before.step program input = some after →
      Grants l.runtime.config.stackSize input ∧ before.LeavesAlone program input →
      before.Sound ∧ before.runtime.config = l.runtime.config →
      after.Sound ∧ after.runtime.config = l.runtime.config := by
    rintro before input after taken ⟨granted, alone⟩ ⟨sound, config⟩
    obtain ⟨sound, same⟩ := sound.step (config ▸ granted) alone taken
    exact ⟨sound, same.trans config⟩
  exact ((allowed.and alone).invariant kept ⟨sound, rfl⟩ reached).1

end Life

end Librr
