import Librr.Logging
import Librr.Naming
import Librr.Overlap
import Librr.Requests

set_option autoImplicit false

namespace Librr

open Transition

/-- The main thread of the program creates no uthread. -/
def CreatesNothing (program : Program) : Prop :=
  ∀ replies fn, program none replies ≠ .create fn

/-- What `rr_uthread_join` answers where there is only the main thread. -/
def lonelyJoin (id : UInt64) : Reply :=
  .joined (-1) (some (if id = 1 then Errno.EDEADLK else Errno.ESRCH)) none

/-- The replies that an action of the only uthread can get. -/
def Action.Gets (action : Action) (reply : Reply) : Prop :=
  match action with
  | .yield => reply = .yielded
  | .join id _ => reply = lonelyJoin id
  | .call _ => ∃ result, reply = .returned result
  | _ => False

/-- What the only uthread of the program can have done. -/
inductive Scripted (program : Program) : List (Action × Reply) → Prop where
  | nil : Scripted program []
  | snoc (trace : List (Action × Reply)) (action : Action) (reply : Reply)
    (past : Scripted program trace) (next : program none (trace.map Prod.snd) = action)
    (gets : action.Gets reply) : Scripted program (trace ++ [(action, reply)])

/-- The wrapped calls among what a uthread has done, with their results. -/
def callOf : Action × Reply → Option (Call × CallResult)
  | (.call call, .returned result) => some (call, result)
  | _ => none

def Uthread.calls (u : Uthread) : List (Call × CallResult) := u.ctx.trace.filterMap callOf

def Event.isSyscall (event : Event) : Bool :=
  match event.payload with
  | .syscall .. => true
  | _ => false

def Event.isSignal (event : Event) : Bool :=
  match event.payload with
  | .signal .. => true
  | _ => false

namespace Sched

/-- The main thread `u` is the only uthread. It has followed the program, and is inside of
what the program does next. -/
structure Lone (program : Program) (s : Sched) (u : Uthread) : Prop where
  brk : s.brk = 1
  table : s.threads.items = [0]
  current : s.current = some 0
  main : s.core 0 = some u
  id : u.id = 1
  start : u.startFn = none
  script : Scripted program u.ctx.trace
  inside : ∀ action, u.ctx.frame.action = some action → program none u.ctx.replies = action
  apart : ∀ id out target, u.ctx.frame ≠ .joining id out target

section Steps

variable {program : Program} {s t : Sched} {u : Uthread}

theorem Lone.currentId (lone : s.Lone program u) : s.currentId = 1 := by
  obtain ⟨v, present, rfl⟩ := of_core_some lone.main
  rw [Sched.currentId, running_eq lone.current present]
  exact lone.id

theorem Lone.running (lone : s.Lone program u) {ut : Ptr} {v : Uthread}
    (running : s.running = some (ut, v)) : ut = 0 ∧ v.core = u := by
  obtain ⟨current, present⟩ := of_running running
  obtain rfl : ut = 0 := Option.some.inj (current.symm.trans lone.current)
  exact ⟨rfl, Option.some.inj ((core_some present).symm.trans lone.main)⟩

/-- Nothing is created, and the main thread gets on. -/
theorem Lone.moved (lone : s.Lone program u) (births : s.SameBirths t)
    (current : t.current = s.current) {v : Uthread} (main : t.core 0 = some v)
    (id : v.id = u.id) (start : v.startFn = u.startFn) (script : Scripted program v.ctx.trace)
    (inside : ∀ action, v.ctx.frame.action = some action → program none v.ctx.replies = action)
    (apart : ∀ id out target, v.ctx.frame ≠ .joining id out target) : t.Lone program v :=
  ⟨births.brk.trans lone.brk, by rw [births.threads, lone.table], current.trans lone.current, main,
    id.trans lone.id, start.trans lone.start, script, inside, apart⟩

/-- A change of the record that its context does not notice. -/
theorem Lone.kept (lone : s.Lone program u) (births : s.SameBirths t)
    (current : t.current = s.current) {v : Uthread} (main : t.core 0 = some v)
    (id : v.id = u.id) (start : v.startFn = u.startFn) (ctx : v.ctx = u.ctx) :
    t.Lone program v :=
  lone.moved births current main id start (ctx ▸ lone.script) (ctx ▸ lone.inside)
    (ctx ▸ lone.apart)

/-- The main thread is suspended inside of its next action. -/
theorem Lone.suspended (lone : s.Lone program u) (births : s.SameBirths t)
    (current : t.current = s.current) {state : UtState} {frame : Frame} {action : Action}
    (core : t.core = s.core.modify 0 (suspend state frame)) (entered : frame.action = some action)
    (next : program none u.ctx.replies = action)
    (apart : ∀ id out target, frame ≠ .joining id out target) :
    t.Lone program (suspend state frame u) := by
  have main : t.core 0 = some (suspend state frame u) := by
    rw [core, Heap.modify_same, lone.main, Option.map_some]
  refine lone.moved births current main rfl rfl lone.script (fun other taken => ?_) apart
  obtain rfl : action = other := Option.some.inj (entered.symm.trans taken)
  exact next

/-- The main thread gets its reply. -/
theorem Lone.replied (lone : s.Lone program u) {action : Action} {reply : Reply}
    (next : program none u.ctx.replies = action) (gets : action.Gets reply) :
    (s.reply 0 action reply).Lone program { u with ctx := u.ctx.finish action reply } := by
  refine lone.moved (reply_births s 0 action reply) rfl ?_ rfl rfl
    (.snoc _ action reply lone.script next gets) ?_ ?_
  · rw [reply_core, Heap.modify_same, lone.main, Option.map_some]
  · intro other inside
    cases inside
  · intro _ _ _ inside
    cases inside

/-- A completion changes the main thread's state and its result. -/
theorem Lone.woken (lone : s.Lone program u) (id : UInt64) (ioResult : Int32) :
    ∃ w, (s.rrSchedulerWakeById id ioResult none 0).Lone program w ∧ w.calls = u.calls := by
  have births := s.wake_births id ioResult none 0
  have current := (s.rrSchedulerWakeById_frame id ioResult none 0).current
  have core := s.rrSchedulerWakeById_core id ioResult none 0
  cases hit : s.rrSchedulerFind id with
  | none =>
      simp only [hit] at core
      exact ⟨u, lone.kept births current (by rw [core, lone.main]) rfl rfl rfl, rfl⟩
  | some found =>
      obtain ⟨ut, v⟩ := found
      obtain ⟨member, _, _⟩ := rrSchedulerFind_some hit
      obtain rfl : ut = 0 := by simpa [lone.table] using member
      simp only [hit] at core
      have main : (s.rrSchedulerWakeById id ioResult none 0).core 0 =
          some (wakeRecord (completed ioResult []) u) := by
        rw [core, Heap.modify_same, lone.main, Option.map_some]
        rfl
      refine ⟨_, lone.kept births current main ?_ ?_ ?_, ?_⟩
      · unfold wakeRecord
        split <;> rfl
      · unfold wakeRecord
        split <;> rfl
      · unfold wakeRecord
        split <;> rfl
      · unfold wakeRecord
        split <;> rfl

theorem calls_finish (u : Uthread) (action : Action) (reply : Reply) :
    ({ u with ctx := u.ctx.finish action reply } : Uthread).calls =
      u.calls ++ (callOf (action, reply)).toList := by
  simp only [Uthread.calls, Context.finish, List.filterMap_append]
  cases done : callOf (action, reply) <;> simp [done]

/-- The main thread finds nobody but itself. -/
theorem Lone.join_eq (lone : s.Lone program u) {v : Uthread} (running : s.running = some (0, v))
    (id : UInt64) (out : Bool) : s.rrUthreadJoin id out = (s, some (lonelyJoin id)) := by
  obtain ⟨_, present⟩ := of_running running
  have mine : v.id = 1 := by
    have named : v.core.id = 1 := (lone.running running).2 ▸ lone.id
    exact named
  by_cases same : id = 1
  · subst same
    have found : s.rrSchedulerFind 1 = some (0, v) := by
      simp [rrSchedulerFind, lone.table, present, mine]
    simp [rrUthreadJoin, found, running, lonelyJoin]
  · have missed : s.rrSchedulerFind id = none := by
      have other : ¬ (1 : UInt64) = id := fun eq => same eq.symm
      simp [rrSchedulerFind, lone.table, present, mine, other]
    simp [rrUthreadJoin, missed, lonelyJoin, same]

/-- An action that is no wrapped call. -/
theorem Lone.performed (lone : s.Lone program u) (single : CreatesNothing program)
    (inv : s.QueueInvariant) {ut : Ptr} {v : Uthread} (running : s.running = some (ut, v))
    {stackSize : Nat} {answer : CreateAnswer}
    (performed : s.Local stackSize ut v answer (program v.startFn v.ctx.replies) t) :
    ∃ w, t.Lone program w ∧ w.calls = u.calls := by
  obtain ⟨rfl, rfl⟩ := lone.running running
  have start : v.startFn = none := lone.start
  obtain ⟨action, asked⟩ : ∃ action, program none v.ctx.replies = action := ⟨_, rfl⟩
  have births := performed.births (fun fn same => by
    rw [start] at same
    exact single _ fn same)
  have current := performed.current
  rw [start, asked] at performed
  cases performed with
  | create fn => exact absurd asked (single _ fn)
  | yield =>
      exact ⟨_, lone.suspended births current (rrSchedulerYieldCurrent_core lone.current inv.on) rfl
        asked (by simp), rfl⟩
  | joinNow id out reply answered =>
      obtain rfl : lonelyJoin id = reply := by
        rw [lone.join_eq running] at answered
        exact Option.some.inj (Prod.mk.inj answered).2
      exact ⟨_, lone.replied asked rfl, (calls_finish ..).trans (by simp [callOf])⟩
  | joinWait id out target record hit other live free =>
      -- The target is the main thread itself.
      obtain ⟨member, found, _⟩ := rrSchedulerFind_some hit
      obtain rfl : target = 0 := by simpa [lone.table] using member
      have same := Option.some.inj (found.symm.trans (of_running running).2)
      exact absurd (congrArg Uthread.id same) other
  | exit value =>
      have core := rrSchedulerExitCurrent_core lone.current inv.on value 0
      rw [lone.main, Option.map_some, if_pos rfl] at core
      refine ⟨_, lone.moved births current core rfl rfl lone.script ?_ (by simp), rfl⟩
      intro other inside
      cases inside
      exact asked
  | ret fn started =>
      rw [start] at started
      cases started
  | stop main => exact ⟨_, lone.kept births current lone.main rfl rfl rfl, rfl⟩

end Steps

end Sched

namespace State

/-- What one step of a recording process means to its log and to the calls of the main
thread, which is the only uthread. -/
inductive LoneMove (s t : State) (u w : Uthread) : Prop where
  | silent (log : t.log = s.log) (seq : t.seq = s.seq) (calls : w.calls = u.calls)
  | signalled (signo activeUthread : UInt32)
    (log : t.log = s.log ++ [⟨s.seq + 1, 1, .signal signo activeUthread⟩])
    (seq : t.seq = s.seq + 1) (calls : w.calls = u.calls)
  | returned (call : Call) (result : CallResult)
    (log : t.log = s.log ++ [⟨s.seq + 1, 1, (call.logged result).payload⟩])
    (seq : t.seq = s.seq + 1) (calls : w.calls = u.calls ++ [(call, result)])

section Steps

variable {program : Program} {s t : State} {u : Uthread}

/-- A wrapped call returns to the main thread. -/
theorem lone_returned (records : s.Records) (lone : s.sched.Lone program u) {call : Call}
    {result : CallResult} {args : LogArgs} (next : program none u.ctx.replies = .call call)
    (outcome : call.Outcome result args) :
    ∃ w, ((s.rrLogSyscall args).returnCall 0 call result).sched.Lone program w ∧
      LoneMove s ((s.rrLogSyscall args).returnCall 0 call result) u w := by
  rw [records.loggedReturn, outcome.logged, lone.currentId]
  exact ⟨_, lone.replied next ⟨result, rfl⟩, .returned call result rfl rfl (Sched.calls_finish ..)⟩

theorem Lone.head {next : Ptr} {v : Uthread} (lone : s.sched.Lone program u)
    (inv : s.sched.QueueInvariant) (found : s.sched.runqPopFront.2.heap next = some v) :
    next = 0 ∧ v.core = u := by
  have core : s.sched.core next = some v.core := by
    rw [← Sched.runqPopFront_core, Sched.core_some found]
  obtain rfl : next = 0 := by
    by_contra apart
    have above : s.sched.brk ≤ next := by
      rw [lone.brk]
      exact Nat.one_le_iff_ne_zero.mpr apart
    rw [inv.unallocated next above] at core
    cases core
  exact ⟨rfl, Option.some.inj (core.symm.trans lone.main)⟩

/-- The main thread after the switch to it. -/
theorem lone_dispatched (lone : s.sched.Lone program u) :
    (s.sched.runqPopFront.2.dispatch 0).Lone program { u with state := .running } := by
  have births := (Sched.popFront_births s.sched).trans (Sched.dispatch_births _ 0)
  refine lone.kept births ?_ ?_ rfl rfl rfl
  · exact lone.current.symm
  · rw [Sched.dispatch_core, Sched.runqPopFront_core, Heap.modify_same, lone.main,
      Option.map_some]

theorem LoneMove.congr {base : State} {v w : Uthread} (move : LoneMove base t v w)
    (log : base.log = s.log) (seq : base.seq = s.seq) (calls : v.calls = u.calls) :
    LoneMove s t u w := by
  cases move with
  | silent same number kept =>
      exact .silent (same.trans log) (number.trans seq) (kept.trans calls)
  | signalled signo activeUthread grown number kept =>
      exact .signalled signo activeUthread (by rw [grown, log, seq]) (by rw [number, seq])
        (kept.trans calls)
  | returned call result grown number kept =>
      exact .returned call result (by rw [grown, log, seq]) (by rw [number, seq])
        (by rw [kept, calls])

/-- The main thread goes on where it was suspended. -/
theorem lone_switched (inv : s.Recording) (lone : s.sched.Lone program u) {next : Ptr}
    {v : Uthread} (found : s.sched.runqPopFront.2.heap next = some v)
    (runnable : v.state = .runnable) :
    ∃ w, ((s.logSwitch v.id).switchTo s.sched.runqPopFront.2 next v).sched.Lone program w ∧
      LoneMove s ((s.logSwitch v.id).switchTo s.sched.runqPopFront.2 next v) u w := by
  obtain ⟨rfl, rfl⟩ := Lone.head lone inv.queue found
  have mine : s.sched.currentId = v.id := lone.currentId.trans lone.id.symm
  have unlogged : s.logSwitch v.id = s := if_pos mine
  have dispatched := lone_dispatched lone
  rw [unlogged]
  rcases s.switchTo_cases s.sched.runqPopFront.2 0 (head_resumes inv.framed found runnable) with
    ⟨_, same⟩ | ⟨frame, same⟩ | ⟨id, out, target, frame, same⟩ |
    ⟨call, serial, finish, frame, submits, half, same⟩
  · rw [same]
    exact ⟨_, dispatched, .silent rfl rfl rfl⟩
  · rw [same]
    have yields : program none v.core.ctx.replies = .yield :=
      lone.inside .yield (by rw [show v.core.ctx.frame = .yielding from frame]; rfl)
    exact ⟨_, dispatched.replied yields rfl, .silent rfl rfl
      ((Sched.calls_finish ..).trans (by simp [callOf]; rfl))⟩
  · exact absurd frame (lone.apart id out target)
  · rw [same]
    have calls : program none v.core.ctx.replies = .call call :=
      lone.inside (.call call) (by rw [show v.core.ctx.frame = .io call serial from frame]; rfl)
    obtain ⟨w, after, move⟩ := lone_returned
      (s := (s.arrive s.sched.runqPopFront.2 0 v.id).observe [.answered serial v.ioResult])
      (inv.records.of_same rfl rfl) dispatched calls
      (.inr ⟨submits, finish, v.ioResult, s.ring.written serial, half, rfl⟩)
    exact ⟨w, after, move.congr rfl rfl rfl⟩

/-- Every step of a recording process whose program creates nothing. -/
theorem RecordStep.lone {input : Input} (inv : s.Recording) (single : CreatesNothing program)
    (lone : s.sched.Lone program u) (taken : RecordStep program s input t) :
    ∃ w, t.sched.Lone program w ∧ LoneMove s t u w := by
  -- Where the main thread runs, it is about to do what the program says.
  have asked : ∀ ut v action, s.sched.running = some (ut, v) →
      program v.startFn v.ctx.replies = action → ut = 0 ∧ program none u.ctx.replies = action := by
    intro ut v action running next
    obtain ⟨rfl, rfl⟩ := lone.running running
    rw [show v.startFn = none from lone.start] at next
    exact ⟨rfl, next⟩
  have named := lone.currentId
  cases taken with
  | perform answer ut v sched user running performed =>
      obtain ⟨w, after, calls⟩ := lone.performed single inv.queue running performed
      exact ⟨w, after, .silent rfl rfl calls⟩
  | immediate answer ut v call result args user running next done =>
      obtain ⟨rfl, calls⟩ := asked ut v _ running next
      exact lone_returned inv.records lone calls (.inl ⟨answer, done⟩)
  | full answer ut v call op finish user running next submits half filled =>
      obtain ⟨rfl, calls⟩ := asked ut v _ running next
      exact lone_returned inv.records lone calls
        (.inr ⟨⟨answer, op, submits⟩, finish, _, _, half, rfl⟩)
  | refused answer ut v call op finish user running next submits half room failed =>
      obtain ⟨rfl, calls⟩ := asked ut v _ running next
      obtain ⟨w, after, move⟩ := lone_returned (s := s.leave op) (inv.records.of_same rfl rfl) lone
        calls (.inr ⟨⟨answer, op, submits⟩, finish, _, _, half, rfl⟩)
      exact ⟨w, after, move.congr rfl rfl rfl⟩
  | submitted answer ut v call op finish user running next submits half room accepted =>
      obtain ⟨rfl, calls⟩ := asked ut v _ running next
      have core := Sched.rrSchedulerBlockCurrent_core lone.current inv.queue.on
        (.io call s.ring.fresh)
      exact ⟨_, lone.suspended (Sched.block_births _ _) (Sched.rrSchedulerBlockCurrent_current _ _)
        core rfl calls (by simp), .silent rfl rfl rfl⟩
  | interrupted answer idle empty broken => exact ⟨u, lone, .silent rfl rfl rfl⟩
  | killed answer cqe rest idle empty first sentinel full fatal =>
      have births : s.sched.SameBirths { s.sched with control := .exited } :=
        ⟨fun _ => rfl, rfl, rfl, rfl, rfl, rfl⟩
      have ended := lone.kept births rfl lone.main rfl rfl rfl
      rw [inv.records.logSignal, named]
      exact ⟨u, ended, .signalled _ _ rfl rfl rfl⟩
  | signal answer cqe rest idle empty first sentinel full harmless =>
      rw [inv.records.logSignal, named]
      obtain ⟨_, _, log, seq⟩ := (s.appendEvent 1
        (.signal s.ring.ssiSigno (1 : UInt64).toUInt32)).rearmSignalRead_ring answer.submit
      refine ⟨u, ?_, .signalled s.ring.ssiSigno (1 : UInt64).toUInt32 log seq rfl⟩
      show (rearmSignalRead _ _).sched.Lone program u
      rw [(rearmSignalRead_kept _ _).1]
      exact lone
  | short answer cqe rest idle empty first sentinel short =>
      obtain ⟨_, _, log, seq⟩ := s.rearmSignalRead_ring answer.submit
      refine ⟨u, ?_, .silent log seq rfl⟩
      show (rearmSignalRead _ _).sched.Lone program u
      rw [(rearmSignalRead_kept _ _).1]
      exact lone
  | wake answer cqe rest idle empty first tagged =>
      obtain ⟨w, after, calls⟩ := lone.woken cqe.userData cqe.res
      exact ⟨w, after, .silent rfl rfl calls⟩
  | dispatch answer next v idle head found runnable => exact lone_switched inv lone found runnable
  | post index res data sqe live flying => exact ⟨u, lone, .silent rfl rfl rfl⟩

/-- The log of a process with only a main thread: behind the switch to it, its completed
calls in order and signals among them. -/
structure LoneLog (s : State) (u : Uthread) (events : List Event) : Prop where
  log : s.log = ⟨1, 1, .sched 0 1⟩ :: events
  stamped : Stamped s.log
  seq : s.seq = UInt64.ofNat s.log.length
  mine : ∀ event ∈ events, event.uthreadId = 1
  kinds : ∀ event ∈ events, event.isSyscall = true ∨ event.isSignal = true
  calls : (events.filter Event.isSyscall).map Event.payload =
    u.calls.map fun done => (done.1.logged done.2).payload

/-- One event is logged. -/
theorem LoneLog.snoc {events : List Event} (logged : s.LoneLog u events) {payload : Payload}
    {w : Uthread} (log : t.log = s.log ++ [⟨s.seq + 1, 1, payload⟩]) (seq : t.seq = s.seq + 1)
    (kind : (⟨s.seq + 1, 1, payload⟩ : Event).isSyscall = true ∨
      (⟨s.seq + 1, 1, payload⟩ : Event).isSignal = true)
    (calls : ((events ++ [(⟨s.seq + 1, 1, payload⟩ : Event)]).filter Event.isSyscall).map
        Event.payload =
      w.calls.map fun done => (done.1.logged done.2).payload) :
    t.LoneLog w (events ++ [⟨s.seq + 1, 1, payload⟩]) := by
  have next : s.seq + 1 = UInt64.ofNat (s.log.length + 1) := by
    rw [logged.seq, UInt64.ofNat_add]
    rfl
  refine ⟨?_, ?_, ?_, ?_, ?_, calls⟩
  · rw [log, logged.log]
    rfl
  · rw [log, next]
    exact logged.stamped.snoc 1 payload
  · rw [seq, log, next, List.length_append, List.length_singleton]
  · intro event member
    rcases List.mem_append.mp member with old | new
    · exact logged.mine event old
    · rw [List.mem_singleton.mp new]
  · intro event member
    rcases List.mem_append.mp member with old | new
    · exact logged.kinds event old
    · rw [List.mem_singleton.mp new]
      exact kind

theorem LoneLog.move {events : List Event} (logged : s.LoneLog u events) {w : Uthread}
    (move : LoneMove s t u w) : ∃ events, t.LoneLog w events := by
  cases move with
  | silent log seq calls =>
      exact ⟨events, log.trans logged.log, log ▸ logged.stamped, by rw [seq, log, logged.seq],
        logged.mine, logged.kinds, by rw [calls, logged.calls]⟩
  | signalled signo activeUthread log seq calls =>
      refine ⟨_, logged.snoc log seq (.inr rfl) ?_⟩
      rw [List.filter_append, calls, ← logged.calls]
      simp [Event.isSyscall]
  | returned call result log seq calls =>
      refine ⟨_, logged.snoc log seq (.inl rfl) ?_⟩
      rw [List.filter_append, List.map_append, logged.calls, calls, List.map_append]
      rfl

end Steps

theorem afterInit_lone (program : Program) :
    ∃ u, Sched.afterInit.Lone program u ∧ u.calls = [] ∧ u.ctx = .start :=
  ⟨_, ⟨rfl, rfl, rfl, rfl, rfl, rfl, .nil, fun _ inside => (by cases inside),
    fun _ _ _ inside => (by cases inside)⟩, rfl, rfl⟩

/-- Where the program creates nothing, this holds at every moment of a recorded run. -/
theorem lone_of_exec {program : Program} (single : CreatesNothing program) {stackSize : Nat}
    {signalFd : Int32} {inputs : List Input} {s : State}
    (reached : exec (step program) (recordStart stackSize signalFd) inputs = some s) :
    ∃ u events, s.sched.Lone program u ∧ s.LoneLog u events := by
  have kept : ∀ before input after, Librr.step program before input = some after →
      (before.Recording ∧ ∃ u events, before.sched.Lone program u ∧ before.LoneLog u events) →
      after.Recording ∧ ∃ u events, after.sched.Lone program u ∧ after.LoneLog u events := by
    rintro before input after taken ⟨inv, u, events, lone, logged⟩
    obtain ⟨kind, recording⟩ := inv.step taken
    obtain ⟨w, after, move⟩ := RecordStep.lone inv single lone kind
    obtain ⟨more, logged⟩ := logged.move move
    exact ⟨recording, w, more, after, logged⟩
  have start : (recordStart stackSize signalFd).Recording ∧
      ∃ u events, (recordStart stackSize signalFd).sched.Lone program u ∧
        (recordStart stackSize signalFd).LoneLog u events := by
    obtain ⟨u, lone, none, _⟩ := afterInit_lone program
    refine ⟨recordStart_recording stackSize signalFd, u, [], lone, rfl, ?_, rfl, ?_, ?_, ?_⟩
    · have empty : Stamped [] := fun _ _ found => by cases found
      exact empty.snoc 1 (.sched 0 1)
    · exact fun _ member => absurd member List.not_mem_nil
    · exact fun _ member => absurd member List.not_mem_nil
    · rw [none]
      rfl
  exact (@exec_invariant _ _ _ (fun s : State => s.Recording ∧
    ∃ u events, s.sched.Lone program u ∧ s.LoneLog u events) _ _ _ kept start reached).2

end State

end Librr
