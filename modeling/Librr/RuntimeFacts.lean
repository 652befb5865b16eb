import Librr.Runtime
import Librr.SchedulerQueue

set_option autoImplicit false

namespace Librr

open Transition

namespace State

@[simp] theorem observe_history (s : State) (seen : List Observation) :
    (s.observe seen).history = s.history ++ seen := rfl
@[simp] theorem observe_sched (s : State) (seen : List Observation) :
    (s.observe seen).sched = s.sched := rfl
@[simp] theorem observe_ring (s : State) (seen : List Observation) :
    (s.observe seen).ring = s.ring := rfl
@[simp] theorem observe_config (s : State) (seen : List Observation) :
    (s.observe seen).config = s.config := rfl
@[simp] theorem observe_log (s : State) (seen : List Observation) :
    (s.observe seen).log = s.log := rfl
@[simp] theorem observe_seq (s : State) (seen : List Observation) :
    (s.observe seen).seq = s.seq := rfl
@[simp] theorem observe_reader (s : State) (seen : List Observation) :
    (s.observe seen).reader = s.reader := rfl

/-- What a logged event leaves alone. -/
structure SameButLog (before after : State) : Prop where
  config : after.config = before.config
  sched : after.sched = before.sched
  ring : after.ring = before.ring
  reader : after.reader = before.reader
  host : after.host = before.host
  history : after.history = before.history

theorem rrLogSyscall_same (s : State) (args : LogArgs) : SameButLog s (s.rrLogSyscall args) := by
  unfold rrLogSyscall
  split <;> exact ⟨rfl, rfl, rfl, rfl, rfl, rfl⟩

theorem rrLogSignal_same (s : State) (signo activeUthread : UInt32) :
    SameButLog s (s.rrLogSignal signo activeUthread) := by
  unfold rrLogSignal
  split <;> exact ⟨rfl, rfl, rfl, rfl, rfl, rfl⟩

theorem rrLogSched_same (s : State) (fromId toId : UInt64) :
    SameButLog s (s.rrLogSched fromId toId) := by
  unfold rrLogSched
  split <;> exact ⟨rfl, rfl, rfl, rfl, rfl, rfl⟩

end State

/-- Only a wrapper with a second half submits an operation. -/
theorem Call.finish_of_submit {call : Call} {answer : Answer} {op : IoOp}
    (submits : call.wrapper.issue answer = .submit op) :
    ∃ finish, call.wrapper.finish = some finish := by
  cases call <;> first
    | exact ⟨_, rfl⟩
    | exact absurd submits (by
        simp [Call.wrapper, Wrapper.clockGettime, Wrapper.gettimeofday, Wrapper.getpid,
          Wrapper.getuid, Wrapper.uname, Wrapper.stat, Wrapper.fstat, Wrapper.lstat,
          Wrapper.getcwd, structWrapper] <;> (try split <;> simp))

namespace Sched

/-- The actions that concern the scheduler alone, by outcome. -/
inductive Local (stackSize : Nat) (s : Sched) (ut : Ptr) (u : Uthread) (answer : CreateAnswer) :
    Action → Sched → Prop where
  | create (fn : Option Fn) :
    Local stackSize s ut u answer (.create fn) ((s.uthreadCreate stackSize fn answer).1.reply ut
      (.create fn) (.created (s.uthreadCreate stackSize fn answer).2))
  | yield : Local stackSize s ut u answer .yield s.rrSchedulerYieldCurrent
  | joinNow (id : UInt64) (out : Bool) (reply : Reply)
    (answered : s.rrUthreadJoin id out = (s, some reply)) :
    Local stackSize s ut u answer (.join id out) (s.reply ut (.join id out) reply)
  | joinWait (id : UInt64) (out : Bool) (target : Ptr) (record : Uthread)
    (found : s.rrSchedulerFind id = some (target, record)) (apart : record.id ≠ u.id)
    (live : record.state ≠ .done)
    (free : record.joinWaiter = none ∨ record.joinWaiter = some ut) :
    Local stackSize s ut u answer (.join id out)
      ((s.modify target (awaitedBy ut)).rrSchedulerBlockCurrent (.joining id out target))
  | exit (value : UInt64) :
    Local stackSize s ut u answer (.exit value) (s.rrSchedulerExitCurrent value)
  | ret (fn : Fn) (started : u.startFn = some fn) :
    Local stackSize s ut u answer .ret (s.rrSchedulerExitCurrent 0)
  | stop (main : u.startFn = none) :
    Local stackSize s ut u answer .ret { s with control := .exited }

end Sched

namespace State

/-- An action that is no wrapped call changes the scheduler and nothing else. -/
theorem perform_local {s : State} {ut : Ptr} {u : Uthread}
    (running : s.sched.running = some (ut, u)) (answer : Answer) {action : Action}
    (apart : ∀ call, action ≠ .call call) :
    ∃ sched, s.sched.Local s.config.stackSize ut u answer.create action sched ∧
      s.perform ut u answer action = { s with sched := sched } := by
  cases action with
  | create fn => exact ⟨_, .create fn, rfl⟩
  | yield => exact ⟨_, .yield, rfl⟩
  | join id out =>
      rcases s.sched.rrUthreadJoin_cases id out with ⟨reply, answered⟩ |
        ⟨target, record, self, me, found, mine, other, live, free, waits⟩
      · exact ⟨_, .joinNow id out reply answered, by simp [perform, answered]⟩
      · rw [running] at mine
        cases mine
        exact ⟨_, .joinWait id out target record found other live free, by simp [perform, waits]⟩
  | exit value => exact ⟨_, .exit value, rfl⟩
  | call call => exact absurd rfl (apart call)
  | ret =>
      cases main : u.startFn with
      | none => exact ⟨_, .stop main, by simp [perform, main]⟩
      | some fn => exact ⟨_, .ret fn main, by simp [perform, main]⟩

theorem finishIo_eq {call : Call} {finish : Int32 → Bytes → CallResult × LogArgs}
    (half : call.wrapper.finish = some finish) (s : State) (ut : Ptr) (raw : Int32) (data : Bytes) :
    s.finishIo ut call raw data =
      (s.rrLogSyscall (finish raw data).2).returnCall ut call (finish raw data).1 := by
  simp [finishIo, half]

/-- The switch is logged unless it leads back to the same id. -/
def logSwitch (s : State) (toId : UInt64) : State :=
  if s.sched.currentId = toId then s else s.rrLogSched s.sched.currentId toId

/-- A failed submission leaves its entry behind. -/
def leave (s : State) (op : IoOp) : State :=
  { s with
    ring := s.ring.push op s.sched.currentId
    history := s.history ++ [.failed s.ring.fresh] }

/-- A successful submission hands the whole queue over and blocks the caller. -/
def hand (s : State) (op : IoOp) (call : Call) : State :=
  { s with
    ring := (s.ring.push op s.sched.currentId).submit
    sched := s.sched.rrSchedulerBlockCurrent (.io call s.ring.fresh)
    history := s.history ++
      (s.ring.push op s.sched.currentId).sq.map fun sqe => .issued sqe.serial }

/-- The signal read is submitted again, with whatever else is queued. -/
def handSignal (s : State) (fd : Int32) : State :=
  { s with
    ring := (s.ring.push (.read fd 128 0) rrSignalSentinel).submit
    history := s.history ++
      (s.ring.push (.read fd 128 0) rrSignalSentinel).sq.map fun sqe => .issued sqe.serial }

def leaveSignal (s : State) (fd : Int32) : State :=
  { s with ring := s.ring.push (.read fd 128 0) rrSignalSentinel }

theorem rearmSignalRead_cases (s : State) (submitted : Bool) :
    ((s.ring.signalFd = none ∨ s.ring.sq.length = ringEntries) ∧ s.rearmSignalRead submitted = s) ∨
    (∃ fd, s.ring.signalFd = some fd ∧ s.ring.sq.length ≠ ringEntries ∧
      s.rearmSignalRead submitted = if submitted then s.handSignal fd else s.leaveSignal fd) := by
  unfold rearmSignalRead
  cases armed : s.ring.signalFd with
  | none => exact Or.inl ⟨Or.inl rfl, rfl⟩
  | some fd =>
      have same : ∀ ring : Ring, ring.signalFd = some fd →
          { ring with signalFd := some fd } = ring := by
        rintro ⟨⟩ rfl
        rfl
      by_cases filled : s.ring.sq.length = ringEntries
      · refine Or.inl ⟨Or.inr filled, ?_⟩
        simp only [rrIoSubmitSignalRead, Ring.prepare, if_pos filled]
        rw [same s.ring armed]
      · refine Or.inr ⟨fd, rfl, filled, ?_⟩
        simp only [rrIoSubmitSignalRead, Ring.prepare, if_neg filled]
        rw [same (s.ring.push (.read fd 128 0) rrSignalSentinel).submit armed,
          same (s.ring.push (.read fd 128 0) rrSignalSentinel) armed]
        rfl

/-- A process with `RR_MODE=record` whose `rr_init` succeeded. -/
structure Records (s : State) : Prop where
  modeRecord : s.config.modeRecord = true
  modeReplay : s.config.modeReplay = false
  ready : s.config.runtimeReady = true
  ring : s.ring.ready = true

/-- Everything a recording process can do in one step. -/
inductive RecordStep (program : Program) (s : State) : Input → State → Prop where
  | perform (answer : Answer) (ut : Ptr) (u : Uthread) (sched : Sched)
    (user : s.sched.control = .user) (running : s.sched.running = some (ut, u))
    (performed : s.sched.Local s.config.stackSize ut u answer.create
      (program u.startFn u.ctx.replies) sched) :
    RecordStep program s (.act answer) { s with sched := sched }
  | immediate (answer : Answer) (ut : Ptr) (u : Uthread) (call : Call) (result : CallResult)
    (args : LogArgs) (user : s.sched.control = .user) (running : s.sched.running = some (ut, u))
    (next : program u.startFn u.ctx.replies = .call call)
    (done : call.wrapper.issue answer = .done result args) :
    RecordStep program s (.act answer) ((s.rrLogSyscall args).returnCall ut call result)
  | full (answer : Answer) (ut : Ptr) (u : Uthread) (call : Call) (op : IoOp)
    (finish : Int32 → Bytes → CallResult × LogArgs)
    (user : s.sched.control = .user) (running : s.sched.running = some (ut, u))
    (next : program u.startFn u.ctx.replies = .call call)
    (submits : call.wrapper.issue answer = .submit op)
    (half : call.wrapper.finish = some finish) (filled : s.ring.sq.length = ringEntries) :
    RecordStep program s (.act answer)
      ((s.rrLogSyscall (finish (-1) []).2).returnCall ut call (finish (-1) []).1)
  | refused (answer : Answer) (ut : Ptr) (u : Uthread) (call : Call) (op : IoOp)
    (finish : Int32 → Bytes → CallResult × LogArgs)
    (user : s.sched.control = .user) (running : s.sched.running = some (ut, u))
    (next : program u.startFn u.ctx.replies = .call call)
    (submits : call.wrapper.issue answer = .submit op)
    (half : call.wrapper.finish = some finish)
    (room : s.ring.sq.length ≠ ringEntries) (failed : answer.submit = false) :
    RecordStep program s (.act answer)
      (((s.leave op).rrLogSyscall (finish (-1) []).2).returnCall ut call (finish (-1) []).1)
  | submitted (answer : Answer) (ut : Ptr) (u : Uthread) (call : Call) (op : IoOp)
    (finish : Int32 → Bytes → CallResult × LogArgs)
    (user : s.sched.control = .user) (running : s.sched.running = some (ut, u))
    (next : program u.startFn u.ctx.replies = .call call)
    (submits : call.wrapper.issue answer = .submit op)
    (half : call.wrapper.finish = some finish)
    (room : s.ring.sq.length ≠ ringEntries) (accepted : answer.submit = true) :
    RecordStep program s (.act answer) (s.hand op call)
  | interrupted (answer : WaitAnswer) (idle : s.sched.control = .scheduler)
    (empty : s.sched.runqHead = none) (broken : answer.interrupted = true) :
    RecordStep program s (.loop answer) s
  | killed (answer : WaitAnswer) (cqe : Cqe) (rest : List Cqe)
    (idle : s.sched.control = .scheduler) (empty : s.sched.runqHead = none)
    (first : s.ring.cq = cqe :: rest) (sentinel : cqe.userData = rrSignalSentinel)
    (full : sizeofSiginfo ≤ cqe.res)
    (fatal : s.ring.ssiSigno = SIGINT ∨ s.ring.ssiSigno = SIGTERM) :
    RecordStep program s (.loop answer)
      { s.rrLogSignal s.ring.ssiSigno s.sched.currentId.toUInt32 with
        sched := { s.sched with control := .exited } }
  | signal (answer : WaitAnswer) (cqe : Cqe) (rest : List Cqe)
    (idle : s.sched.control = .scheduler) (empty : s.sched.runqHead = none)
    (first : s.ring.cq = cqe :: rest) (sentinel : cqe.userData = rrSignalSentinel)
    (full : sizeofSiginfo ≤ cqe.res)
    (harmless : ¬ (s.ring.ssiSigno = SIGINT ∨ s.ring.ssiSigno = SIGTERM)) :
    RecordStep program s (.loop answer)
      ((s.rrLogSignal s.ring.ssiSigno s.sched.currentId.toUInt32).rearmSignalRead
        answer.submit).cqeSeen
  | short (answer : WaitAnswer) (cqe : Cqe) (rest : List Cqe)
    (idle : s.sched.control = .scheduler) (empty : s.sched.runqHead = none)
    (first : s.ring.cq = cqe :: rest) (sentinel : cqe.userData = rrSignalSentinel)
    (short : ¬ sizeofSiginfo ≤ cqe.res) :
    RecordStep program s (.loop answer) (s.rearmSignalRead answer.submit).cqeSeen
  | wake (answer : WaitAnswer) (cqe : Cqe) (rest : List Cqe)
    (idle : s.sched.control = .scheduler) (empty : s.sched.runqHead = none)
    (first : s.ring.cq = cqe :: rest) (tagged : cqe.userData ≠ rrSignalSentinel) :
    RecordStep program s (.loop answer)
      { s with
        sched := s.sched.rrSchedulerWakeById cqe.userData cqe.res none 0
        ring := s.ring.cqeSeen
        history := s.history ++ if s.wakes cqe then [.resumed cqe.serial] else [] }
  | dispatch (answer : WaitAnswer) (next : Ptr) (u : Uthread)
    (idle : s.sched.control = .scheduler) (head : s.sched.runqHead = some next)
    (found : s.sched.runqPopFront.2.heap next = some u) (runnable : u.state = .runnable) :
    RecordStep program s (.loop answer) ((s.logSwitch u.id).switchTo s.sched.runqPopFront.2 next u)
  | post (index : Nat) (res : Int32) (data : Bytes) (sqe : Sqe)
    (live : s.sched.control = .user ∨ s.sched.control = .scheduler)
    (flying : s.ring.inflight[index]? = some sqe) :
    RecordStep program s (.post index res data)
      { s with
        ring := s.ring.complete index sqe res data
        history := s.history ++ [.completed sqe.serial res] }

theorem recordStep_act {program : Program} {s t : State} {answer : Answer} (records : s.Records)
    (user : s.sched.control = .user) (taken : s.act program answer = some t) :
    RecordStep program s (.act answer) t := by
  simp only [act, records.ready, ↓reduceIte, Option.map_eq_some_iff, Prod.exists] at taken
  obtain ⟨ut, u, running, rfl⟩ := taken
  by_cases isCall : ∃ call, program u.startFn u.ctx.replies = .call call
  · obtain ⟨call, next⟩ := isCall
    have active : s.config.rrActive = true := by
      simp [Config.rrActive, records.modeRecord, records.ready]
    simp only [next, State.perform, wrappedCall, active, ↓reduceIte]
    cases issued : call.wrapper.issue answer with
    | done result args => exact .immediate answer ut u call result args user running next issued
    | submit op =>
        obtain ⟨finish, half⟩ := Call.finish_of_submit issued
        simp only [submitAndBlock, Ring.prepare]
        by_cases filled : s.ring.sq.length = ringEntries
        · rw [if_pos filled]
          simp only [finishIo_eq half]
          exact .full answer ut u call op finish user running next issued half filled
        · rw [if_neg filled]
          simp only
          split
          · rename_i accepted
            exact .submitted answer ut u call op finish user running next issued half filled
              accepted
          · rename_i declined
            rw [finishIo_eq half]
            exact .refused answer ut u call op finish user running next issued half filled
              (by simpa using declined)
  · have apart : ∀ call, program u.startFn u.ctx.replies ≠ .call call :=
      fun call same => isCall ⟨call, same⟩
    obtain ⟨sched, performed, same⟩ := perform_local running answer apart
    rw [same]
    exact .perform answer ut u sched user running performed

theorem recordStep_signal {program : Program} {s : State} (answer : WaitAnswer) {cqe : Cqe}
    {rest : List Cqe} (idle : s.sched.control = .scheduler) (empty : s.sched.runqHead = none)
    (first : s.ring.cq = cqe :: rest) (sentinel : cqe.userData = rrSignalSentinel) :
    RecordStep program s (.loop answer) (s.signalCompletion cqe answer) := by
  unfold signalCompletion processSignal
  by_cases full : sizeofSiginfo ≤ cqe.res
  · by_cases fatal : s.ring.ssiSigno = SIGINT ∨ s.ring.ssiSigno = SIGTERM
    · simp only [if_pos full, rrSignalProcess, if_pos fatal, ↓reduceIte]
      exact .killed answer cqe rest idle empty first sentinel full fatal
    · have running : (s.rrLogSignal s.ring.ssiSigno s.sched.currentId.toUInt32).sched.control ≠
          .exited := by
        rw [(rrLogSignal_same _ _ _).sched, idle]
        simp
      simp only [if_pos full, rrSignalProcess, if_neg fatal, if_neg running]
      exact .signal answer cqe rest idle empty first sentinel full fatal
  · have running : s.sched.control ≠ .exited := by simp [idle]
    simp only [if_neg full, if_neg running]
    exact .short answer cqe rest idle empty first sentinel full

theorem recordStep_loop {program : Program} {s t : State} {answer : WaitAnswer}
    (records : s.Records) (inv : s.sched.QueueInvariant) (idle : s.sched.control = .scheduler)
    (taken : s.schedulerLoop answer = some t) : RecordStep program s (.loop answer) t := by
  unfold schedulerLoop at taken
  cases head : s.sched.runqHead with
  | none =>
      simp only [Sched.runqPopFront, head, rrIoWait, records.ring, Bool.not_true,
        Bool.false_or] at taken
      split at taken
      · rename_i broken
        cases taken
        exact .interrupted answer idle head broken
      · split at taken
        · cases taken
        · rename_i cqe rest first
          split at taken
          · rename_i sentinel
            cases taken
            exact recordStep_signal answer idle head first sentinel
          · rename_i tagged
            cases taken
            exact .wake answer cqe rest idle head first tagged
  | some next =>
      obtain ⟨v, known, runnable, _⟩ := inv.next_eq head
      obtain ⟨u, found, rfl⟩ :=
        Sched.of_core_some (s := s.sched.runqPopFront.2) (Sched.runqPopFront_core s.sched ▸ known)
      have popped : s.sched.runqPopFront = (some next, s.sched.runqPopFront.2) :=
        Prod.ext (Sched.runqPopFront_links head).1 rfl
      have active : s.config.rrReplayActive = false := by
        simp [Config.rrReplayActive, records.modeReplay]
      have ready : u.state = .runnable := runnable
      rw [popped] at taken
      simp only [found, ready, ne_eq, not_true_eq_false, ↓reduceIte, active,
        Bool.false_eq_true] at taken
      have result : RecordStep program s (.loop answer) _ :=
        .dispatch answer next u idle head found ready
      rw [logSwitch] at result
      split at taken
      · rename_i same
        cases taken
        rwa [if_pos same] at result
      · rename_i apart
        cases taken
        rwa [if_neg apart] at result

theorem recordStep_of_step {program : Program} {s t : State} {input : Input}
    (records : s.Records) (inv : s.sched.QueueInvariant) (taken : step program s input = some t) :
    RecordStep program s input t := by
  cases input with
  | act answer =>
      simp only [step, Option.ite_none_right_eq_some] at taken
      exact recordStep_act records taken.1 taken.2
  | loop answer =>
      simp only [step, Option.ite_none_right_eq_some] at taken
      exact recordStep_loop records inv taken.1 taken.2
  | post index res data =>
      simp only [step, Option.ite_none_right_eq_some] at taken
      obtain ⟨live, taken⟩ := taken
      obtain ⟨sqe, flying, rfl⟩ := Option.map_eq_some_iff.mp taken
      exact .post index res data sqe live flying

/-- A process with `RR_MODE=replay` whose `rr_init` succeeded. -/
structure Replays (s : State) : Prop where
  modeRecord : s.config.modeRecord = false
  modeReplay : s.config.modeReplay = true
  ready : s.config.runtimeReady = true
  ring : s.ring.ready = false
  inflight : s.ring.inflight = []

/-- Everything a replaying process can do in one step. -/
inductive ReplayStep (program : Program) (s : State) : Input → State → Prop where
  | perform (answer : Answer) (ut : Ptr) (u : Uthread) (sched : Sched)
    (user : s.sched.control = .user) (running : s.sched.running = some (ut, u))
    (performed : s.sched.Local s.config.stackSize ut u answer.create
      (program u.startFn u.ctx.replies) sched) :
    ReplayStep program s (.act answer) { s with sched := sched }
  | answered (answer : Answer) (ut : Ptr) (u : Uthread) (call : Call) (reader : Reader)
    (event : ReplayEvent) (user : s.sched.control = .user)
    (running : s.sched.running = some (ut, u))
    (next : program u.startFn u.ctx.replies = .call call)
    (matched : s.reader.rrReplayNextSyscall call.wrapper.nr s.sched.currentId =
      (reader, .ok event)) :
    ReplayStep program s (.act answer) ({ s with reader := reader }.returnCall ut call
      (call.wrapper.replay s.config.replayTimeVirtual answer.real event))
  | refused (answer : Answer) (ut : Ptr) (u : Uthread) (call : Call) (reader : Reader)
    (errno : Int32) (user : s.sched.control = .user)
    (running : s.sched.running = some (ut, u))
    (next : program u.startFn u.ctx.replies = .call call)
    (missed : s.reader.rrReplayNextSyscall call.wrapper.nr s.sched.currentId =
      (reader, .error errno)) :
    ReplayStep program s (.act answer)
      (({ s with reader := reader }.observe [.mismatch]).returnCall ut call
        (call.wrapper.refused errno))
  | idle (answer : WaitAnswer) (idle : s.sched.control = .scheduler)
    (empty : s.sched.runqHead = none) : ReplayStep program s (.loop answer) s
  | again (answer : WaitAnswer) (next : Ptr) (u : Uthread)
    (idle : s.sched.control = .scheduler) (head : s.sched.runqHead = some next)
    (found : s.sched.runqPopFront.2.heap next = some u) (runnable : u.state = .runnable)
    (same : s.sched.currentId = u.id) :
    ReplayStep program s (.loop answer) (s.switchTo s.sched.runqPopFront.2 next u)
  | switch (answer : WaitAnswer) (next : Ptr) (u : Uthread) (reader : Reader)
    (idle : s.sched.control = .scheduler) (head : s.sched.runqHead = some next)
    (found : s.sched.runqPopFront.2.heap next = some u) (runnable : u.state = .runnable)
    (apart : s.sched.currentId ≠ u.id)
    (expected : s.reader.rrReplayExpectSched s.sched.currentId u.id = (reader, .ok ())) :
    ReplayStep program s (.loop answer)
      ({ s with reader := reader }.switchTo s.sched.runqPopFront.2 next u)
  | abort (answer : WaitAnswer) (next : Ptr) (u : Uthread) (reader : Reader) (errno : Int32)
    (idle : s.sched.control = .scheduler) (head : s.sched.runqHead = some next)
    (found : s.sched.runqPopFront.2.heap next = some u) (runnable : u.state = .runnable)
    (apart : s.sched.currentId ≠ u.id)
    (unexpected : s.reader.rrReplayExpectSched s.sched.currentId u.id = (reader, .error errno)) :
    ReplayStep program s (.loop answer)
      ({ s with reader := reader, sched := { s.sched with control := .aborted } }.observe
        [.mismatch])

theorem replayStep_act {program : Program} {s t : State} {answer : Answer} (replays : s.Replays)
    (user : s.sched.control = .user) (taken : s.act program answer = some t) :
    ReplayStep program s (.act answer) t := by
  simp only [act, replays.ready, ↓reduceIte, Option.map_eq_some_iff, Prod.exists] at taken
  obtain ⟨ut, u, running, rfl⟩ := taken
  by_cases isCall : ∃ call, program u.startFn u.ctx.replies = .call call
  · obtain ⟨call, next⟩ := isCall
    have inactive : s.config.rrActive = false := by simp [Config.rrActive, replays.modeRecord]
    have active : s.config.rrReplayActive = true := by
      simp [Config.rrReplayActive, replays.modeReplay, replays.ready]
    simp only [next, State.perform, wrappedCall, inactive, active, Bool.false_eq_true, ↓reduceIte]
    split
    · rename_i reader errno missed
      exact .refused answer ut u call reader errno user running next missed
    · rename_i reader event matched
      exact .answered answer ut u call reader event user running next matched
  · have apart : ∀ call, program u.startFn u.ctx.replies ≠ .call call :=
      fun call same => isCall ⟨call, same⟩
    obtain ⟨sched, performed, same⟩ := perform_local running answer apart
    rw [same]
    exact .perform answer ut u sched user running performed

theorem replayStep_loop {program : Program} {s t : State} {answer : WaitAnswer}
    (replays : s.Replays) (inv : s.sched.QueueInvariant) (idle : s.sched.control = .scheduler)
    (taken : s.schedulerLoop answer = some t) : ReplayStep program s (.loop answer) t := by
  unfold schedulerLoop at taken
  cases head : s.sched.runqHead with
  | none =>
      simp only [Sched.runqPopFront, head, rrIoWait, replays.ring, Bool.not_false, Bool.true_or,
        ↓reduceIte, Option.some.injEq] at taken
      subst taken
      exact .idle answer idle head
  | some next =>
      obtain ⟨v, known, runnable, _⟩ := inv.next_eq head
      obtain ⟨u, found, rfl⟩ :=
        Sched.of_core_some (s := s.sched.runqPopFront.2) (Sched.runqPopFront_core s.sched ▸ known)
      have popped : s.sched.runqPopFront = (some next, s.sched.runqPopFront.2) :=
        Prod.ext (Sched.runqPopFront_links head).1 rfl
      have active : s.config.rrReplayActive = true := by
        simp [Config.rrReplayActive, replays.modeReplay, replays.ready]
      have ready : u.state = .runnable := runnable
      rw [popped] at taken
      simp only [found, ready, ne_eq, not_true_eq_false, ↓reduceIte, active] at taken
      split at taken
      · rename_i same
        cases taken
        exact .again answer next u idle head found ready same
      · rename_i apart
        split at taken
        · rename_i reader errno unexpected
          cases taken
          exact .abort answer next u reader errno idle head found ready apart unexpected
        · rename_i reader expected
          cases taken
          exact .switch answer next u reader idle head found ready apart expected

theorem replayStep_of_step {program : Program} {s t : State} {input : Input}
    (replays : s.Replays) (inv : s.sched.QueueInvariant) (taken : step program s input = some t) :
    ReplayStep program s input t := by
  cases input with
  | act answer =>
      simp only [step, Option.ite_none_right_eq_some] at taken
      exact replayStep_act replays taken.1 taken.2
  | loop answer =>
      simp only [step, Option.ite_none_right_eq_some] at taken
      exact replayStep_loop replays inv taken.1 taken.2
  | post index res data =>
      simp [step, replays.inflight] at taken

end State

end Librr
