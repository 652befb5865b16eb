import Librr.Replay
import Librr.Ring
import Librr.Scheduler

set_option autoImplicit false

namespace Librr

/-- What can be observed of a run, in order. A switch is seen with the point of
the uthread that is left: the number of actions it has finished, and the one it
is inside of. The operations of io_uring are named by their serials. -/
inductive Observation where
  | switched (fromId toId : UInt64) (finished : Nat) (inside : Option Action)
  | returned (id : UInt64) (call : Call) (result : CallResult)
  | mismatch
  | failed (serial : Nat)
  | issued (serial : Nat)
  | completed (serial : Nat) (res : Int32)
  | resumed (serial : Nat)
  | answered (serial : Nat) (raw : Int32)
  deriving DecidableEq, Repr

/-- The process: the runtime's static variables, the events logged so far, and
the context that runs in a process whose runtime is not ready. -/
structure State where
  config : Config
  sched : Sched
  ring : Ring
  reader : Reader
  seq : UInt64
  log : List Event
  host : Context
  history : List Observation

/-- What the world answers to an iteration of `scheduler_loop` that waits: whether
the wait is interrupted, and whether the signal read can be submitted again. -/
structure WaitAnswer where
  interrupted : Bool
  submit : Bool
  deriving DecidableEq, Repr

namespace State

def observe (s : State) (seen : List Observation) : State :=
  { s with history := s.history ++ seen }

def appendEvent (s : State) (uthreadId : UInt64) (payload : Payload) : State :=
  { s with seq := s.seq + 1, log := s.log ++ [⟨s.seq + 1, uthreadId, payload⟩] }

/-- The event counts as logged at once. The buffer it goes to, the writes that empty it and what
they leave in `errno` are those of the process with its log file. -/
def rrLogSyscall (s : State) (args : LogArgs) : State :=
  if s.config.rrActive then s.appendEvent s.sched.currentId args.payload else s

def rrLogSignal (s : State) (signo activeUthread : UInt32) : State :=
  if s.config.rrActive then s.appendEvent s.sched.currentId (.signal signo activeUthread) else s

def rrLogSched (s : State) (fromId toId : UInt64) : State :=
  if s.config.modeRecord then s.appendEvent toId (.sched fromId toId) else s

/-- A wrapper returns to the running uthread. -/
def returnCall (s : State) (ut : Ptr) (call : Call) (result : CallResult) : State :=
  { s with
    sched := s.sched.reply ut (.call call) (.returned result)
    history := s.history ++ [.returned s.sched.currentId call result] }

/-- A wrapper of the record path after `rr_io_submit_*_and_wait`. -/
def finishIo (s : State) (ut : Ptr) (call : Call) (raw : Int32) (data : Bytes) : State :=
  match call.wrapper.finish with
  | none => s
  | some finish => (s.rrLogSyscall (finish raw data).2).returnCall ut call (finish raw data).1

/-- `rr_io_submit_*_and_wait`: the two failures return -1 at once, and only the
second leaves an entry in the queue. -/
def submitAndBlock (s : State) (ut : Ptr) (call : Call) (op : IoOp) (submitted : Bool) : State :=
  match s.ring.prepare op s.sched.currentId with
  | none => s.finishIo ut call (-1) []
  | some ring =>
    if submitted then
      { s with
        ring := ring.submit
        sched := s.sched.rrSchedulerBlockCurrent (.io call s.ring.fresh)
        history := s.history ++ ring.sq.map fun sqe => .issued sqe.serial }
    else
      finishIo { s with ring := ring, history := s.history ++ [.failed s.ring.fresh] }
        ut call (-1) []

/-- A call of a wrapped function while the runtime is ready. -/
def wrappedCall (s : State) (ut : Ptr) (call : Call) (answer : Answer) : State :=
  if s.config.rrActive then
    match call.wrapper.issue answer with
    | .done result args => (s.rrLogSyscall args).returnCall ut call result
    | .submit op => s.submitAndBlock ut call op answer.submit
  else if s.config.rrReplayActive then
    match s.reader.rrReplayNextSyscall call.wrapper.nr s.sched.currentId with
    | (reader, .error errno) =>
      ({ s with reader := reader }.observe [.mismatch]).returnCall ut call
        (call.wrapper.refused errno)
    | (reader, .ok event) =>
      { s with reader := reader }.returnCall ut call
        (call.wrapper.replay s.config.replayTimeVirtual answer.real event)
  else s.returnCall ut call (call.wrapper.plain answer.real)

/-- The running uthread performs its next action. The return of `main` ends the
process, that of another start routine its uthread. -/
def perform (s : State) (ut : Ptr) (u : Uthread) (answer : Answer) : Action → State
  | .create fn =>
    let created := s.sched.uthreadCreate s.config.stackSize fn answer.create
    { s with sched := created.1.reply ut (.create fn) (.created created.2) }
  | .yield => { s with sched := s.sched.rrSchedulerYieldCurrent }
  | .join id out =>
    match s.sched.rrUthreadJoin id out with
    | (sched, none) => { s with sched := sched }
    | (sched, some reply) => { s with sched := sched.reply ut (.join id out) reply }
  | .exit value => { s with sched := s.sched.rrSchedulerExitCurrent value }
  | .call call => s.wrappedCall ut call answer
  | .ret =>
    match u.startFn with
    | none => { s with sched := { s.sched with control := .exited } }
    | some _ => { s with sched := s.sched.rrSchedulerExitCurrent 0 }

/-- The same for a process whose runtime did not start: the functions of `rr.h`
refuse, and the wrapped ones are those of libc. -/
def performHost (s : State) (answer : Answer) : Action → State
  | .create fn => { s with host := s.host.finish (.create fn) (.created 0) }
  | .yield => { s with host := s.host.finish .yield .yielded }
  | .join id out =>
    { s with host := s.host.finish (.join id out) (.joined (-1) (some Errno.ENOSYS) none) }
  | .exit _ => { s with sched := { s.sched with control := .exited } }
  | .call call =>
    { s with
      host := s.host.finish (.call call) (.returned (call.wrapper.plain answer.real))
      history := s.history ++ [.returned 0 call (call.wrapper.plain answer.real)] }
  | .ret => { s with sched := { s.sched with control := .exited } }

def act (program : Program) (s : State) (answer : Answer) : Option State :=
  if s.config.runtimeReady then
    s.sched.running.map fun (ut, u) =>
      s.perform ut u answer (program u.startFn u.ctx.replies)
  else some (s.performHost answer (program none s.host.replies))

/-- The uthread that was switched to goes on behind its `swapcontext`. -/
def resume (s : State) (ut : Ptr) (u : Uthread) : State :=
  match u.ctx.frame with
  | .user => s
  | .yielding => { s with sched := s.sched.reply ut .yield .yielded }
  | .joining id out target =>
    let value := if out then (s.sched.heap target).map Uthread.retval else none
    { s with sched := s.sched.reply ut (.join id out) (.joined 0 none value) }
  | .io call serial =>
    (s.observe [.answered serial u.ioResult]).finishIo ut call u.ioResult (s.ring.written serial)
  | .exiting _ => s

/-- What is seen of a switch from the current uthread to another one. -/
def switchSeen (s : State) (next : Ptr) (toId : UInt64) : List Observation :=
  match s.sched.running with
  | none => []
  | some (ut, u) =>
    if ut = next then []
    else [.switched u.id toId u.ctx.trace.length u.ctx.frame.action]

/-- The end of an iteration of `scheduler_loop`, from the checked event on. -/
def switchTo (s : State) (popped : Sched) (next : Ptr) (u : Uthread) : State :=
  resume { s with
    sched := popped.dispatch next
    history := s.history ++ s.switchSeen next u.id } next u

def rrIoSubmitSignalRead (s : State) (fd : Int32) (submitted : Bool) : State :=
  match s.ring.prepare (.read fd 128 0) rrSignalSentinel with
  | none => { s with ring := { s.ring with signalFd := some fd } }
  | some ring =>
    if submitted then
      { s with
        ring := { ring.submit with signalFd := some fd }
        history := s.history ++ ring.sq.map fun sqe => .issued sqe.serial }
    else { s with ring := { ring with signalFd := some fd } }

/-- SIGINT and SIGTERM flush the log and end the process. -/
def rrSignalProcess (s : State) : State :=
  if s.ring.ssiSigno = SIGINT ∨ s.ring.ssiSigno = SIGTERM then
    { s.rrLogSignal s.ring.ssiSigno s.sched.currentId.toUInt32 with
      sched := { s.sched with control := .exited } }
  else s.rrLogSignal s.ring.ssiSigno s.sched.currentId.toUInt32

/-- Only a full read holds a signal. -/
def processSignal (s : State) (cqe : Cqe) : State :=
  if sizeofSiginfo ≤ cqe.res then s.rrSignalProcess else s

def rearmSignalRead (s : State) (submitted : Bool) : State :=
  match s.ring.signalFd with
  | none => s
  | some fd => s.rrIoSubmitSignalRead fd submitted

def cqeSeen (s : State) : State := { s with ring := s.ring.cqeSeen }

/-- A completed signal read is processed and submitted again. -/
def signalCompletion (s : State) (cqe : Cqe) (answer : WaitAnswer) : State :=
  if (s.processSignal cqe).sched.control = .exited then s.processSignal cqe
  else ((s.processSignal cqe).rearmSignalRead answer.submit).cqeSeen

/-- Whether a completion finds a uthread to resume. -/
def wakes (s : State) (cqe : Cqe) : Bool :=
  match s.sched.rrSchedulerFind cqe.userData with
  | none => false
  | some (_, u) => u.state = .blocked

/-- `io_uring_wait_cqe` sleeps, and the step is not possible, until a completion is
there or a signal interrupts it. Without a ring the call fails at once. -/
def rrIoWait (s : State) (answer : WaitAnswer) : Option State :=
  if !s.ring.ready || answer.interrupted then some s
  else
    match s.ring.cq with
    | [] => none
    | cqe :: _ =>
      if cqe.userData = rrSignalSentinel then some (s.signalCompletion cqe answer)
      else
        some { s with
          sched := s.sched.rrSchedulerWakeById cqe.userData cqe.res none 0
          ring := s.ring.cqeSeen
          history := s.history ++ if s.wakes cqe then [.resumed cqe.serial] else [] }

/-- One iteration of `scheduler_loop`. A switch that replay does not find in the
log aborts the process, which then has no run queue to look at. -/
def schedulerLoop (s : State) (answer : WaitAnswer) : Option State :=
  match s.sched.runqPopFront with
  | (none, _) => s.rrIoWait answer
  | (some next, popped) =>
    match popped.heap next with
    | none => none
    | some u =>
      if u.state ≠ .runnable then some { s with sched := popped }
      else if s.sched.currentId = u.id then some (s.switchTo popped next u)
      else if s.config.rrReplayActive then
        match s.reader.rrReplayExpectSched s.sched.currentId u.id with
        | (reader, .error _) =>
          some ({ s with
            reader := reader
            sched := { s.sched with control := .aborted } }.observe [.mismatch])
        | (reader, .ok ()) => some ({ s with reader := reader }.switchTo popped next u)
      else some ((s.rrLogSched s.sched.currentId u.id).switchTo popped next u)

end State

/-- One step: the running uthread performs an action, `scheduler_loop` makes an
iteration, or the kernel completes the operation at `index`. -/
inductive Input where
  | act (answer : Answer)
  | loop (answer : WaitAnswer)
  | post (index : Nat) (res : Int32) (data : Bytes)

def step (program : Program) (s : State) : Input → Option State
  | .act answer => if s.sched.control = .user then s.act program answer else none
  | .loop answer => if s.sched.control = .scheduler then s.schedulerLoop answer else none
  | .post index res data =>
    if s.sched.control = .user ∨ s.sched.control = .scheduler then
      s.ring.inflight[index]?.map fun sqe =>
        { s with
          ring := s.ring.complete index sqe res data
          history := s.history ++ [.completed sqe.serial res] }
    else none

/-- A world in which every call succeeds and the real functions return 0. -/
def Answer.calm : Answer where
  create := ⟨true, 4096, some 65536, true, true, true, true, true, true⟩
  real := ⟨0, 0, [], []⟩
  submit := true
  timerfdCreate := .ok 9
  timerfdSettime _ := none

def WaitAnswer.calm : WaitAnswer := ⟨false, true⟩

namespace State

/-- The static variables as `rr_init` finds them, the mode parsed. -/
def fresh (config : Config) : State where
  config := config
  sched := Sched.afterInit
  ring := .absent
  reader := .closed
  seq := 0
  log := []
  host := .start
  history := []

def markRuntimeReady (s : State) : State :=
  { s with config := { s.config with runtimeReady := true } }

/-- After a successful `rr_init` in record mode: the signal read is submitted and
the switch to the main thread is logged. -/
def recordStart (stackSize : Nat) (signalFd : Int32) : State :=
  let s := fresh ⟨true, false, true, false, stackSize⟩
  (({ s with ring := { s.ring with ready := true } }.rrIoSubmitSignalRead signalFd true).rrLogSched
    0 1).markRuntimeReady

/-- After `rr_init` with another or no `RR_MODE`: the scheduler works, and nothing is
recorded or replayed. -/
def passthroughStart (stackSize : Nat) : State :=
  (fresh ⟨false, false, true, false, stackSize⟩).markRuntimeReady

/-- After `rr_init` in replay mode. Where the log cannot be read or does not begin
with the switch to the main thread, the runtime stays not ready. -/
def replayStart (stackSize : Nat) (virtualTime : Bool) (file : Option Bytes) : State :=
  let s := fresh ⟨false, true, virtualTime, false, stackSize⟩
  match Reader.rrReplayInit file with
  | none => s.observe [.mismatch]
  | some reader =>
    match reader.rrReplayExpectSched 0 1 with
    | (_, .error _) => s.observe [.mismatch]
    | (reader, .ok ()) => { s with reader := reader }.markRuntimeReady

/-- The log file after the recorder has flushed its buffer. -/
def flushedLog (startTime : UInt64) (pid : UInt32) (log : List Event) : Bytes :=
  (Header.recorded startTime pid).encode ++ log.flatMap Event.encode

end State

end Librr
