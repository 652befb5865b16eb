import Librr.Runtime
import Librr.Recorder

set_option autoImplicit false

namespace Librr

def rrSchedStackSize : Nat := 1024 * 1024

/-- A set of signals, one bit for each of 1 to 64. -/
abbrev SigSet := UInt64

/-- What `sigfillset` blocks: not the library's own signals 32 and 33, and not SIGKILL and
SIGSTOP, which the kernel takes out of every mask. -/
def sigfillset : SigSet := 0xfffffffe7ffbfeff

structure AltStack where
  sp : Nat
  size : Nat
  flags : UInt32
  deriving DecidableEq, Repr

inductive Handler where
  | default
  | ignore
  | segvHandler
  | other (addr : Nat)
  deriving DecidableEq, Repr

structure Sigaction where
  handler : Handler
  flags : UInt32
  mask : SigSet
  deriving DecidableEq, Repr

/-- `SA_SIGINFO | SA_ONSTACK` with an empty mask. -/
def segvAction : Sigaction := ⟨.segvHandler, 0x08000004, 0⟩

/-- What the runtime takes from the kernel. The rings of an `io_uring` and its descriptor
come and go together. -/
inductive Resource where
  | mapping (addr size : Nat)
  | descriptor (fd : Int32)
  | uring
  deriving DecidableEq, Repr

/-- The mapping that `rr_uthread_shutdown` releases with the record. -/
def Uthread.map (u : Uthread) : Option Resource :=
  if u.stackMap ≠ 0 ∧ 0 < u.stackMapSize then some (.mapping u.stackMap u.stackMapSize) else none

/-- The process at the time of the constructor: its signal state, what the runtime holds
(`none` after a release of something it does not hold), the static variables that refer
to it, and the state of the runtime proper. -/
structure Process where
  mask : SigSet
  altstack : AltStack
  segv : Sigaction
  held : Option (List Resource)
  logRing : Option Nat
  logFd : Option Int32
  altSp : Option Nat
  altSize : Nat
  signalFd : Option Int32
  schedStack : Option Nat
  replayFd : Option Int32
  runtime : State

/-- What the world answers to `rr_replay_init`: the descriptor of the log and what it reads
from it. -/
structure ReplayAnswer where
  dlsym : Bool
  openLog : Option (Int32 × Bytes)

/-- What the world answers to the calls of `rr_init`, in their order. `none` and `false`
are failures. `SIGSTKSZ` is a constant of the platform or a call of `sysconf`. -/
structure InitAnswer where
  dlsym : Bool
  mmapRing : Option Nat
  openLog : Option Int32
  startTime : UInt64
  pid : UInt32
  writes : List WriteAnswer
  sigstksz : Nat
  mmapAltstack : Option Nat
  sigaltstack : Bool
  sigaction : Bool
  sigprocmask : Bool
  signalfd : Option Int32
  queueInit : Bool
  getSqe : Bool
  submit : Bool
  replay : ReplayAnswer
  mmapSched : Option Nat
  schedContext : Bool
  calloc : Bool
  mainContext : Bool
  fsBase : Bool
  reallocThreads : Bool
  reallocAllocated : Bool

/-- The static variables of the scheduler before `rr_init`. -/
def Sched.atLoad : Sched where
  heap _ := none
  brk := 0
  runqHead := none
  runqTail := none
  current := none
  schedRunning := false
  threads := ⟨[], 0⟩
  allocated := ⟨[], 0⟩
  guardPages := ⟨[], 0⟩
  nextId := 1
  control := .user

namespace Process

def acquire (p : Process) (r : Resource) : Process :=
  { p with held := p.held.map (r :: ·) }

def release (p : Process) (r : Resource) : Process :=
  { p with held := p.held.bind fun held => if r ∈ held then some (held.erase r) else none }

def withSched (p : Process) (sched : Sched) : Process :=
  { p with runtime := { p.runtime with sched := sched } }

def withRing (p : Process) (ring : Ring) : Process :=
  { p with runtime := { p.runtime with ring := ring } }

def withReader (p : Process) (reader : Reader) : Process :=
  { p with runtime := { p.runtime with reader := reader } }

/-- `none` where the header is still being written. -/
def rrRecordInit (p : Process) (answer : InitAnswer) : Option (Process × Bool) :=
  if !answer.dlsym then some (p, false)
  else
    match answer.mmapRing with
    | none => some ({ p with logRing := none }, false)
    | some addr =>
      let mapped := { p.acquire (.mapping addr rrLogRingSize) with logRing := some addr }
      match answer.openLog with
      | none =>
        some ({ mapped.release (.mapping addr rrLogRingSize) with logFd := none, logRing := none },
          false)
      | some fd =>
        let opened := { mapped.acquire (.descriptor fd) with logFd := some fd }
        let header := (Header.recorded answer.startTime answer.pid).encode
        match (rrWriteDirect [] header answer.writes).2.1 with
        | .inside => none
        | .done => some (opened, true)
        | .failed =>
          let closed := { opened.release (.descriptor fd) with logFd := none }
          some ({ closed.release (.mapping addr rrLogRingSize) with logRing := none }, false)

/-- Nothing is logged before the runtime is ready, so there is nothing to flush. -/
def rrRecordShutdown (p : Process) : Process :=
  let closed :=
    match p.logFd with
    | none => p
    | some fd => { p.release (.descriptor fd) with logFd := none }
  match closed.logRing with
  | none => closed
  | some addr => { closed.release (.mapping addr rrLogRingSize) with logRing := none }

def rrSignalInit (p : Process) (answer : InitAnswer) : Process × Bool :=
  let size := 2 * answer.sigstksz
  match answer.mmapAltstack with
  | none => ({ p with altSp := none, altSize := size }, false)
  | some sp =>
    let mapped := { p.acquire (.mapping sp size) with altSp := some sp, altSize := size }
    if !answer.sigaltstack then
      ({ mapped.release (.mapping sp size) with altSp := none }, false)
    else
      let stacked := { mapped with altstack := ⟨sp, size, 0⟩ }
      if !answer.sigaction then (stacked, false)
      else
        let handled := { stacked with segv := segvAction }
        if !answer.sigprocmask then (handled, false)
        else
          let masked := { handled with mask := p.mask ||| sigfillset, signalFd := answer.signalfd }
          match answer.signalfd with
          | none => (masked, false)
          | some fd => (masked.acquire (.descriptor fd), true)

def rrSignalShutdown (p : Process) : Process :=
  let closed :=
    match p.signalFd with
    | none => p
    | some fd => { p.release (.descriptor fd) with signalFd := none }
  let unmapped :=
    match closed.altSp with
    | none => closed
    | some sp => { closed.release (.mapping sp closed.altSize) with altSp := none }
  unmapped.withSched { p.runtime.sched with guardPages := ⟨[], 0⟩ }

def rrIoInit (p : Process) (answer : InitAnswer) : Process × Bool :=
  if !answer.queueInit then (p, false)
  else ((p.acquire .uring).withRing { Ring.absent with ready := true }, true)

def rrIoShutdown (p : Process) : Process :=
  if p.runtime.ring.ready then
    (p.release .uring).withRing { Ring.absent with signalFd := p.runtime.ring.signalFd }
  else p

def rrIoSubmitSignalRead (p : Process) (answer : InitAnswer) (fd : Int32) : Process × Bool :=
  if !answer.getSqe then (p.withRing { p.runtime.ring with signalFd := some fd }, false)
  else ({ p with runtime := p.runtime.rrIoSubmitSignalRead fd answer.submit }, answer.submit)

def rrSchedulerInit (p : Process) (answer : InitAnswer) : Process × Bool :=
  match answer.mmapSched with
  | none => ({ p with schedStack := none }, false)
  | some addr =>
    let mapped := { p.acquire (.mapping addr rrSchedStackSize) with schedStack := some addr }
    if !answer.schedContext then
      ({ mapped.release (.mapping addr rrSchedStackSize) with schedStack := none }, false)
    else (mapped.withSched { p.runtime.sched with schedRunning := true }, true)

def rrSchedulerShutdown (p : Process) : Process :=
  let unmapped :=
    match p.schedStack with
    | none => p
    | some addr => { p.release (.mapping addr rrSchedStackSize) with schedStack := none }
  unmapped.withSched { p.runtime.sched with
    schedRunning := false
    runqHead := none
    runqTail := none
    threads := ⟨[], 0⟩ }

/-- The record is current before it is registered, and stays so when it is freed. -/
def rrUthreadInitMain (p : Process) (answer : InitAnswer) : Process × Bool :=
  if !answer.calloc || !answer.mainContext || !answer.fsBase then (p, false)
  else
    let ut := p.runtime.sched.brk
    let current := { p.runtime.sched with current := some ut }
    match current.rrSchedulerRegisterThread answer.reallocThreads ut with
    | none => (p.withSched current, false)
    | some registered =>
      match registered.rememberThread answer.reallocAllocated ut with
      | none => (p.withSched registered, false)
      | some remembered =>
        let record := { Uthread.zeroed with id := 1, state := .running }
        (p.withSched { remembered with
          heap := remembered.heap.set ut record, brk := ut + 1, nextId := 2 }, true)

def rrReplayInit (p : Process) (answer : ReplayAnswer) : Process × Bool :=
  if !answer.dlsym then (p, false)
  else
    match answer.openLog with
    | none => ({ p with replayFd := none }, false)
    | some (fd, file) =>
      let opened := { p.acquire (.descriptor fd) with replayFd := some fd }
      match Reader.rrReplayInit (some file) with
      | none => ({ opened.release (.descriptor fd) with replayFd := none }, false)
      | some reader => (opened.withReader reader, true)

def rrReplayShutdown (p : Process) : Process :=
  let closed :=
    match p.replayFd with
    | none => p
    | some fd => { p.release (.descriptor fd) with replayFd := none }
  closed.withReader .closed

/-- `free`. The account is void if the record is not allocated. -/
def free (p : Process) (ut : Ptr) : Process :=
  match p.runtime.sched.heap ut with
  | none => { p with held := none }
  | some _ =>
    p.withSched { p.runtime.sched with heap := Function.update p.runtime.sched.heap ut none }

/-- One pass of the loop of `rr_uthread_shutdown`. -/
def freeThread (p : Process) (ut : Ptr) : Process :=
  match (p.runtime.sched.heap ut).bind Uthread.map with
  | none => p.free ut
  | some stack => (p.release stack).free ut

def rrUthreadShutdown (p : Process) : Process :=
  let freed := p.runtime.sched.allocated.items.foldl freeThread p
  freed.withSched { freed.runtime.sched with allocated := ⟨[], 0⟩ }

/-- The shutdowns by mode that the failures of `rr_init` and `rr_shutdown` end with. -/
def closeMode (p : Process) : Process :=
  let closed :=
    if p.runtime.config.modeRecord then p.rrIoShutdown.rrSignalShutdown.rrRecordShutdown else p
  if closed.runtime.config.modeReplay then closed.rrReplayShutdown else closed

/-- `rr_init` behind `rr_uthread_init_main`: the first switch is logged, or looked up in the
log. -/
def startMain (p : Process) : Process :=
  let begun := { p with runtime := { p.runtime with seq := 0 }.rrLogSched 0 1 }
  if begun.runtime.config.modeReplay then
    match begun.runtime.reader.rrReplayExpectSched 0 1 with
    | (reader, .error _) =>
      (begun.withReader reader).rrUthreadShutdown.rrSchedulerShutdown.rrReplayShutdown
    | (reader, .ok ()) =>
      { begun with runtime := { begun.runtime with reader := reader }.markRuntimeReady }
  else { begun with runtime := begun.runtime.markRuntimeReady }

/-- `rr_init` from `rr_scheduler_init` on, in every mode. -/
def startScheduler (p : Process) (answer : InitAnswer) : Process :=
  match p.rrSchedulerInit answer with
  | (p, false) => p.closeMode
  | (p, true) =>
    match p.rrUthreadInitMain answer with
    | (p, false) => p.rrSchedulerShutdown.closeMode
    | (p, true) => p.startMain

/-- The end of the record part of `rr_init`, from `rr_io_init` on. -/
def startRing (p : Process) (answer : InitAnswer) : Process × Bool :=
  match p.rrIoInit answer with
  | (p, false) => (p.rrSignalShutdown.rrRecordShutdown, false)
  | (p, true) =>
    match p.rrIoSubmitSignalRead answer (p.signalFd.getD (-1)) with
    | (p, false) => (p.rrIoShutdown.rrSignalShutdown.rrRecordShutdown, false)
    | (p, true) => (p, true)

/-- The part of `rr_init` for `RR_MODE=record`. -/
def startRecord (p : Process) (answer : InitAnswer) : Option (Process × Bool) :=
  match p.rrRecordInit answer with
  | none => none
  | some (p, false) => some (p, false)
  | some (p, true) =>
    match p.rrSignalInit answer with
    | (p, false) => some (p.rrRecordShutdown, false)
    | (p, true) => some (p.startRing answer)

/-- `rr_init` in the mode of the configuration, or `none` where it has not returned. -/
def rrInit (p : Process) (answer : InitAnswer) : Option Process :=
  match if p.runtime.config.modeRecord then p.startRecord answer else some (p, true) with
  | none => none
  | some (p, false) => some p
  | some (p, true) =>
    match if p.runtime.config.modeReplay then p.rrReplayInit answer.replay else (p, true) with
    | (p, false) => some p
    | (p, true) => some (p.startScheduler answer)

/-- `rr_shutdown`, or `none` where it runs on the stack of a created uthread, which
`rr_uthread_shutdown` unmaps under it. What `rr_record_shutdown` still writes is no concern of
the account. -/
def rrShutdown (p : Process) : Option Process :=
  if !p.runtime.config.runtimeReady then some p
  else if p.runtime.sched.running.any fun caller => caller.2.map.isSome then none
  else
    let stopped := { p with
      runtime := { p.runtime with config := { p.runtime.config with runtimeReady := false } } }
    some stopped.rrUthreadShutdown.rrSchedulerShutdown.closeMode

/-- A process that has just loaded the runtime in record mode, with any signal state. -/
def atLoad (mask : SigSet) (altstack : AltStack) (segv : Sigaction) (stackSize : Nat) :
    Process where
  mask := mask
  altstack := altstack
  segv := segv
  held := some []
  logRing := none
  logFd := none
  altSp := none
  altSize := 0
  signalFd := none
  schedStack := none
  replayFd := none
  runtime := { State.fresh ⟨true, false, true, false, stackSize⟩ with sched := .atLoad }

/-- The process is as it was and the runtime holds nothing. -/
structure LeftAsFound (before after : Process) : Prop where
  mask : after.mask = before.mask
  altstack : after.altstack = before.altstack
  segv : after.segv = before.segv
  released : after.held = some []
  current : after.runtime.sched.current = none
  threads : after.runtime.sched.threads.items = []
  allocated : after.runtime.sched.allocated.items = []

end Process

end Librr
