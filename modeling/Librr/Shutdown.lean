import Librr.Deviation
import Librr.Startup

set_option autoImplicit false

/-! The life of a process from `rr_init` to `rr_shutdown`, in every mode, with what the runtime
takes from the kernel and gives back. -/
namespace Librr

/-- `tfd` is the local variable of that name in the suspended `nanosleep` of a uthread. -/
structure Life extends Process where
  tfd : Ptr → Option Int32

namespace Process

def onMemory (p : Process) : Sched.MemoryCall → Process
  | .mmap addr size => p.acquire (.mapping addr size)
  | .munmap addr size => p.release (.mapping addr size)

/-- `uthread_create` with the account of the stacks. -/
def uthreadCreate (p : Process) (fn : Option Fn) (answer : CreateAnswer) : Process :=
  let created := p.runtime.sched.rrUthreadCreate p.runtime.config.stackSize fn answer
  (created.memory.foldl onMemory p).withSched created.sched

end Process

namespace Life

def onProcess (l : Life) (change : Process → Process) : Life :=
  { l with toProcess := change l.toProcess }

def acquire (l : Life) (r : Resource) : Life := l.onProcess (·.acquire r)

def release (l : Life) (r : Resource) : Life := l.onProcess (·.release r)

def withRuntime (l : Life) (runtime : State) : Life :=
  l.onProcess fun p => { p with runtime := runtime }

def rrInit (l : Life) (answer : InitAnswer) : Option Life :=
  (l.toProcess.rrInit answer).map fun p => l.onProcess fun _ => p

def rrShutdown (l : Life) : Option Life :=
  l.toProcess.rrShutdown.map fun p => l.onProcess fun _ => p

/-- The timer of the record path of `nanosleep`. It is closed again at once unless the caller
is suspended. -/
def openTimer (l : Life) (ut : Ptr) (req : Timespec) (answer : Answer) : Life :=
  match answer.timerfdCreate with
  | .error _ => l
  | .ok tfd =>
    let opened := l.acquire (.descriptor tfd)
    match answer.timerfdSettime req with
    | some _ => opened.release (.descriptor tfd)
    | none =>
      match l.runtime.ring.prepare (.read tfd 8 0) l.runtime.sched.currentId with
      | none => opened.release (.descriptor tfd)
      | some _ =>
        if answer.submit then { opened with tfd := Function.update l.tfd ut (some tfd) }
        else opened.release (.descriptor tfd)

/-- The end of a `nanosleep` that was suspended. -/
def closeTimer (l : Life) (ut : Ptr) : Life :=
  match l.tfd ut with
  | none => l
  | some tfd =>
    { l.release (.descriptor tfd) with tfd := Function.update l.tfd ut none }

/-- What an action of the running uthread takes and gives back. -/
def settleAct (program : Program) (l : Life) (answer : Answer) : Life :=
  if !l.runtime.config.runtimeReady then l
  else
    match l.runtime.sched.running with
    | none => l
    | some (ut, u) =>
      match program u.startFn u.ctx.replies with
      | .create fn => l.onProcess (·.uthreadCreate fn answer.create)
      | .call (.nanosleep req _) =>
        if l.runtime.config.rrActive then l.openTimer ut req answer else l
      | _ => l

/-- What an iteration of `scheduler_loop` gives back: the uthread that goes on may be in a
`nanosleep`. -/
def settleLoop (l : Life) : Life :=
  match l.runtime.sched.runqPopFront with
  | (none, _) => l
  | (some next, popped) =>
    match popped.heap next with
    | none => l
    | some u =>
      if u.state ≠ .runnable then l
      else
        match u.ctx.frame with
        | .io (.nanosleep _ _) _ => l.closeTimer next
        | _ => l

def settle (program : Program) (l : Life) : Input → Life
  | .act answer => l.settleAct program answer
  | .loop _ => l.settleLoop
  | .post _ _ _ => l

/-- The descriptor that a step closes for the program. In record mode it is the kernel that does
so when it completes the operation, in replay nobody does. -/
def closes (program : Program) (l : Life) : Input → Option Int32
  | .act answer =>
    if l.runtime.config.rrActive || l.runtime.config.rrReplayActive then none
    else
      match l.runtime.sched.running with
      | none => none
      | some (_, u) =>
        match program u.startFn u.ctx.replies with
        | .call (.close fd) => if answer.real.rc = 0 then some fd else none
        | _ => none
  | .loop _ => none
  | .post index res _ =>
    match l.runtime.ring.inflight[index]? with
    | some ⟨.close fd, _, _⟩ => if res = 0 then some fd else none
    | _ => none

/-- What the program closes is gone, though the runtime may still refer to it. -/
def lose (l : Life) : Option Int32 → Life
  | none => l
  | some fd => l.onProcess fun p => { p with held := p.held.map (·.erase (.descriptor fd)) }

/-- A step of the runtime, with the account. -/
def step (program : Program) (l : Life) (input : Input) : Option Life :=
  (Librr.step program l.runtime input).map
    ((l.lose (l.closes program input)).settle program input).withRuntime

/-- A process that has just loaded the runtime, with any signal state. -/
def atLoad (mask : SigSet) (altstack : AltStack) (segv : Sigaction) (config : Config) : Life where
  toProcess := { Process.atLoad mask altstack segv config.stackSize with
    runtime := { State.fresh config with sched := .atLoad } }
  tfd _ := none

end Life

end Librr
