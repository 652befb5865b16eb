import Librr.Base.IntrusiveQueue
import Mathlib.Algebra.Group.Int.Defs
import Mathlib.Algebra.Group.Nat.Defs

set_option autoImplicit false

namespace Librr

abbrev Bytes := List UInt8

/-- The address of a `uthread_t`. The null pointer is `none`. -/
abbrev Ptr := Nat

/-- A start routine together with the argument it is given. -/
abbrev Fn := Nat

namespace Errno

def EINTR : Int32 := 4
def EAGAIN : Int32 := 11
def EFAULT : Int32 := 14
def EBUSY : Int32 := 16
def EINVAL : Int32 := 22
def ENOSPC : Int32 := 28
def ESRCH : Int32 := 3
def EDEADLK : Int32 := 35
def ENOSYS : Int32 := 38
def ENODATA : Int32 := 61
def EPROTO : Int32 := 71

end Errno

-- x86-64 system call numbers of the wrapped functions.
namespace Nr

def read : Int32 := 0
def write : Int32 := 1
def close : Int32 := 3
def stat : Int32 := 4
def fstat : Int32 := 5
def lstat : Int32 := 6
def nanosleep : Int32 := 35
def getpid : Int32 := 39
def connect : Int32 := 42
def accept : Int32 := 43
def sendto : Int32 := 44
def recvfrom : Int32 := 45
def uname : Int32 := 63
def getcwd : Int32 := 79
def gettimeofday : Int32 := 96
def getuid : Int32 := 102
def clockGettime : Int32 := 228
def openat : Int32 := 257

end Nr

def rrSignalSentinel : UInt64 := 0xffffffffffffffff
def rrLogMagic : UInt32 := 0x52524C47
def rrLogVersion : UInt32 := 1
def rrLogRingSize : Nat := 4 * 1024 * 1024
def rrDefaultStackSize : Nat := 2 * 1024 * 1024

/-- Entries of the submission queue, as `rr_init` asks for them. -/
def ringEntries : Nat := 256

/-- `sizeof(struct signalfd_siginfo)`. -/
def sizeofSiginfo : Int32 := 128

def SIGINT : UInt32 := 2
def SIGTERM : UInt32 := 15

/-- Bytes of one `uthread_t`, the `ucontext_t` of 968 bytes included. -/
def sizeofUthread : Nat := 1136

structure Timespec where
  tvSec : Int
  tvNsec : Int
  deriving DecidableEq, Repr

/-- A call of a wrapped function. A buffer argument is the caller's object as it
stands before the call, and `none` where the pointer is null; a `path` that is
only passed on is its address. -/
inductive Call where
  | read (fd : Int32) (buf : Option Bytes) (count : Nat)
  | write (fd : Int32) (buf : Bytes)
  | recv (sockfd : Int32) (buf : Option Bytes) (len : Nat) (flags : Int32)
  | send (sockfd : Int32) (buf : Bytes) (flags : Int32)
  | accept (sockfd : Int32) (addr addrlen : Option Bytes)
  | connect (sockfd : Int32) (addr : Bytes)
  | openat (dirfd : Int32) (pathname : Bytes) (flags : UInt32) (mode : UInt32)
  | close (fd : Int32)
  | nanosleep (req : Timespec) (rem : Option Bytes)
  | clockGettime (clockId : Int32) (tp : Bytes)
  | gettimeofday (tv tz : Option Bytes)
  | getpid
  | getuid
  | uname (buf : Option Bytes)
  | stat (path : UInt64) (st : Bytes)
  | fstat (fd : Int32) (st : Bytes)
  | lstat (path : UInt64) (st : Bytes)
  | getcwd (buf : Option Bytes) (size : Nat)
  deriving DecidableEq, Repr

/-- What a wrapped call gives its caller: the returned value (1 for a pointer
that is not null), `errno` where the call failed, and the caller's output objects
as the call leaves them. Only `gettimeofday` (`*tz`) and `accept` (`*addrlen`)
have a second one. -/
@[ext] structure CallResult where
  ret : Int
  errno : Option Int32
  out : Option Bytes
  second : Option Bytes
  deriving DecidableEq, Repr

/-- What a uthread does next. `ret` is the return of its start routine. -/
inductive Action where
  | create (fn : Option Fn)
  | yield
  | join (id : UInt64) (out : Bool)
  | exit (value : UInt64)
  | call (call : Call)
  | ret
  deriving DecidableEq, Repr

/-- The result a uthread receives for an action. -/
inductive Reply where
  | created (id : UInt64)
  | yielded
  | joined (rc : Int32) (errno : Option Int32) (out : Option UInt64)
  | returned (result : CallResult)
  deriving DecidableEq, Repr

/-- Deterministic uthread bodies: the next action is a function of the results
received so far. `none` is the body of the main thread. -/
abbrev Program := Option Fn → List Reply → Action

/-- Where the context of a uthread stands: in its own code, or inside the
`swapcontext` of the runtime function it called. -/
inductive Frame where
  | user
  | yielding
  | joining (id : UInt64) (out : Bool) (target : Ptr)
  | io (call : Call) (serial : Nat)
  | exiting (value : UInt64)
  deriving DecidableEq, Repr

/-- The action a suspended context is in the middle of. -/
def Frame.action : Frame → Option Action
  | .user => none
  | .yielding => some .yield
  | .joining id out _ => some (.join id out)
  | .io call _ => some (.call call)
  | .exiting value => some (.exit value)

/-- The saved context: the actions finished so far with their results, which
determine the state of a deterministic body, and where it is suspended. -/
structure Context where
  trace : List (Action × Reply)
  frame : Frame
  deriving DecidableEq, Repr

def Context.start : Context := ⟨[], .user⟩

def Context.replies (ctx : Context) : List Reply := ctx.trace.map Prod.snd

def Context.finish (ctx : Context) (action : Action) (reply : Reply) : Context :=
  ⟨ctx.trace ++ [(action, reply)], .user⟩

inductive UtState where
  | runnable
  | running
  | blocked
  | done
  deriving DecidableEq, Repr

structure Uthread where
  id : UInt64
  state : UtState
  ctx : Context
  joinWaiter : Option Ptr
  retval : UInt64
  next : Option Ptr
  ioResult : Int32
  ioDataLen : Nat
  ioData : Bytes
  startFn : Option Fn
  stack : Nat
  stackSize : Nat
  stackMap : Nat
  stackMapSize : Nat
  deriving DecidableEq, Repr

/-- A record fresh from `calloc`. -/
def Uthread.zeroed : Uthread where
  id := 0
  state := .runnable
  ctx := .start
  joinWaiter := none
  retval := 0
  next := none
  ioResult := 0
  ioDataLen := 0
  ioData := []
  startFn := none
  stack := 0
  stackSize := 0
  stackMap := 0
  stackMapSize := 0

structure Config where
  modeRecord : Bool
  modeReplay : Bool
  replayTimeVirtual : Bool
  runtimeReady : Bool
  stackSize : Nat
  deriving DecidableEq, Repr

def Config.rrActive (config : Config) : Bool := config.modeRecord && config.runtimeReady

def Config.rrReplayActive (config : Config) : Bool := config.modeReplay && config.runtimeReady

end Librr
