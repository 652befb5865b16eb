import Librr.LogFormat

set_option autoImplicit false

namespace Librr

/-- A prepared io_uring operation, as the submission entry holds it. -/
inductive IoOp where
  | read (fd : Int32) (nbytes : UInt32) (offset : UInt64)
  | write (fd : Int32) (buf : Bytes) (nbytes : UInt32) (offset : UInt64)
  | recv (sockfd : Int32) (len : UInt32) (flags : Int32)
  | send (sockfd : Int32) (buf : Bytes) (len : UInt32) (flags : Int32)
  | accept (sockfd : Int32) (flags : Int32)
  | connect (sockfd : Int32) (addr : Bytes)
  | openat (dirfd : Int32) (pathname : Bytes) (flags : UInt32) (mode : UInt32)
  | close (fd : Int32)
  deriving DecidableEq, Repr

/-- The outcome of a call of the real libc function: its value, `errno` after it,
and the bytes it stores in the output object when it succeeds; `zone` is what
`gettimeofday` then stores in `*tz`. -/
structure Real where
  rc : Int
  errno : Int32
  data : Bytes
  zone : Bytes
  deriving DecidableEq, Repr

/-- The outcomes of the calls `rr_uthread_create` makes: `mmap` gives the address
of the mapping, and the three `realloc`s are those of the guard-page table, of
`g_threads` and of `g_allocated`. -/
structure CreateAnswer where
  calloc : Bool
  pagesz : Nat
  mmap : Option Nat
  mprotect : Bool
  fsBase : Bool
  getcontext : Bool
  reallocGuards : Bool
  reallocThreads : Bool
  reallocAllocated : Bool
  deriving DecidableEq, Repr

/-- What the world outside the runtime answers while one action is performed. -/
structure Answer where
  create : CreateAnswer
  real : Real
  submit : Bool
  timerfdCreate : Except Int32 Int32
  timerfdSettime : Timespec → Option Int32

/-- The record path of a wrapper up to the point where it has either finished or
handed an operation to io_uring. -/
inductive Begun where
  | done (result : CallResult) (log : LogArgs)
  | submit (op : IoOp)
  deriving DecidableEq, Repr

/-- A wrapper with its arguments bound: its record path before and after the
completion, its replay path on an event and on a refused event, and plain libc.
A wrapper that never waits for a completion has no `finish`. -/
structure Wrapper where
  nr : Int32
  issue : Answer → Begun
  finish : Option (Int32 → Bytes → CallResult × LogArgs)
  replay : Bool → Real → ReplayEvent → CallResult
  refused : Int32 → CallResult
  plain : Real → CallResult

/-- `(uint64_t)fd`, which extends the sign. -/
def argOfInt (value : Int32) : UInt64 := value.toInt64.toUInt64

/-- A copy into the first bytes of an object. -/
def overwrite (object data : Bytes) : Bytes := data ++ object.drop data.length

def toLogInt (real : Real) : Int32 :=
  if real.rc = -1 then -real.errno else Int32.ofInt real.rc

def rawToSsize (raw : Int32) : Int × Option Int32 :=
  if raw < 0 then (-1, some (-raw)) else (raw.toInt, none)

def rawToInt (raw : Int32) : Int × Option Int32 := rawToSsize raw

/-- A call that failed outside the kernel's completion: -1 and an `errno`. -/
def failure (errno : Int32) (out second : Option Bytes) : CallResult :=
  ⟨-1, some errno, out, second⟩

/-- The result of a real function with the usual error convention. -/
def realResult (real : Real) (out second : Option Bytes) : CallResult :=
  ⟨real.rc, if real.rc = -1 then some real.errno else none, out, second⟩

/-- The output object after a real function, which stores into it on success. -/
def realOut (real : Real) (object : Option Bytes) : Option Bytes :=
  if 0 ≤ real.rc then object.map (overwrite · real.data) else object

/-- The time zone after a real `gettimeofday`. -/
def realZone (real : Real) (tz : Option Bytes) : Option Bytes :=
  if 0 ≤ real.rc then tz.map (overwrite · real.zone) else tz

@[simp] theorem realZone_none (real : Real) : realZone real none = none := by
  simp [realZone]

/-- The direct path for `count == 0`. -/
def zeroCount (nr : Int32) (fd : Int32) (out : Option Bytes) (real : Real) : Begun :=
  .done (realResult real out none) ⟨nr, toLogInt real, argOfInt fd, none, 0⟩

/-- Wrappers that only pass a completion's result on: `send`, `connect`,
`openat`, `close`, and `write` with a positive count. -/
def resultWrapper (nr : Int32) (fd : Int32) (issue : Answer → Begun) : Wrapper where
  nr := nr
  issue := issue
  finish := some fun raw _ =>
    (⟨(rawToInt raw).1, (rawToInt raw).2, none, none⟩, ⟨nr, raw, argOfInt fd, none, 0⟩)
  replay _ _ ev := ⟨(rawToInt ev.retval).1, (rawToInt ev.retval).2, none, none⟩
  refused errno := failure errno none none
  plain real := realResult real none none

/-- Wrappers that fill the caller's buffer: `read` and `recv`. -/
def bufferWrapper (nr : Int32) (fd : Int32) (buf : Option Bytes) (count : Nat)
    (issue : Answer → Begun) : Wrapper where
  nr := nr
  issue := issue
  finish := some fun raw data =>
    let after := buf.map (overwrite · data)
    (⟨(rawToSsize raw).1, (rawToSsize raw).2, after, none⟩,
      ⟨nr, raw, argOfInt fd, after, if 0 < raw then raw.toInt.toNat else 0⟩)
  replay _ _ ev :=
    let toCopy := min (min ev.retval.toInt.toNat count) ev.dataLen
    let after := if 0 < ev.retval then buf.map (overwrite · (ev.data.val.take toCopy)) else buf
    ⟨(rawToSsize ev.retval).1, (rawToSsize ev.retval).2, after, none⟩
  refused errno := failure errno buf none
  plain real := realResult real (realOut real buf) none

/-- Wrappers around a function that fills a struct of `size` bytes and returns at
once. `timed` marks those that ask the real clock in real-time replay, and `tz` is
the time zone of `gettimeofday`: it is not logged, and replay with virtual time does
not touch it. -/
def structWrapper (nr : Int32) (arg0 : UInt64) (object : Option Bytes) (size : Nat)
    (timed : Bool) (tz : Option Bytes) : Wrapper where
  nr := nr
  issue answer :=
    let real := answer.real
    let after := realOut real object
    .done (realResult real after (realZone real tz))
      ⟨nr, toLogInt real, arg0, after, if real.rc = 0 then size else 0⟩
  finish := none
  replay virtual real ev :=
    if timed && !virtual then realResult real (realOut real object) (realZone real tz)
    else
      let after := if 0 ≤ ev.retval then
          object.map (overwrite · (ev.data.val.take (min ev.dataLen size)))
        else object
      ⟨(rawToInt ev.retval).1, (rawToInt ev.retval).2, after, tz⟩
  refused errno := failure errno object tz
  plain real := realResult real (realOut real object) (realZone real tz)

namespace Wrapper

def read (fd : Int32) (buf : Option Bytes) (count : Nat) : Wrapper :=
  bufferWrapper Nr.read fd buf count fun answer =>
    if count = 0 then zeroCount Nr.read fd buf answer.real
    else .submit (.read fd (UInt32.ofNat count) 0)

def write (fd : Int32) (buf : Bytes) : Wrapper :=
  resultWrapper Nr.write fd fun answer =>
    if buf.length = 0 then zeroCount Nr.write fd none answer.real
    else .submit (.write fd buf (UInt32.ofNat buf.length) 0)

def recv (sockfd : Int32) (buf : Option Bytes) (len : Nat) (flags : Int32) : Wrapper :=
  bufferWrapper Nr.recvfrom sockfd buf len fun _ =>
    .submit (.recv sockfd (UInt32.ofNat len) flags)

def send (sockfd : Int32) (buf : Bytes) (flags : Int32) : Wrapper :=
  resultWrapper Nr.sendto sockfd fun _ =>
    .submit (.send sockfd buf (UInt32.ofNat buf.length) flags)

/-- What the kernel stores of an accepted peer's address: as much as `*addrlen` has
room for, and the length of the whole. Without an object it stores neither. -/
def peerOut (addr addrlen : Option Bytes) (peer : Bytes) : Option Bytes × Option Bytes :=
  match addr, addrlen with
  | some object, some room =>
    (some (overwrite object (peer.take (LittleEndian.combine room))),
      some (LittleEndian.split 4 peer.length))
  | _, _ => (addr, addrlen)

/-- The address goes from the kernel to the caller and is not logged. -/
def accept (sockfd : Int32) (addr addrlen : Option Bytes) : Wrapper where
  nr := Nr.accept
  issue _ := .submit (.accept sockfd 0)
  finish := some fun raw peer =>
    let after := if raw < 0 then (addr, addrlen) else peerOut addr addrlen peer
    (⟨(rawToInt raw).1, (rawToInt raw).2, after.1, after.2⟩,
      ⟨Nr.accept, raw, argOfInt sockfd, none, 0⟩)
  replay _ _ ev := ⟨(rawToInt ev.retval).1, (rawToInt ev.retval).2, addr, addrlen⟩
  refused errno := failure errno addr addrlen
  plain real :=
    let after := if real.rc < 0 then (addr, addrlen) else peerOut addr addrlen real.data
    realResult real after.1 after.2

def connect (sockfd : Int32) (addr : Bytes) : Wrapper :=
  resultWrapper Nr.connect sockfd fun _ => .submit (.connect sockfd addr)

/-- The mode is read from the argument list only with `O_CREAT`. -/
def openat (dirfd : Int32) (pathname : Bytes) (flags mode : UInt32) : Wrapper :=
  resultWrapper Nr.openat dirfd fun _ =>
    .submit (.openat dirfd pathname flags (if flags &&& 0x40 ≠ 0 then mode else 0))

def close (fd : Int32) : Wrapper :=
  resultWrapper Nr.close fd fun _ => .submit (.close fd)

/-- A sleep is a read of a fresh timerfd. A failure to create or arm the timer is
logged and returned at once; success zeroes `rem` and is logged as 0. -/
def nanosleep (req : Timespec) (rem : Option Bytes) : Wrapper where
  nr := Nr.nanosleep
  issue answer :=
    match answer.timerfdCreate with
    | .error errno => .done (failure errno rem none) ⟨Nr.nanosleep, -errno, 0, none, 0⟩
    | .ok tfd =>
      match answer.timerfdSettime req with
      | some errno => .done (failure errno rem none) ⟨Nr.nanosleep, -errno, 0, none, 0⟩
      | none => .submit (.read tfd 8 0)
  finish := some fun raw _ =>
    if raw < 0 then (failure (-raw) rem none, ⟨Nr.nanosleep, raw, 0, none, 0⟩)
    else
      (⟨0, none, rem.map (overwrite · (List.replicate 16 0)), none⟩, ⟨Nr.nanosleep, 0, 0, none, 0⟩)
  replay _ _ ev := ⟨(rawToInt ev.retval).1, (rawToInt ev.retval).2, rem, none⟩
  refused errno := failure errno rem none
  plain real := realResult real rem none

def clockGettime (clockId : Int32) (tp : Bytes) : Wrapper :=
  structWrapper Nr.clockGettime (argOfInt clockId) (some tp) 16 true none

def gettimeofday (tv tz : Option Bytes) : Wrapper :=
  structWrapper Nr.gettimeofday 0 tv 16 true tz

def uname (buf : Option Bytes) : Wrapper :=
  structWrapper Nr.uname 0 buf 390 false none

def stat (path : UInt64) (st : Bytes) : Wrapper :=
  structWrapper Nr.stat path (some st) 144 false none

def fstat (fd : Int32) (st : Bytes) : Wrapper :=
  structWrapper Nr.fstat (argOfInt fd) (some st) 144 false none

def lstat (path : UInt64) (st : Bytes) : Wrapper :=
  structWrapper Nr.lstat path (some st) 144 false none

/-- The value is logged as it is, without the error convention of the others. -/
def getpid : Wrapper where
  nr := Nr.getpid
  issue answer :=
    .done ⟨answer.real.rc, none, none, none⟩ ⟨Nr.getpid, Int32.ofInt answer.real.rc, 0, none, 0⟩
  finish := none
  replay _ _ ev := ⟨(rawToInt ev.retval).1, (rawToInt ev.retval).2, none, none⟩
  refused errno := failure errno none none
  plain real := ⟨real.rc, none, none, none⟩

/-- As `getpid`, with the value taken as an unsigned 32-bit number. -/
def getuid : Wrapper where
  nr := Nr.getuid
  issue answer :=
    .done ⟨answer.real.rc, none, none, none⟩ ⟨Nr.getuid, Int32.ofInt answer.real.rc, 0, none, 0⟩
  finish := none
  replay _ _ ev := ⟨(rawToInt ev.retval).1 % 2 ^ 32, (rawToInt ev.retval).2, none, none⟩
  refused errno := ⟨2 ^ 32 - 1, some errno, none, none⟩
  plain real := ⟨real.rc, none, none, none⟩

/-- `strnlen(rc, size)` of the returned path. -/
def pathLength (path : Bytes) (size : Nat) : Nat :=
  ((path.take size).takeWhile (· ≠ 0)).length

/-- A pointer is returned: the caller's buffer, or a fresh block for a null one.
Replay answers a null or empty buffer with a null pointer. -/
def getcwd (buf : Option Bytes) (size : Nat) : Wrapper where
  nr := Nr.getcwd
  issue answer :=
    let real := answer.real
    if real.rc = 0 then
      .done ⟨0, some real.errno, buf, none⟩ ⟨Nr.getcwd, -real.errno, UInt64.ofNat size, none, 0⟩
    else
      let path := overwrite (buf.getD []) real.data
      .done ⟨1, none, some path, none⟩
        ⟨Nr.getcwd, 0, UInt64.ofNat size, some path, pathLength path size % 2 ^ 32⟩
  finish := none
  replay _ _ ev :=
    if ev.retval < 0 then ⟨0, some (-ev.retval), buf, none⟩
    else
      match buf with
      | none => ⟨0, none, none, none⟩
      | some object =>
        if size = 0 then ⟨0, none, buf, none⟩
        else
          let toCopy := if size ≤ ev.dataLen then size - 1 else ev.dataLen
          ⟨1, none, some (overwrite object (ev.data.val.take toCopy ++ [0])), none⟩
  refused errno := ⟨0, some errno, buf, none⟩
  plain real :=
    if real.rc = 0 then ⟨0, some real.errno, buf, none⟩
    else ⟨1, none, some (overwrite (buf.getD []) real.data), none⟩

end Wrapper

/-- The wrapper a call goes through. -/
def Call.wrapper : Call → Wrapper
  | .read fd buf count => .read fd buf count
  | .write fd buf => .write fd buf
  | .recv sockfd buf len flags => .recv sockfd buf len flags
  | .send sockfd buf flags => .send sockfd buf flags
  | .accept sockfd addr addrlen => .accept sockfd addr addrlen
  | .connect sockfd addr => .connect sockfd addr
  | .openat dirfd pathname flags mode => .openat dirfd pathname flags mode
  | .close fd => .close fd
  | .nanosleep req rem => .nanosleep req rem
  | .clockGettime clockId tp => .clockGettime clockId tp
  | .gettimeofday tv tz => .gettimeofday tv tz
  | .getpid => .getpid
  | .getuid => .getuid
  | .uname buf => .uname buf
  | .stat path st => .stat path st
  | .fstat fd st => .fstat fd st
  | .lstat path st => .lstat path st
  | .getcwd buf size => .getcwd buf size

end Librr
