import Librr.Wrappers

set_option autoImplicit false

namespace Librr

/-- A growable array: the entries in use and the capacity last allocated. -/
structure Table (α : Type) where
  items : List α
  cap : Nat
  deriving DecidableEq, Repr

/-- Append with doubling. `realloc` is the outcome of the reallocation, which is
asked for only when the table is full. -/
def Table.push {α : Type} (table : Table α) (realloc : Bool) (item : α) : Option (Table α) :=
  if table.items.length = table.cap then
    if realloc then some ⟨table.items ++ [item], if table.cap = 0 then 16 else table.cap * 2⟩
    else none
  else some ⟨table.items ++ [item], table.cap⟩

structure GuardPage where
  start : Nat
  size : Nat
  utid : UInt64
  deriving DecidableEq, Repr

/-- Whose code the one kernel thread is executing. -/
inductive Control where
  | user
  | scheduler
  | exited
  | aborted
  deriving DecidableEq, Repr

/-- The static variables of `scheduler.c`, `uthread.c` and the guard-page table.
`brk` is the address the next `calloc` returns, and `nextId` is `g_next_id`
counted without its wrap at 64 bits. -/
structure Sched where
  heap : Heap Uthread
  brk : Nat
  runqHead : Option Ptr
  runqTail : Option Ptr
  current : Option Ptr
  schedRunning : Bool
  threads : Table Ptr
  allocated : Table Ptr
  guardPages : Table GuardPage
  nextId : Nat
  control : Control

namespace Sched

def modify (s : Sched) (ut : Ptr) (change : Uthread → Uthread) : Sched :=
  { s with heap := s.heap.modify ut change }

def setNext (s : Sched) (ut : Ptr) (next : Option Ptr) : Sched :=
  s.modify ut fun u => { u with next := next }

def setState (s : Sched) (ut : Ptr) (state : UtState) : Sched :=
  s.modify ut fun u => { u with state := state }

/-- The uthread `g_current` points to, with its address. -/
def running (s : Sched) : Option (Ptr × Uthread) :=
  s.current.bind fun ut => (s.heap ut).map (ut, ·)

def currentId (s : Sched) : UInt64 :=
  match s.running with
  | none => 0
  | some (_, u) => u.id

def runqPopFront (s : Sched) : Option Ptr × Sched :=
  match s.runqHead with
  | none => (none, s)
  | some ut =>
    let head := (s.heap ut).bind Uthread.next
    (some ut, { s.setNext ut none with
      runqHead := head
      runqTail := if head = none then none else s.runqTail })

def rrSchedulerEnqueue (s : Sched) (ut : Ptr) : Sched :=
  match s.runqTail with
  | none => { s.setNext ut none with runqHead := some ut, runqTail := some ut }
  | some tail => { (s.setNext ut none).setNext tail (some ut) with runqTail := some ut }

/-- The first record of `g_threads` with the id, with its address. -/
def rrSchedulerFind (s : Sched) (id : UInt64) : Option (Ptr × Uthread) :=
  s.threads.items.findSome? fun ut =>
    (s.heap ut).bind fun u => if u.id = id then some (ut, u) else none

def rrSchedulerRegisterThread (s : Sched) (realloc : Bool) (ut : Ptr) : Option Sched :=
  (s.threads.push realloc ut).map fun threads => { s with threads := threads }

def rememberThread (s : Sched) (realloc : Bool) (ut : Ptr) : Option Sched :=
  (s.allocated.push realloc ut).map fun allocated => { s with allocated := allocated }

def rrRegisterGuardPage (s : Sched) (realloc : Bool) (page : GuardPage) : Option Sched :=
  (s.guardPages.push realloc page).map fun pages => { s with guardPages := pages }

/-- A completion for the uthread `id`. It is dropped unless that uthread exists
and is blocked. -/
def rrSchedulerWakeById (s : Sched) (id : UInt64) (ioResult : Int32) (data : Option Bytes)
    (dataLen : Nat) : Sched :=
  match s.rrSchedulerFind id with
  | none => s
  | some (ut, u) =>
    if u.state ≠ .blocked then s
    else
      let copied := (data.getD []).take (min dataLen 64)
      (s.modify ut fun u => { u with
        ioResult := ioResult
        ioDataLen := copied.length
        ioData := overwrite u.ioData copied
        state := .runnable }).rrSchedulerEnqueue ut

/-- `swapcontext(&cur->ctx, &g_sched_ctx)`: the context is saved where it stands
and the scheduler goes on. -/
def swapOut (s : Sched) (cur : Ptr) (frame : Frame) : Sched :=
  { s.modify cur fun u => { u with ctx := ⟨u.ctx.trace, frame⟩ } with control := .scheduler }

def rrSchedulerYieldCurrent (s : Sched) : Sched :=
  match s.current with
  | none => s
  | some cur =>
    if !s.schedRunning then s
    else ((s.setState cur .runnable).rrSchedulerEnqueue cur).swapOut cur .yielding

def rrSchedulerBlockCurrent (s : Sched) (frame : Frame) : Sched :=
  match s.current with
  | none => s
  | some cur =>
    if !s.schedRunning then s
    else (s.setState cur .blocked).swapOut cur frame

def markDone (retval : UInt64) (u : Uthread) : Uthread :=
  { u with retval := retval, state := .done }

/-- Wake the uthread that waits in a join of the one that exits. -/
def wakeJoiner (s : Sched) (joinWaiter : Option Ptr) : Sched :=
  match joinWaiter with
  | none => s
  | some waiter =>
    match s.heap waiter with
    | none => s
    | some w =>
      if w.state = .blocked then
        (s.setState waiter .runnable).rrSchedulerEnqueue waiter
      else s

def rrSchedulerExitCurrent (s : Sched) (retval : UInt64) : Sched :=
  match s.current with
  | none => s
  | some cur =>
    if !s.schedRunning then s
    else
      ((s.modify cur (markDone retval)).wakeJoiner ((s.heap cur).bind Uthread.joinWaiter)).swapOut
        cur (.exiting retval)

/-- The context switch at the end of an iteration of `scheduler_loop`. -/
def dispatch (s : Sched) (next : Ptr) : Sched :=
  { s.setState next .running with current := some next, control := .user }

/-- The running uthread goes on in its own code after an action. -/
def reply (s : Sched) (ut : Ptr) (action : Action) (reply : Reply) : Sched :=
  s.modify ut fun u => { u with ctx := u.ctx.finish action reply }

/-- A new record as `rr_uthread_create` fills it in. -/
def newUthread (id : UInt64) (fn : Fn) (mem pagesz stackSize : Nat) : Uthread :=
  { Uthread.zeroed with
    id := id
    state := .runnable
    stack := mem + pagesz
    stackSize := stackSize
    startFn := some fn
    stackMap := mem
    stackMapSize := (pagesz + stackSize) % 2 ^ 64 }

/-- The three tables are extended one after another in one condition. A later
failure releases the record but leaves the earlier entries in place. -/
def registerAll (s : Sched) (answer : CreateAnswer) (ut : Ptr) (page : GuardPage) :
    Sched × Bool :=
  match s.rrRegisterGuardPage answer.reallocGuards page with
  | none => (s, false)
  | some guarded =>
    match guarded.rrSchedulerRegisterThread answer.reallocThreads ut with
    | none => (guarded, false)
    | some registered =>
      match registered.rememberThread answer.reallocAllocated ut with
      | none => (registered, false)
      | some remembered => (remembered, true)

/-- A call that maps or unmaps the stack of a new uthread. -/
inductive MemoryCall where
  | mmap (addr size : Nat)
  | munmap (addr size : Nat)
  deriving DecidableEq, Repr

/-- What `rr_uthread_create` returns and stores through `id_out`, the scheduler behind it, and
its calls on the memory of the stack. -/
structure Creation where
  ret : Int32
  idOut : UInt64
  sched : Sched
  memory : List MemoryCall

/-- A record released on failure is the one the next `calloc` returns; the address space
bounds how many can be live. -/
def rrUthreadCreate (s : Sched) (stackSize : Nat) (fn : Option Fn) (answer : CreateAnswer) :
    Creation :=
  match fn with
  | none => ⟨-1, 0, s, []⟩
  | some fn =>
    if !answer.calloc || 2 ^ 64 < (s.brk + 1) * sizeofUthread then ⟨-1, 0, s, []⟩
    else
      match answer.mmap with
      | none => ⟨-1, 0, s, []⟩
      | some mem =>
        let mapSize := (answer.pagesz + stackSize) % 2 ^ 64
        let undone := fun sched : Sched =>
          (⟨-1, 0, sched, [.mmap mem mapSize, .munmap mem mapSize]⟩ : Creation)
        if !answer.mprotect then undone s
        else
          let ut := s.brk
          let id := UInt64.ofNat s.nextId
          let numbered := { s with nextId := s.nextId + 1 }
          if !answer.fsBase || !answer.getcontext then undone numbered
          else
            match numbered.registerAll answer ut ⟨mem, answer.pagesz, id⟩ with
            | (partly, false) => undone partly
            | (registered, true) =>
              let record := newUthread id fn mem answer.pagesz stackSize
              ⟨0, id, rrSchedulerEnqueue
                { registered with heap := registered.heap.set ut record, brk := s.brk + 1 } ut,
                [.mmap mem mapSize]⟩

/-- The new id, or 0 where `rr_uthread_create` fails. -/
def uthreadCreate (s : Sched) (stackSize : Nat) (fn : Option Fn) (answer : CreateAnswer) :
    Sched × UInt64 :=
  let created := s.rrUthreadCreate stackSize fn answer
  (created.sched, if created.ret ≠ 0 then 0 else created.idOut)

def awaitedBy (self : Ptr) (u : Uthread) : Uthread := { u with joinWaiter := some self }

/-- What a join answers at once, or `none` where it blocks the caller. -/
def rrUthreadJoin (s : Sched) (id : UInt64) (out : Bool) : Sched × Option Reply :=
  match s.rrSchedulerFind id with
  | none => (s, some (.joined (-1) (some Errno.ESRCH) none))
  | some (ut, target) =>
    match s.running with
    | none =>
      if target.state = .done then
        (s, some (.joined 0 none (if out then some target.retval else none)))
      else (s, some (.joined (-1) (some Errno.EINVAL) none))
    | some (self, me) =>
      if target.id = me.id then (s, some (.joined (-1) (some Errno.EDEADLK) none))
      else if target.state = .done then
        (s, some (.joined 0 none (if out then some target.retval else none)))
      else if target.joinWaiter ≠ none ∧ target.joinWaiter ≠ some self then
        (s, some (.joined (-1) (some Errno.EBUSY) none))
      else
        ((s.modify ut (awaitedBy self)).rrSchedulerBlockCurrent (.joining id out ut), none)

/-- After a successful `rr_scheduler_init` and `rr_uthread_init_main`: the main
thread is uthread 1 and runs. -/
def afterInit : Sched where
  heap := Heap.set (fun _ => none) 0 { Uthread.zeroed with id := 1, state := .running }
  brk := 1
  runqHead := none
  runqTail := none
  current := some 0
  schedRunning := true
  threads := ⟨[0], 16⟩
  allocated := ⟨[0], 16⟩
  guardPages := ⟨[], 0⟩
  nextId := 2
  control := .user

end Sched

end Librr
