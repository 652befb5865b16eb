import Librr.FileRuns
import Librr.Startup

set_option autoImplicit false

namespace Librr

open Transition

/-- Everything in `rr_record_init` succeeds. -/
def InitAnswer.recorderOpens (answer : InitAnswer) : Bool :=
  answer.dlsym && answer.mmapRing.isSome && answer.openLog.isSome &&
    (rrWriteDirect [] (Header.recorded answer.startTime answer.pid).encode answer.writes).2.1 =
      .done

/-- The failure is in `rr_record_init`, or in one of the first two calls of
`rr_signal_init`. -/
def InitAnswer.failsEarly (answer : InitAnswer) : Bool :=
  !answer.recorderOpens || answer.mmapAltstack.isNone || !answer.sigaltstack

/-- Everything in `rr_signal_init` succeeds. -/
def InitAnswer.signalsBlocked (answer : InitAnswer) : Bool :=
  answer.mmapAltstack.isSome && answer.sigaltstack && answer.sigaction && answer.sigprocmask &&
    answer.signalfd.isSome

/-- The second part of `rr_init` comes to the point where the main thread is current. -/
def InitAnswer.mainRuns (answer : InitAnswer) : Bool :=
  answer.mmapSched.isSome && answer.schedContext &&
    (answer.calloc && answer.mainContext && answer.fsBase)

/-- The ring takes the read of the signals. -/
def InitAnswer.ringRuns (answer : InitAnswer) : Bool :=
  answer.queueInit && answer.getSqe && answer.submit

/-- Everything between `rr_signal_init` and that point succeeds. -/
def InitAnswer.mainCurrent (answer : InitAnswer) : Bool :=
  answer.ringRuns && answer.mainRuns

/-- The process has the signal state that `rr_signal_init` would give it. -/
def Process.alreadySignalled (p : Process) (answer : InitAnswer) : Prop :=
  p.mask ||| sigfillset = p.mask ∧ p.segv = segvAction ∧
    ∃ sp, answer.mmapAltstack = some sp ∧ p.altstack = ⟨sp, 2 * answer.sigstksz, 0⟩

/-- The scheduler without a record of the main thread. -/
def Sched.headless (threads : Table Ptr) (current : Option Ptr) : Sched :=
  { Sched.atLoad with schedRunning := true, threads := threads, current := current }

namespace State

/-- The runtime is off, nothing is in flight and the program has done nothing yet. -/
structure Dormant (s : State) : Prop where
  unready : s.config.runtimeReady = false
  user : s.sched.control = .user
  host : s.host = .start
  idle : s.ring.inflight = []

/-- The runtime behind a start in record mode that succeeds. -/
def started (s : State) (signalFd : Int32) : State :=
  ({ { s with
      ring := { Ring.absent with ready := true } }.rrIoSubmitSignalRead signalFd true with
    sched := .afterInit
    seq := 0 }.rrLogSched 0 1).markRuntimeReady

end State

/-- The main thread makes wrapped calls and no call of `rr.h`. -/
def CallsOnly (program : Program) : Prop :=
  ∀ replies, program none replies = .ret ∨ ∃ call, program none replies = .call call

namespace State

section Passthrough

variable {program : Program} {s q : State}

/-- The main thread has come equally far with the same results, in a process whose runtime is
off and in one where it runs. -/
structure SameMain (s q : State) : Prop where
  trace : q.sched.traceAt 0 = some s.host.trace
  control : q.sched.control = s.sched.control

/-- Whatever the world answers, the process goes on as in passthrough mode. -/
def RunsAsPassthrough (s : State) (program : Program) (stackSize : Nat) : Prop :=
  ∀ inputs, Option.Rel SameMain (exec (step program) s inputs)
    (exec (step program) (passthroughStart stackSize) inputs)

/-- What holds between the two processes along a run: both run with nothing in flight, or both
have ended. -/
inductive InStep (s q : State) : Prop
  | running (off : s.config.runtimeReady = false) (user : s.sched.control = .user)
      (idle : s.ring.inflight = []) (passing : q.Passing s.host.trace)
      (empty : q.ring.inflight = [])
  | ended (exited : s.sched.control = .exited) (same : SameMain s q)

theorem InStep.sameMain (beside : InStep s q) : SameMain s q := by
  cases beside with
  | running off user idle passing empty =>
      obtain ⟨u, found, _, past⟩ := passing.main
      exact ⟨by rw [Sched.traceAt, found, Option.map_some, past], passing.user.trans user.symm⟩
  | ended exited same => exact same

theorem InStep.act (off : s.config.runtimeReady = false) (user : s.sched.control = .user)
    (idle : s.ring.inflight = []) (passing : q.Passing s.host.trace)
    (empty : q.ring.inflight = []) (plain : CallsOnly program) (answer : Answer) :
    Option.Rel InStep (step program s (.act answer)) (step program q (.act answer)) := by
  have taken : step program s (.act answer) =
      some (s.performHost answer (program none s.host.replies)) := by
    simp [Librr.step, user, State.act, off]
  rw [taken]
  rcases plain s.host.replies with next | ⟨call, next⟩
  · obtain ⟨u, found, start, past⟩ := passing.main
    have running := Sched.running_eq passing.current found
    have returns : step program q (.act answer) =
        some { q with sched := { q.sched with control := .exited } } := by
      have next : program none (s.host.trace.map Prod.snd) = .ret := next
      simp [Librr.step, passing.user, State.act, passing.ready, running, start, Context.replies,
        past, next, perform]
    rw [returns, next]
    refine .some (.ended rfl ⟨?_, rfl⟩)
    exact (congrArg (Option.map _) found).trans (congrArg some past)
  · obtain ⟨t, called, after, _, ring⟩ := passing.called next answer
    rw [called, next]
    exact .some (.running off user idle after (ring ▸ empty))

theorem InStep.step (beside : InStep s q) (plain : CallsOnly program) (input : Input) :
    Option.Rel InStep (step program s input) (step program q input) := by
  cases beside with
  | running off user idle passing empty =>
      cases input with
      | act answer => exact InStep.act off user idle passing empty plain answer
      | loop answer =>
          simp only [Librr.step, user, passing.user, reduceCtorEq, ↓reduceIte]
          exact .none
      | post index res data =>
          simp only [Librr.step, idle, empty, List.getElem?_nil, Option.map_none, ite_self]
          exact .none
  | ended exited same =>
      have both : q.sched.control = .exited := same.control.trans exited
      cases input <;> simp only [Librr.step, exited, both, reduceCtorEq, or_self, ↓reduceIte] <;>
        exact .none

/-- A failed start leaves a program without calls of `rr.h` as in passthrough mode. -/
theorem Dormant.runsAsPassthrough (dormant : s.Dormant) (plain : CallsOnly program)
    (stackSize : Nat) : s.RunsAsPassthrough program stackSize := by
  intro inputs
  have initial : InStep s (passthroughStart stackSize) := by
    refine .running dormant.unready dormant.user dormant.idle ?_ rfl
    rw [dormant.host]
    exact ⟨rfl, rfl, rfl, rfl, rfl, _, rfl, rfl, rfl⟩
  have answered : ∀ (before mate : State) (input other : Input), InStep before mate →
      input = other → Option.Rel InStep (Librr.step program before input)
        (Librr.step program mate other) := by
    rintro before mate input _ beside rfl
    exact beside.step plain input
  have same : List.Forall₂ Eq inputs inputs := List.forall₂_same.mpr fun _ _ => rfl
  have run := exec_rel answered initial same
  generalize exec (Librr.step program) s inputs = left at run ⊢
  generalize exec (Librr.step program) (passthroughStart stackSize) inputs = right at run ⊢
  cases run with
  | some inStep => exact .some inStep.sameMain
  | none => exact .none

/-- `uthread_create` gives 0 where passthrough mode gives the id 2. -/
theorem Dormant.creation_parts (dormant : s.Dormant) {fn : Fn}
    (first : program none [] = .create (some fn)) (stackSize : Nat) :
    ¬ s.RunsAsPassthrough program stackSize := by
  intro alike
  have refused : exec (Librr.step program) s [.act .calm] =
      some { s with host := s.host.finish (.create (some fn)) (.created 0) } := by
    simp [exec, Librr.step, dormant.user, State.act, dormant.unready, dormant.host, performHost,
      Context.replies, Context.start, first]
  have created : exec (Librr.step program) (passthroughStart stackSize) [.act .calm] =
      some ((passthroughStart stackSize).perform 0 Uthread.zeroed .calm (.create (some fn))) :=
    exec_single (first ▸ rfl)
  have number : (Sched.afterInit.uthreadCreate stackSize (some fn) Answer.calm.create).2 = 2 :=
    congrArg Prod.snd (Sched.erased_create id .afterInit
      (by decide : Answer.calm.create.Succeeds) stackSize (some fn)).symm
  have both := alike [.act .calm]
  rw [refused, created] at both
  cases both with
  | some same =>
      have trace : (Sched.reply _ 0 (.create (some fn)) (.created
          (Sched.afterInit.uthreadCreate stackSize (some fn) Answer.calm.create).2)).traceAt 0 =
          some (Context.start.finish (.create (some fn)) (.created 0)).trace :=
        dormant.host ▸ same.trace
      rw [number, Sched.traceAt_reply, Option.map_eq_some_iff] at trace
      obtain ⟨past, _, last⟩ := trace
      have wrong := (List.append_inj' last rfl).2
      simp at wrong

end Passthrough

end State

namespace Process

@[simp]
theorem release_head {p : Process} {r : Resource} {rest : List Resource}
    (held : p.held = some (r :: rest)) : p.release r = { p with held := some rest } := by
  simp [release, held]

theorem acquire_held {p : Process} {rest : List Resource} (held : p.held = some rest)
    (r : Resource) : p.acquire r = { p with held := some (r :: rest) } := by
  simp [acquire, held]

section Shutdowns

variable (p : Process)

theorem rrRecordShutdown_runtime : p.rrRecordShutdown.runtime = p.runtime := by
  unfold rrRecordShutdown
  cases p.logFd <;> dsimp only <;> split <;> rfl

theorem rrSignalShutdown_runtime : p.rrSignalShutdown.runtime =
    { p.runtime with sched := { p.runtime.sched with guardPages := ⟨[], 0⟩ } } := by
  unfold rrSignalShutdown
  cases p.signalFd <;> dsimp only <;> split <;> rfl

theorem rrIoShutdown_runtime : p.rrIoShutdown.runtime =
    if p.runtime.ring.ready then
      { p.runtime with ring := { Ring.absent with signalFd := p.runtime.ring.signalFd } }
    else p.runtime := by
  unfold rrIoShutdown
  split <;> rfl

theorem rrSchedulerShutdown_runtime : p.rrSchedulerShutdown.runtime =
    { p.runtime with
      sched := { p.runtime.sched with
        schedRunning := false
        runqHead := none
        runqTail := none
        threads := ⟨[], 0⟩ } } := by
  unfold rrSchedulerShutdown
  split <;> rfl

/-- The cascade of shutdowns of record mode does not touch the configuration. -/
theorem cascade_config :
    p.rrIoShutdown.rrSignalShutdown.rrRecordShutdown.runtime.config = p.runtime.config := by
  rw [rrRecordShutdown_runtime, rrSignalShutdown_runtime, rrIoShutdown_runtime]
  dsimp only
  split <;> rfl

end Shutdowns

theorem closeMode_record {p : Process} (record : p.runtime.config.modeRecord = true)
    (replay : p.runtime.config.modeReplay = false) :
    p.closeMode = p.rrIoShutdown.rrSignalShutdown.rrRecordShutdown := by
  rw [closeMode, if_pos record, cascade_config, replay]
  rfl

/-- Record mode before `rr_init` has made the runtime ready. -/
structure Records (s : State) : Prop where
  modeRecord : s.config.modeRecord = true
  modeReplay : s.config.modeReplay = false
  unready : s.config.runtimeReady = false
  host : s.host = .start

/-- Behind the cascade nothing is in flight. -/
theorem Records.dormant {p : Process} (records : Records p.runtime)
    (user : p.runtime.sched.control = .user)
    (idle : p.runtime.ring.ready = true ∨ p.runtime.ring.inflight = []) :
    p.rrIoShutdown.rrSignalShutdown.rrRecordShutdown.runtime.Dormant := by
  rw [rrRecordShutdown_runtime, rrSignalShutdown_runtime, rrIoShutdown_runtime]
  split
  · exact ⟨records.unready, user, records.host, rfl⟩
  · rename_i absent
    exact ⟨records.unready, user, records.host, idle.resolve_left absent⟩

/-- The log is open, and its two resources were taken last. -/
structure LogOpen (p : Process) (addr : Nat) (fd : Int32) (rest : List Resource) : Prop where
  ring : p.logRing = some addr
  descriptor : p.logFd = some fd
  held : p.held = some (.descriptor fd :: .mapping addr rrLogRingSize :: rest)

theorem LogOpen.shutdown {p : Process} {addr : Nat} {fd : Int32} {rest : List Resource}
    (isOpen : p.LogOpen addr fd rest) :
    p.rrRecordShutdown = { p with held := some rest, logRing := none, logFd := none } := by
  simp only [rrRecordShutdown, isOpen.descriptor, release_head isOpen.held, isOpen.ring]
  rw [release_head rfl]

/-- The runtime refers to nothing of the recorder. -/
structure LogClosed (p : Process) (rest : List Resource) : Prop where
  ring : p.logRing = none
  descriptor : p.logFd = none
  held : p.held = some rest

/-- `p` with the log open. -/
def withLog (p : Process) (addr : Nat) (fd : Int32) : Process :=
  { p with
    held := p.held.map fun rest => .descriptor fd :: .mapping addr rrLogRingSize :: rest
    logRing := some addr
    logFd := some fd }

/-- `rr_record_init` undoes what it did when it fails. -/
theorem rrRecordInit_cases {p q : Process} {answer : InitAnswer} {ok : Bool}
    {rest : List Resource} (closed : p.LogClosed rest)
    (ran : p.rrRecordInit answer = some (q, ok)) :
    answer.recorderOpens = ok ∧
      (ok = true → ∃ addr fd, q = p.withLog addr fd) ∧ (ok = false → q = p) := by
  obtain ⟨mask, altstack, segv, held, logRing, logFd, altSp, altSize, signalFd, schedStack,
    replayFd, runtime⟩ := p
  obtain ⟨rfl, rfl, rfl⟩ := closed
  unfold rrRecordInit at ran
  unfold InitAnswer.recorderOpens
  split at ran
  · cases ran
    simp_all
  split at ran
  · cases ran
    simp_all
  split at ran
  · cases ran
    simp_all [acquire]
  dsimp only at ran
  split at ran
  · cases ran
  · cases ran
    simp_all [acquire, withLog]
  · cases ran
    simp_all [acquire]

/-- The signal state that `rr_signal_init` installs is in place with its stack of `size` bytes
at `sp`; the runtime holds `top`, taken after the resources of the signals and of the log. -/
structure Armed (p q : Process) (sp size : Nat) (top : List Resource) : Prop where
  mask : q.mask = p.mask ||| sigfillset
  altstack : q.altstack = ⟨sp, size, 0⟩
  segv : q.segv = segvAction
  altSp : q.altSp = some sp
  altSize : q.altSize = size
  replayFd : q.replayFd = p.replayFd
  held : ∃ fd addr logFd, q.signalFd = some fd ∧ q.logRing = some addr ∧ q.logFd = some logFd ∧
    q.held = some (top ++ [.descriptor fd, .mapping sp size, .descriptor logFd,
      .mapping addr rrLogRingSize])

section Armed

variable {p q : Process} {sp size : Nat} {top : List Resource}

theorem Armed.moved (armed : p.Armed q sp size top) (stack : Option Nat) (runtime : State) :
    p.Armed { q with schedStack := stack, runtime := runtime } sp size top :=
  ⟨armed.mask, armed.altstack, armed.segv, armed.altSp, armed.altSize, armed.replayFd, armed.held⟩

theorem Armed.acquire (armed : p.Armed q sp size top) (r : Resource) :
    p.Armed (q.acquire r) sp size (r :: top) := by
  obtain ⟨mask, altstack, segv, altSp, altSize, replayFd, fd, addr, logFd, signal, ring, log,
    held⟩ := armed
  rw [acquire_held held]
  exact ⟨mask, altstack, segv, altSp, altSize, replayFd, fd, addr, logFd, signal, ring, log, rfl⟩

theorem Armed.release {r : Resource} (armed : p.Armed q sp size (r :: top)) :
    p.Armed (q.release r) sp size top := by
  obtain ⟨mask, altstack, segv, altSp, altSize, replayFd, fd, addr, logFd, signal, ring, log,
    held⟩ := armed
  rw [release_head held]
  exact ⟨mask, altstack, segv, altSp, altSize, replayFd, fd, addr, logFd, signal, ring, log, rfl⟩

/-- Closing the log leaves the mapping of the alternate stack behind. -/
theorem shutdown_leaks_altstack {addr : Nat} {fd : Int32} (ring : q.logRing = some addr)
    (log : q.logFd = some fd)
    (held : q.held = some [.mapping sp size, .descriptor fd, .mapping addr rrLogRingSize]) :
    q.rrRecordShutdown.held = some [.mapping sp size] := by
  by_cases same : Resource.mapping sp size = .mapping addr rrLogRingSize
  · simp [rrRecordShutdown, release, ring, log, held, same]
  · simp [rrRecordShutdown, release, ring, log, held, same]

/-- `rr_signal_init` undoes the mapping of the stack when it cannot be installed. A later
failure returns with the stack installed and mapped. -/
theorem rrSignalInit_cases {addr : Nat} {logFd : Int32} {answer : InitAnswer}
    {ok : Bool} (closed : p.LogClosed []) (unset : p.altSp = none)
    (ran : (p.withLog addr logFd).rrSignalInit answer = (q, ok)) :
    q.runtime = p.runtime ∧
    ((answer.mmapAltstack.isNone || !answer.sigaltstack) = true ∧ ok = false ∧
        q = { p.withLog addr logFd with altSize := 2 * answer.sigstksz } ∨
      (answer.mmapAltstack.isNone || !answer.sigaltstack) = false ∧
        answer.signalsBlocked = false ∧ ok = false ∧ q.rrRecordShutdown.held ≠ some [] ∨
      answer.signalsBlocked = true ∧ ok = true ∧
        ∃ sp, answer.mmapAltstack = some sp ∧ p.Armed q sp (2 * answer.sigstksz) []) := by
  obtain ⟨mask, altstack, segv, held, logRing, fd, altSp, altSize, signalFd, schedStack, replayFd,
    runtime⟩ := p
  obtain ⟨rfl, rfl, rfl⟩ := closed
  cases unset
  unfold rrSignalInit at ran
  unfold InitAnswer.signalsBlocked
  cases stack : answer.mmapAltstack with
  | none =>
      simp only [stack] at ran
      cases ran
      exact ⟨rfl, .inl ⟨rfl, rfl, rfl⟩⟩
  | some sp =>
      have leaks : ∀ leaked : Process, leaked.logRing = some addr → leaked.logFd = some logFd →
          leaked.held = some [.mapping sp (2 * answer.sigstksz), .descriptor logFd,
            .mapping addr rrLogRingSize] → leaked.rrRecordShutdown.held ≠ some [] := by
        intro leaked ring log held
        rw [shutdown_leaks_altstack ring log held]
        simp
      simp only [stack] at ran
      cases installed : answer.sigaltstack with
      | false =>
          rw [installed, release_head rfl] at ran
          cases ran
          exact ⟨rfl, .inl ⟨rfl, rfl, rfl⟩⟩
      | true =>
          simp only [installed, Bool.not_true, Bool.false_eq_true, ↓reduceIte] at ran
          cases handled : answer.sigaction <;> rw [handled] at ran
          · cases ran
            exact ⟨rfl, .inr (.inl ⟨rfl, rfl, rfl, leaks _ rfl rfl rfl⟩)⟩
          cases blocked : answer.sigprocmask <;> rw [blocked] at ran
          · cases ran
            exact ⟨rfl, .inr (.inl ⟨rfl, rfl, rfl, leaks _ rfl rfl rfl⟩)⟩
          cases opened : answer.signalfd <;> rw [opened] at ran
          · cases ran
            exact ⟨rfl, .inr (.inl ⟨rfl, rfl, rfl, leaks _ rfl rfl rfl⟩)⟩
          · rename_i fd
            cases ran
            exact ⟨rfl, .inr (.inr ⟨rfl, rfl, sp, rfl, rfl, rfl, rfl, rfl, rfl, rfl, fd, addr,
              logFd, rfl, rfl, rfl, rfl⟩)⟩

/-- After the cascade of shutdowns: everything is released, and the signal state stays
installed. -/
structure Disarmed (p final : Process) (sp size : Nat) (sched : Sched) : Prop where
  mask : final.mask = p.mask ||| sigfillset
  altstack : final.altstack = ⟨sp, size, 0⟩
  segv : final.segv = segvAction
  released : final.held = some []
  sched : final.runtime.sched = { sched with guardPages := ⟨[], 0⟩ }

theorem Armed.disarmed (armed : p.Armed q sp size []) :
    p.Disarmed q.rrSignalShutdown.rrRecordShutdown sp size q.runtime.sched := by
  obtain ⟨mask, altstack, segv, stack, rfl, _, fd, addr, logFd, signal, ring, log, held⟩ := armed
  have down : q.rrSignalShutdown = { q with
      held := some [.descriptor logFd, .mapping addr rrLogRingSize]
      signalFd := none
      altSp := none
      runtime := { q.runtime with
        sched := { q.runtime.sched with guardPages := ⟨[], 0⟩ } } } := by
    simp only [rrSignalShutdown, signal, release_head held, stack, withSched]
    rw [release_head rfl]
  have closed : q.rrSignalShutdown.LogOpen addr logFd [] := by
    rw [down]
    exact ⟨ring, log, rfl⟩
  rw [closed.shutdown, down]
  exact ⟨mask, altstack, segv, rfl, rfl⟩

theorem Armed.ioShutdown (armed : p.Armed q sp size [.uring])
    (ready : q.runtime.ring.ready = true) :
    p.Armed q.rrIoShutdown sp size [] ∧ q.rrIoShutdown.runtime.sched = q.runtime.sched := by
  rw [rrIoShutdown, if_pos ready]
  exact ⟨armed.release.moved _ _, rfl⟩

theorem Armed.schedulerShutdown {stack : Nat}
    (armed : p.Armed q sp size [.mapping stack rrSchedStackSize, .uring])
    (mapped : q.schedStack = some stack) :
    p.Armed q.rrSchedulerShutdown sp size [.uring] := by
  rw [rrSchedulerShutdown, mapped]
  exact armed.release.moved none _

end Armed

/-- What a failed `rr_uthread_init_main` leaves behind. -/
theorem rrUthreadInitMain_failed {q q' : Process} {answer : InitAnswer}
    (bare : q.runtime.sched = { Sched.atLoad with schedRunning := true })
    (ran : q.rrUthreadInitMain answer = (q', false)) :
    ∃ threads current, q' = q.withSched (.headless threads current) ∧
      (current = none ↔ (answer.calloc && answer.mainContext && answer.fsBase) = false) := by
  have filled : (answer.calloc && answer.mainContext && answer.fsBase) =
      !(!answer.calloc || !answer.mainContext || !answer.fsBase) := by simp
  unfold rrUthreadInitMain at ran
  rw [bare] at ran
  rw [filled]
  split at ran
  · rename_i failed
    cases ran
    exact ⟨_, none, congrArg q.withSched bare, by rw [failed]; simp⟩
  · rename_i current
    rw [Bool.not_eq_true] at current
    rw [current]
    cases threads : answer.reallocThreads <;> rw [threads] at ran
    · cases ran
      exact ⟨_, _, rfl, by simp⟩
    cases allocated : answer.reallocAllocated <;> rw [allocated] at ran
    · cases ran
      exact ⟨_, _, rfl, by simp⟩
    · cases ran

theorem rrUthreadInitMain_done {q q' : Process} {answer : InitAnswer}
    (bare : q.runtime.sched = { Sched.atLoad with schedRunning := true })
    (ran : q.rrUthreadInitMain answer = (q', true)) : q' = q.withSched Sched.afterInit := by
  unfold rrUthreadInitMain at ran
  rw [bare] at ran
  split at ran
  · cases ran
  cases threads : answer.reallocThreads <;> rw [threads] at ran
  · cases ran
  cases allocated : answer.reallocAllocated <;> rw [allocated] at ran
  · cases ran
  · cases ran
    rfl

/-- The tables are empty, and the main thread is current exactly if `current` says so. -/
structure Bare (sched : Sched) (current : Bool) : Prop where
  threads : sched.threads.items = []
  allocated : sched.allocated.items = []
  current : sched.current = none ↔ current = false

/-- `p` with the stack of the scheduler mapped. -/
def mapped (p : Process) (stack : Nat) (sched : Sched) : Process :=
  { p.acquire (.mapping stack rrSchedStackSize) with
    schedStack := some stack
    runtime := { p.runtime with sched := sched } }

theorem release_acquire (p : Process) (r : Resource) : (p.acquire r).release r = p := by
  obtain ⟨mask, altstack, segv, held, logRing, logFd, altSp, altSize, signalFd, schedStack,
    replayFd, runtime⟩ := p
  cases held <;> simp [acquire, release]

theorem rrSchedulerInit_cases {q q' : Process} {answer : InitAnswer} {ok : Bool}
    (ran : q.rrSchedulerInit answer = (q', ok)) :
    (answer.mmapSched.isSome && answer.schedContext) = ok ∧
      (ok = false → q' = { q with schedStack := none }) ∧
      (ok = true → ∃ stack, q' = q.mapped stack { q.runtime.sched with schedRunning := true }) := by
  unfold rrSchedulerInit at ran
  cases stack : answer.mmapSched with
  | none =>
      rw [stack] at ran
      cases ran
      exact ⟨rfl, fun _ => rfl, fun wrong => by cases wrong⟩
  | some addr =>
      rw [stack] at ran
      cases context : answer.schedContext
      · rw [context] at ran
        cases ran
        refine ⟨rfl, fun _ => ?_, fun wrong => by cases wrong⟩
        exact congrArg (fun p : Process => { p with schedStack := none })
          (q.release_acquire (.mapping addr rrSchedStackSize))
      · rw [context] at ran
        cases ran
        exact ⟨rfl, (fun wrong => by cases wrong), fun _ => ⟨addr, rfl⟩⟩

/-- How `rr_init` ends from `rr_scheduler_init` on, in every mode: without the stack of the
scheduler, without a record of the main thread, or with both. -/
theorem startScheduler_cases {q : Process} (answer : InitAnswer)
    (bare : q.runtime.sched = Sched.atLoad) :
    answer.mainRuns = false ∧ q.startScheduler answer = closeMode { q with schedStack := none } ∨
    (∃ stack threads current, (current = none ↔ answer.mainRuns = false) ∧
      q.startScheduler answer =
        (q.mapped stack (.headless threads current)).rrSchedulerShutdown.closeMode) ∨
    ∃ stack, q.startScheduler answer = (q.mapped stack .afterInit).startMain := by
  unfold startScheduler InitAnswer.mainRuns
  split
  · rename_i q' scheduled
    obtain ⟨fails, same, _⟩ := rrSchedulerInit_cases scheduled
    rw [same rfl, fails]
    exact .inl ⟨rfl, rfl⟩
  rename_i q' scheduled
  obtain ⟨works, _, mapped⟩ := rrSchedulerInit_cases scheduled
  obtain ⟨stack, rfl⟩ := mapped rfl
  rw [works, bare]
  split
  · rename_i q' failed
    obtain ⟨threads, current, rfl, used⟩ := rrUthreadInitMain_failed rfl failed
    exact .inr (.inl ⟨stack, threads, current, used, rfl⟩)
  · rename_i q' started
    rw [rrUthreadInitMain_done rfl started]
    exact .inr (.inr ⟨stack, rfl⟩)

/-- Outside of replay mode the first switch is not looked up. -/
theorem startMain_unreplayed {p : Process} (off : p.runtime.config.modeReplay = false) :
    p.startMain = { p with
      runtime := ({ p.runtime with seq := 0 }.rrLogSched 0 1).markRuntimeReady } := by
  have same : ({ p.runtime with seq := 0 }.rrLogSched 0 1).config.modeReplay = false := by
    rw [(State.rrLogSched_same _ _ _).config]
    exact off
  simp only [startMain, same, Bool.false_eq_true, ↓reduceIte]

/-- A start that succeeds in record mode, with everything that was taken. -/
structure Begun (p final : Process) (sp size stack : Nat) (fd : Int32) : Prop where
  armed : p.Armed final sp size [.mapping stack rrSchedStackSize, .uring]
  stack : final.schedStack = some stack
  runtime : final.runtime = p.runtime.started fd

/-- A start that fails behind `rr_signal_init`: everything is released but the signal state. -/
structure Stranded (p final : Process) (sp size : Nat) (current : Bool) : Prop where
  dormant : final.runtime.Dormant
  signals : ∃ sched, p.Disarmed final sp size sched ∧ Bare sched current

theorem Armed.stranded {p q : Process} {sp size : Nat} {current : Bool}
    (armed : p.Armed q sp size [.uring]) (ready : q.runtime.ring.ready = true)
    (records : Records q.runtime) (user : q.runtime.sched.control = .user)
    (bare : Bare q.runtime.sched current) :
    p.Stranded q.rrIoShutdown.rrSignalShutdown.rrRecordShutdown sp size current := by
  obtain ⟨down, sched⟩ := armed.ioShutdown ready
  exact ⟨records.dormant user (.inl ready), _, down.disarmed, sched ▸ bare⟩

theorem atLoad_bare : Bare Sched.atLoad false := ⟨rfl, rfl, by simp [Sched.atLoad]⟩

theorem Armed.mapped {p q : Process} {sp size : Nat} (armed : p.Armed q sp size [.uring])
    (stack : Nat) (sched : Sched) :
    p.Armed (q.mapped stack sched) sp size [.mapping stack rrSchedStackSize, .uring] :=
  (armed.acquire _).moved _ _

/-- In record mode the rest of `rr_init` completes, or releases everything. -/
theorem Armed.startScheduler {p q : Process} {sp size : Nat} {fd : Int32}
    (armed : p.Armed q sp size [.uring]) (answer : InitAnswer)
    (bare : p.runtime.sched = Sched.atLoad) (records : Records p.runtime)
    (runtime : q.runtime = { p.runtime with
      ring := { Ring.absent with ready := true } }.rrIoSubmitSignalRead fd true) :
    (∃ stack, p.Begun (q.startScheduler answer) sp size stack fd) ∨
      p.Stranded (q.startScheduler answer) sp size answer.mainRuns := by
  have ready : q.runtime.ring.ready = true := by rw [runtime]; rfl
  have bare : q.runtime.sched = Sched.atLoad := by rw [runtime]; exact bare
  have records : Records q.runtime := by
    rw [runtime]
    exact ⟨records.modeRecord, records.modeReplay, records.unready, records.host⟩
  rcases startScheduler_cases answer bare with
    ⟨fails, outcome⟩ | ⟨stack, threads, current, used, outcome⟩ | ⟨stack, outcome⟩
  · rw [outcome, fails, closeMode_record (p := { q with schedStack := none }) records.modeRecord
      records.modeReplay]
    have still := armed.moved none q.runtime
    exact .inr (still.stranded ready records (by rw [bare]; rfl) (bare ▸ atLoad_bare))
  · have unmapped := (armed.mapped stack (.headless threads current)).schedulerShutdown rfl
    have left := rrSchedulerShutdown_runtime (q.mapped stack (.headless threads current))
    have records : Records
        (q.mapped stack (.headless threads current)).rrSchedulerShutdown.runtime := by
      rw [left]
      exact ⟨records.modeRecord, records.modeReplay, records.unready, records.host⟩
    rw [outcome, closeMode_record records.modeRecord records.modeReplay]
    refine .inr (unmapped.stranded ?_ records ?_ ?_)
    · rw [left]
      exact ready
    · rw [left]
      rfl
    · rw [left]
      exact ⟨rfl, rfl, used⟩
  · rw [outcome, startMain_unreplayed (p := q.mapped stack .afterInit) records.modeReplay]
    refine .inl ⟨stack, (armed.mapped stack .afterInit).moved _ _, rfl, ?_⟩
    rw [State.started, ← runtime]
    rfl

/-- The ring starts, or everything is released. -/
theorem Armed.startRing {p q : Process} {sp size : Nat} (armed : p.Armed q sp size [])
    (answer : InitAnswer) (bare : p.runtime.sched = Sched.atLoad) (records : Records p.runtime)
    (idle : p.runtime.ring.inflight = []) (runtime : q.runtime = p.runtime) :
    (answer.ringRuns = true ∧ (q.startRing answer).2 = true ∧ ∃ fd,
      p.Armed (q.startRing answer).1 sp size [.uring] ∧ (q.startRing answer).1.runtime =
        { p.runtime with
          ring := { Ring.absent with ready := true } }.rrIoSubmitSignalRead fd true) ∨
    answer.ringRuns = false ∧ (q.startRing answer).2 = false ∧
      p.Stranded (q.startRing answer).1 sp size false := by
  have up := (armed.acquire .uring).moved q.schedStack
  have stopped : ∀ ring : Ring, ring.ready = true →
      p.Stranded (rrRecordShutdown (rrSignalShutdown (rrIoShutdown
        { q.acquire .uring with runtime := { q.runtime with ring := ring } }))) sp size false := by
    intro ring ready
    refine (up { q.runtime with ring := ring }).stranded ready ?_ ?_ ?_
    · rw [runtime]
      exact ⟨records.modeRecord, records.modeReplay, records.unready, records.host⟩
    · rw [runtime, bare]
      rfl
    · rw [runtime, bare]
      exact atLoad_bare
  have off : q.rrSignalShutdown.rrRecordShutdown.runtime.Dormant := by
    rw [rrRecordShutdown_runtime, rrSignalShutdown_runtime, runtime, bare]
    exact ⟨records.unready, rfl, records.host, idle⟩
  unfold Process.startRing rrIoInit rrIoSubmitSignalRead InitAnswer.ringRuns
  cases answer.queueInit
  · exact .inr ⟨rfl, rfl, off, _, armed.disarmed, by rw [runtime, bare]; exact atLoad_bare⟩
  cases answer.getSqe
  · exact .inr ⟨rfl, rfl, stopped _ rfl⟩
  cases answer.submit
  · exact .inr ⟨rfl, rfl, stopped _ rfl⟩
  · exact .inl ⟨rfl, rfl, q.signalFd.getD (-1), up _, by rw [← runtime]; rfl⟩

/-- A process that `rr_init` finds in record mode. -/
structure Loaded (p : Process) : Prop where
  closed : p.LogClosed []
  altSp : p.altSp = none
  sched : p.runtime.sched = .atLoad
  ring : p.runtime.ring = .absent
  records : Records p.runtime

theorem Loaded.dormant {p : Process} (loaded : p.Loaded) : p.runtime.Dormant :=
  ⟨loaded.records.unready, by rw [loaded.sched]; rfl, loaded.records.host,
    by rw [loaded.ring]; rfl⟩

/-- How a start fails in record mode: everything is undone, the alternate stack stays mapped, or
everything is released with the signal state still installed. -/
def Abandoned (p final : Process) (answer : InitAnswer) : Prop :=
  final.runtime.Dormant ∧
    (answer.failsEarly = true ∧ (∃ size, final = { p with altSize := size }) ∨
    answer.failsEarly = false ∧ answer.signalsBlocked = false ∧ final.held ≠ some [] ∨
    answer.failsEarly = false ∧ answer.signalsBlocked = true ∧
      ∃ sp, answer.mmapAltstack = some sp ∧
        p.Stranded final sp (2 * answer.sigstksz) answer.mainCurrent)

/-- The log, the signals and the ring are there, or the start has failed. -/
theorem Loaded.startRecord_cases {p q : Process} {answer : InitAnswer} {ok : Bool}
    (loaded : p.Loaded) (ran : p.startRecord answer = some (q, ok)) :
    ok = false ∧ p.Abandoned q answer ∨
    ok = true ∧ answer.failsEarly = false ∧ answer.signalsBlocked = true ∧
      answer.ringRuns = true ∧ ∃ sp fd, answer.mmapAltstack = some sp ∧
        p.Armed q sp (2 * answer.sigstksz) [.uring] ∧ q.runtime = { p.runtime with
          ring := { Ring.absent with ready := true } }.rrIoSubmitSignalRead fd true := by
  unfold startRecord at ran
  cases recorded : p.rrRecordInit answer with
  | none =>
      rw [recorded] at ran
      cases ran
  | some outcome =>
  obtain ⟨r, _ | _⟩ := outcome
  · obtain ⟨fails, _, undone⟩ := rrRecordInit_cases loaded.closed recorded
    rw [recorded, undone rfl] at ran
    cases ran
    exact .inl ⟨rfl, loaded.dormant,
      .inl ⟨by simp [InitAnswer.failsEarly, fails], p.altSize, rfl⟩⟩
  obtain ⟨opens, log, _⟩ := rrRecordInit_cases loaded.closed recorded
  obtain ⟨addr, logFd, rfl⟩ := log rfl
  rw [recorded] at ran
  dsimp only at ran
  cases signalled : (p.withLog addr logFd).rrSignalInit answer with
  | mk r done =>
  obtain ⟨runtime, ends⟩ := rrSignalInit_cases loaded.closed loaded.altSp signalled
  rw [signalled] at ran
  rcases ends with
    ⟨early, rfl, rfl⟩ | ⟨late, blocked, rfl, leaked⟩ | ⟨blocked, rfl, sp, mapped, armed⟩
  · have opened : ({ p.withLog addr logFd with
        altSize := 2 * answer.sigstksz }).LogOpen addr logFd [] :=
      ⟨rfl, rfl, by simp [withLog, loaded.closed.held]⟩
    dsimp only at ran
    rw [opened.shutdown] at ran
    cases ran
    refine .inl ⟨rfl, loaded.dormant,
      .inl ⟨by rw [InitAnswer.failsEarly, Bool.or_assoc, early, Bool.or_true],
        2 * answer.sigstksz, ?_⟩⟩
    simp [withLog, loaded.closed.ring, loaded.closed.descriptor, loaded.closed.held]
  · cases ran
    refine .inl ⟨rfl, ?_, .inr (.inl ⟨by simp_all [InitAnswer.failsEarly], blocked, leaked⟩)⟩
    rw [rrRecordShutdown_runtime, runtime]
    exact loaded.dormant
  have late : answer.failsEarly = false := by
    simp_all [InitAnswer.failsEarly, InitAnswer.signalsBlocked]
  have began : r.startRing answer = (q, ok) := Option.some.inj ran
  have idle : p.runtime.ring.inflight = [] := by rw [loaded.ring]; rfl
  have ring := armed.startRing answer loaded.sched loaded.records idle runtime
  rw [began] at ring
  rcases ring with ⟨works, up, fd, armed, runtime⟩ | ⟨fails, down, stranded⟩
  · exact .inr ⟨up, late, blocked, works, sp, fd, mapped, armed, runtime⟩
  · refine .inl ⟨down, stranded.dormant, .inr (.inr ⟨late, blocked, sp, mapped, ?_⟩)⟩
    rw [InitAnswer.mainCurrent, fails, Bool.false_and]
    exact stranded

/-- How `rr_init` ends in record mode. -/
theorem Loaded.rrInit_cases {p final : Process} {answer : InitAnswer} (loaded : p.Loaded)
    (ran : p.rrInit answer = some final) :
    (∃ sp size stack fd, p.Begun final sp size stack fd) ∨ p.Abandoned final answer := by
  unfold rrInit at ran
  rw [if_pos loaded.records.modeRecord] at ran
  cases recorded : p.startRecord answer with
  | none =>
      rw [recorded] at ran
      cases ran
  | some outcome =>
  obtain ⟨q, ok⟩ := outcome
  rw [recorded] at ran
  rcases loaded.startRecord_cases recorded with
    ⟨rfl, abandoned⟩ | ⟨rfl, late, blocked, works, sp, fd, mapped, armed, runtime⟩
  · cases ran
    exact .inr abandoned
  have unreplayed : q.runtime.config.modeReplay = false := by
    rw [runtime]
    exact loaded.records.modeReplay
  dsimp only at ran
  rw [unreplayed] at ran
  cases ran
  rcases armed.startScheduler answer loaded.sched loaded.records runtime with
    ⟨stack, begun⟩ | stranded
  · exact .inl ⟨sp, _, stack, fd, begun⟩
  · refine .inr ⟨stranded.dormant, .inr (.inr ⟨late, blocked, sp, mapped, ?_⟩)⟩
    rw [InitAnswer.mainCurrent, works, Bool.true_and]
    exact stranded

theorem atLoad_loaded (mask : SigSet) (altstack : AltStack) (segv : Sigaction) (stackSize : Nat) :
    (atLoad mask altstack segv stackSize).Loaded :=
  ⟨⟨rfl, rfl, rfl⟩, rfl, rfl, rfl, rfl, rfl, rfl, rfl⟩

/-- After a failed start-up the process is as it was, and runs as in passthrough mode, exactly
if the start fails before the alternate stack is installed, or if it fails after
`rr_signal_init` and before the main thread is current in a process that had the signal state
of the runtime already. This is for programs without calls of `rr.h`, which the runtime refuses
then. -/
theorem failed_start_undone_iff (mask : SigSet) (altstack : AltStack) (segv : Sigaction)
    (stackSize : Nat) (answer : InitAnswer) (final : Process)
    (ran : (atLoad mask altstack segv stackSize).rrInit answer = some final)
    (failed : final.runtime.config.runtimeReady = false) (program : Program)
    (plain : CallsOnly program) :
    (atLoad mask altstack segv stackSize).LeftAsFound final ∧
        final.runtime.RunsAsPassthrough program stackSize ↔
      answer.failsEarly = true ∨
        answer.signalsBlocked = true ∧ answer.mainCurrent = false ∧
          (atLoad mask altstack segv stackSize).alreadySignalled answer := by
  rcases (atLoad_loaded mask altstack segv stackSize).rrInit_cases ran with
    ⟨sp, size, stack, fd, begun⟩ | ⟨dormant, ends⟩
  · rw [begun.runtime] at failed
    cases failed
  rw [and_iff_left (dormant.runsAsPassthrough plain stackSize)]
  rcases ends with ⟨early, size, rfl⟩ | ⟨late, unblocked, leaked⟩ |
    ⟨late, blocked, sp, mapped, _, sched, disarmed, bare⟩
  · exact iff_of_true ⟨rfl, rfl, rfl, rfl, rfl, rfl, rfl⟩ (.inl early)
  · refine iff_of_false (fun found => leaked found.released) ?_
    rw [late, unblocked]
    simp
  · rw [late, blocked, ← bare.current]
    constructor
    · intro found
      refine .inr ⟨rfl, ?_, ?_, ?_, sp, mapped, ?_⟩
      · rw [← found.current, disarmed.sched]
      · rw [← disarmed.mask, found.mask]
      · rw [← found.segv, disarmed.segv]
      · rw [← found.altstack, disarmed.altstack]
    · rintro (wrong | ⟨_, current, masked, handled, sp', mapped', stacked⟩)
      · cases wrong
      rw [mapped] at mapped'
      cases mapped'
      refine ⟨disarmed.mask.trans masked, disarmed.altstack.trans stacked.symm,
        disarmed.segv.trans handled.symm, disarmed.released, ?_, ?_, ?_⟩
      · rw [disarmed.sched]
        exact current
      · rw [disarmed.sched]
        exact bare.threads
      · rw [disarmed.sched]
        exact bare.allocated

/-- A program that begins with `uthread_create` sees that the start has failed. -/
theorem failed_start_refuses_creation (mask : SigSet) (altstack : AltStack) (segv : Sigaction)
    (stackSize : Nat) (answer : InitAnswer) (final : Process)
    (ran : (atLoad mask altstack segv stackSize).rrInit answer = some final)
    (failed : final.runtime.config.runtimeReady = false) (program : Program) (fn : Fn)
    (first : program none [] = .create (some fn)) :
    ¬ final.runtime.RunsAsPassthrough program stackSize := by
  rcases (atLoad_loaded mask altstack segv stackSize).rrInit_cases ran with
    ⟨sp, size, stack, fd, begun⟩ | ⟨dormant, _⟩
  · rw [begun.runtime] at failed
    cases failed
  · exact dormant.creation_parts first stackSize

/-- A world in which every call of `rr_init` succeeds. -/
def calmInit : InitAnswer where
  dlsym := true
  mmapRing := some 0x10000000
  openLog := some 3
  startTime := 0
  pid := 100
  writes := [.accepted 24]
  sigstksz := 8192
  mmapAltstack := some 0x20000000
  sigaltstack := true
  sigaction := true
  sigprocmask := true
  signalfd := some 4
  queueInit := true
  getSqe := true
  submit := true
  replay := ⟨true, none⟩
  mmapSched := some 0x30000000
  schedContext := true
  calloc := true
  mainContext := true
  fsBase := true
  reallocThreads := true
  reallocAllocated := true

/-- An ordinary process: no signal is blocked, no alternate stack, the default action. -/
def ordinary : Process := atLoad 0 ⟨0, 0, 2⟩ ⟨.default, 0, 0⟩ 8192

/-- A program of one call. -/
def onePid : Program
  | none, [] => .call .getpid
  | _, _ => .ret

theorem onePid_callsOnly : CallsOnly onePid := by
  intro replies
  cases replies with
  | nil => exact .inr ⟨.getpid, rfl⟩
  | cons => exact .inl rfl

theorem unopened_log_undone :
    ∃ final, ordinary.rrInit { calmInit with openLog := none } = some final ∧
      final.runtime.config.runtimeReady = false ∧ ordinary.LeftAsFound final ∧
      final.runtime.RunsAsPassthrough onePid 8192 :=
  ⟨_, rfl, rfl, (failed_start_undone_iff 0 ⟨0, 0, 2⟩ ⟨.default, 0, 0⟩ 8192
    { calmInit with openLog := none } _ rfl rfl onePid onePid_callsOnly).mpr (.inl rfl)⟩

/-- Where the kernel has no `io_uring`, the program goes on with every signal blocked, the
handler in place and an alternate stack that is no longer mapped. -/
theorem no_uring_leaves_signals_blocked :
    ∃ final, ordinary.rrInit { calmInit with queueInit := false } = some final ∧
      final.runtime.config.runtimeReady = false ∧ final.mask = sigfillset ∧
      final.altstack = ⟨0x20000000, 16384, 0⟩ ∧ final.segv = segvAction ∧
      final.held = some [] ∧ ¬ ordinary.LeftAsFound final := by
  refine ⟨_, rfl, rfl, rfl, rfl, rfl, ?_, ?_⟩
  · decide +kernel
  · intro found
    exact absurd found.mask (by decide)

end Process

end Librr
