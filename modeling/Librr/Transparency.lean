import Librr.ExactTrace
import Librr.KilledReplay
import Librr.TaskRuns

set_option autoImplicit false

namespace Librr

open Transition IntrusiveQueue

namespace Sched

/-- No uthread has received the result of a wrapped function. -/
def Unanswered (s t : Sched) : Prop :=
  ∀ ut v call reply, t.core ut = some v → (.call call, reply) ∈ v.ctx.trace →
    ∃ u, s.core ut = some u ∧ (.call call, reply) ∈ u.ctx.trace

section Unanswered

variable {s t w : Sched} {cur : Ptr}

theorem Unanswered.of_core (core : t.core = s.core) : s.Unanswered t :=
  fun _ v _ _ found inside => ⟨v, core ▸ found, inside⟩

theorem Unanswered.trans (first : s.Unanswered t) (second : t.Unanswered w) : s.Unanswered w := by
  intro ut v call reply found inside
  obtain ⟨u, middle, earlier⟩ := second ut v call reply found inside
  exact first ut u call reply middle earlier

theorem Unanswered.of_map {change : Ptr → Uthread → Uthread}
    (core : ∀ ut, t.core ut = (s.core ut).map (change ut))
    (kept : ∀ ut u, (change ut u).ctx.trace = u.ctx.trace) : s.Unanswered t := by
  intro ut v call reply found inside
  rw [core] at found
  obtain ⟨u, present, rfl⟩ := Option.map_eq_some_iff.mp found
  rw [kept] at inside
  exact ⟨u, present, inside⟩

theorem Unanswered.of_modify {change : Uthread → Uthread} (core : t.core = s.core.modify cur change)
    (kept : ∀ u, (change u).ctx.trace = u.ctx.trace) : s.Unanswered t := by
  refine .of_map (fun ut => (congrFun core ut).trans (Heap.modify_eq_map ..)) fun ut u => ?_
  split
  · exact kept u
  · rfl

/-- A reply to anything but a wrapped function. -/
theorem Unanswered.reply (s : Sched) (cur : Ptr) {action : Action} (reply : Reply)
    (other : ∀ call, action ≠ .call call) : s.Unanswered (s.reply cur action reply) := by
  intro ut v call given found inside
  rw [reply_core, Heap.modify_apply] at found
  split at found
  · rename_i own
    subst own
    obtain ⟨u, present, rfl⟩ := Option.map_eq_some_iff.mp found
    rcases List.mem_append.mp inside with old | new
    · exact ⟨u, present, old⟩
    · have same := List.mem_singleton.mp new
      exact absurd (Prod.mk.inj same).1.symm (other call)
  · exact ⟨v, found, inside⟩

theorem Unanswered.exit (current : s.current = some cur) (on : s.schedRunning = true)
    (value : UInt64) : s.Unanswered (s.rrSchedulerExitCurrent value) := by
  refine .of_map (rrSchedulerExitCurrent_core current on value) fun ut u => ?_
  split
  · rfl
  · split
    · exact (wakeRecord_kept (fun _ => ⟨rfl, rfl⟩) u).2
    · rfl

theorem Unanswered.wake (s : Sched) (id : UInt64) (ioResult : Int32) :
    s.Unanswered (s.rrSchedulerWakeById id ioResult none 0) := by
  have core := s.rrSchedulerWakeById_core id ioResult none 0
  cases hit : s.rrSchedulerFind id with
  | none =>
      simp only [hit] at core
      exact .of_core core
  | some found =>
      simp only [hit] at core
      refine .of_modify core fun u => ?_
      exact (@wakeRecord_kept (completed ioResult _) (fun _ => ⟨rfl, rfl⟩) u).2

theorem Unanswered.arrive (s : Sched) (next : Ptr) :
    s.Unanswered (s.runqPopFront.2.dispatch next) := by
  refine .trans (.of_core (runqPopFront_core s)) ?_
  exact .of_modify (dispatch_core _ _) fun _ => rfl

theorem Local.no_call {stackSize : Nat} {u : Uthread} {answer : CreateAnswer} {action : Action}
    (performed : s.Local stackSize cur u answer action t) (call : Call) : action ≠ .call call := by
  rintro rfl
  cases performed

/-- An action that is no wrapped call. -/
theorem Local.unanswered {stackSize : Nat} {u : Uthread} {answer : CreateAnswer} {action : Action}
    (performed : s.Local stackSize cur u answer action t) (inv : s.QueueInvariant)
    (running : s.running = some (cur, u)) : s.Unanswered t := by
  obtain ⟨current, _⟩ := of_running running
  cases performed with
  | create fn =>
      refine .trans ?_ (.reply _ _ _ fun call same => (by cases same))
      rcases s.uthreadCreate_effect stackSize fn answer with ⟨core, _⟩ | ⟨start, mem, _, core, _⟩
      · exact .of_core core
      · intro ut v call reply found inside
        rw [core, Heap.set_apply] at found
        split at found
        · cases found
          cases inside
        · exact ⟨v, found, inside⟩
  | yield => exact .of_modify (rrSchedulerYieldCurrent_core current inv.on) fun _ => rfl
  | joinNow id out reply answered => exact .reply _ _ _ fun call same => (by cases same)
  | joinWait id out target record hit other live free =>
      have still : (s.modify target (awaitedBy cur)).current = some cur := current
      have blocked := rrSchedulerBlockCurrent_core still inv.on (.joining id out target)
      have first : s.Unanswered (s.modify target (awaitedBy cur)) :=
        .of_modify (awaitedBy_core s target cur) fun _ => rfl
      exact first.trans (.of_modify blocked fun _ => rfl)
  | exit value => exact .exit current inv.on value
  | ret fn started => exact .exit current inv.on 0
  | stop main => exact .of_core rfl

end Unanswered

/-- Whatever the uthreads have received is what the function of libc can return. -/
def Possible (s : Sched) : Prop :=
  ∀ ut u call result, s.core ut = some u → (.call call, .returned result) ∈ u.ctx.trace →
    ∃ real, call.wrapper.plain real = result

end Sched

/-- A failure and a success that stores something are what libc returns in some world. -/
theorem realResult_of {result : CallResult} {object second : Option Bytes}
    (outcome : result.Failed object second ∨
      ∃ data, result.Stored object data second ∧ 0 ≤ result.ret) :
    ∃ real, realResult real (realOut real object) (realZone real second) = result := by
  rcases outcome with failed | ⟨data, stored, done⟩
  · obtain ⟨errno, _, rfl⟩ := failed.eq
    exact ⟨⟨-1, errno, [], []⟩, by simp [realResult, realOut, realZone]⟩
  · have other : result.ret ≠ -1 := by omega
    -- A zone that is there already is stored once more.
    refine ⟨⟨result.ret, 0, data, second.getD []⟩, Eq.trans ?_ stored.eq.symm⟩
    have kept : realZone ⟨result.ret, 0, data, second.getD []⟩ second = second := by
      cases second <;> simp [realZone, done, overwrite]
    rw [realResult, kept]
    simp [realOut, done, other]

/-- What the kernel gives to the recorded call, it can give to the plain one. -/
theorem Call.Genuine.plain {call : Call} {result : CallResult} (genuine : call.Genuine result) :
    ∃ real, call.wrapper.plain real = result := by
  have single : ∀ {object : Option Bytes}, (result.Failed object none ∨
      ∃ data, result.Stored object data none ∧ 0 ≤ result.ret) →
      ∃ real, realResult real (realOut real object) none = result := fun outcome => by
    simpa only [realZone_none] using realResult_of outcome
  have passed : result.Failed none none ∨
      (result.Stored none [] none ∧ 0 ≤ result.ret ∧ result.ret < 2 ^ 31) →
      ∃ real : Real, realResult real none none = result := by
    intro outcome
    obtain ⟨real, returned⟩ := single
      (outcome.imp_right fun ⟨stored, done, _⟩ => ⟨[], stored, done⟩)
    exact ⟨real, by simpa [realOut] using returned⟩
  cases call with
  | read fd buf count =>
      exact single (genuine.imp_right fun ⟨data, stored, length, _⟩ => ⟨data, stored, by omega⟩)
  | recv sockfd buf len flags =>
      exact single (genuine.imp_right fun ⟨data, stored, length, _⟩ => ⟨data, stored, by omega⟩)
  | clockGettime clockId tp =>
      exact realResult_of (genuine.imp_right fun ⟨data, stored, zero, _⟩ =>
        ⟨data, stored, by omega⟩)
  | gettimeofday tv tz =>
      exact realResult_of (genuine.imp_right fun ⟨data, stored, zero, _⟩ =>
        ⟨data, stored, by omega⟩)
  | write fd buf => exact passed genuine
  | send sockfd buf flags => exact passed genuine
  | connect sockfd addr => exact passed genuine
  | openat dirfd pathname flags mode => exact passed genuine
  | close fd => exact passed genuine
  | getpid => exact ⟨⟨result.ret, 0, [], []⟩, genuine.1.eq.symm⟩
  | accept sockfd addr addrlen => exact genuine.elim
  | nanosleep req rem => exact genuine.elim
  | getuid => exact genuine.elim
  | uname buf => exact genuine.elim
  | stat path st => exact genuine.elim
  | fstat fd st => exact genuine.elim
  | lstat path st => exact genuine.elim
  | getcwd buf size => exact genuine.elim

namespace State

/-- Every result of a wrapped function that a uthread has received has been seen. -/
def Observed (s : State) : Prop :=
  ∀ ut u call result, s.sched.core ut = some u → (.call call, .returned result) ∈ u.ctx.trace →
    ∃ id, .returned id call result ∈ s.history

section Observed

variable {s t : State}

theorem Observed.quiet (observed : s.Observed) (unanswered : s.sched.Unanswered t.sched)
    (history : s.history <+: t.history) : t.Observed := by
  intro ut v call result found inside
  obtain ⟨u, earlier, member⟩ := unanswered ut v call (.returned result) found inside
  obtain ⟨id, seen⟩ := observed ut u call result earlier member
  exact ⟨id, history.subset seen⟩

theorem Observed.returned (observed : s.Observed) (args : LogArgs) (ut : Ptr) (call : Call)
    (result : CallResult) : ((s.rrLogSyscall args).returnCall ut call result).Observed := by
  obtain ⟨sched, history⟩ : (s.rrLogSyscall args).sched = s.sched ∧
      (s.rrLogSyscall args).history = s.history := by
    unfold rrLogSyscall
    split <;> exact ⟨rfl, rfl⟩
  intro other v asked answer found inside
  simp only [returnCall, sched, history] at found ⊢
  rw [Sched.reply_core, Heap.modify_apply] at found
  split at found
  · rename_i own
    subst own
    obtain ⟨u, present, rfl⟩ := Option.map_eq_some_iff.mp found
    rcases List.mem_append.mp inside with old | new
    · obtain ⟨id, seen⟩ := observed _ u asked answer present old
      exact ⟨id, List.mem_append_left _ seen⟩
    · have same := List.mem_singleton.mp new
      simp only [Prod.mk.injEq, Action.call.injEq, Reply.returned.injEq] at same
      obtain ⟨rfl, rfl⟩ := same
      exact ⟨_, List.mem_append_right _ List.mem_cons_self⟩
  · obtain ⟨id, seen⟩ := observed other v asked answer found inside
    exact ⟨id, List.mem_append_left _ seen⟩

theorem RecordStep.observed {program : Program} {input : Input} (inv : s.Recording)
    (observed : s.Observed) (taken : RecordStep program s input t)
    (history : s.history <+: t.history) : t.Observed := by
  cases taken with
  | perform answer ut u sched user running performed =>
      exact observed.quiet (performed.unanswered inv.queue running) history
  | immediate answer ut u call result args user running next done =>
      exact observed.returned args ut call result
  | full answer ut u call op finish user running next submits half filled =>
      exact observed.returned _ ut call _
  | refused answer ut u call op finish user running next submits half room failed =>
      have left : (s.leave op).Observed :=
        observed.quiet (.of_core rfl) (List.prefix_append _ _)
      exact left.returned _ ut call _
  | submitted answer ut u call op finish user running next submits half room accepted =>
      have blocked := Sched.rrSchedulerBlockCurrent_core (Sched.of_running running).1 inv.queue.on
        (.io call s.ring.fresh)
      exact observed.quiet (.of_modify blocked fun _ => rfl) history
  | interrupted answer idle empty broken => exact observed
  | killed answer cqe rest idle empty first sentinel full fatal =>
      rw [inv.records.logSignal] at history ⊢
      exact observed.quiet (.of_core rfl) history
  | signal answer cqe rest idle empty first sentinel full harmless =>
      refine observed.quiet (.of_core ?_) history
      rw [cqeSeen, (rearmSignalRead_kept _ _).1, inv.records.logSignal]
      rfl
  | short answer cqe rest idle empty first sentinel short =>
      refine observed.quiet (.of_core ?_) history
      rw [cqeSeen, (rearmSignalRead_kept _ _).1]
  | wake answer cqe rest idle empty first tagged =>
      exact observed.quiet (.wake _ _ _) history
  | dispatch answer next u idle head found runnable =>
      have arrived := Sched.Unanswered.arrive s.sched next
      rcases (s.logSwitch u.id).switchTo_cases s.sched.runqPopFront.2 next
          (head_resumes inv.framed found runnable) with
        ⟨_, same⟩ | ⟨_, same⟩ | ⟨_, _, _, _, same⟩ | ⟨call, serial, finish, _, _, _, same⟩
      · rw [same] at history ⊢
        exact observed.quiet arrived history
      · rw [same] at history ⊢
        exact observed.quiet (arrived.trans (.reply _ _ _ fun _ other => (by cases other))) history
      · rw [same] at history ⊢
        exact observed.quiet (arrived.trans (.reply _ _ _ fun _ other => (by cases other))) history
      · have there : (((s.logSwitch u.id).arrive s.sched.runqPopFront.2 next u.id).observe
            [.answered serial u.ioResult]).Observed := by
          refine observed.quiet arrived ?_
          rw [inv.records.logSwitch]
          exact (List.prefix_append _ _).trans (List.prefix_append _ _)
        rw [same]
        exact there.returned _ next call _
  | post index res data sqe live flying => exact observed.quiet (.of_core rfl) history

end Observed

/-- The same process without `RR_MODE=replay` and without a log. -/
def plain (s : State) : State :=
  { s with config := { s.config with modeReplay := false }, reader := .closed }

section Plain

variable {program : Program} {s t : State} {input : Input}

theorem Replays.plain (replays : s.Replays) : s.plain.Passes :=
  ⟨replays.modeRecord, rfl, replays.ready, replays.ring, replays.inflight⟩

theorem Passes.call (passes : s.Passes) (ut : Ptr) (call : Call) (answer : Answer) :
    s.wrappedCall ut call answer = s.returnCall ut call (call.wrapper.plain answer.real) := by
  have inactive : s.config.rrActive = false := by simp [Config.rrActive, passes.modeRecord]
  have reads : s.config.rrReplayActive = false := by
    simp [Config.rrReplayActive, passes.modeReplay]
  simp only [wrappedCall, inactive, reads, Bool.false_eq_true, ↓reduceIte]

theorem Passes.dispatch (program : Program) (passes : s.Passes)
    (idle : s.sched.control = .scheduler) {next : Ptr}
    {u : Uthread} (head : s.sched.runqHead = some next)
    (found : s.sched.runqPopFront.2.heap next = some u) (runnable : u.state = .runnable)
    (answer : WaitAnswer) :
    Librr.step program s (.loop answer) = some (s.switchTo s.sched.runqPopFront.2 next u) := by
  have popped : s.sched.runqPopFront = (some next, s.sched.runqPopFront.2) :=
    Prod.ext (Sched.runqPopFront_links head).1 rfl
  have reads : s.config.rrReplayActive = false := by
    simp [Config.rrReplayActive, passes.modeReplay]
  have unlogged : s.rrLogSched s.sched.currentId u.id = s := by
    simp [rrLogSched, passes.modeRecord]
  rw [Librr.step, if_pos idle, schedulerLoop, popped]
  simp only [found, runnable, ne_eq, not_true_eq_false, ↓reduceIte, reads, Bool.false_eq_true,
    unlogged, ite_self]

theorem NoCall.outside (clear : s.NoCall) {next : Ptr} {u : Uthread}
    (found : s.sched.runqPopFront.2.heap next = some u) (call : Call) (serial : Nat) :
    u.ctx.frame ≠ .io call serial := by
  intro inside
  apply clear.frames next call serial
  rw [Sched.frameAt_popped found, inside]

end Plain

theorem Observed.possible {s : State} (observed : s.Observed)
    (genuine : ∀ id call result, .returned id call result ∈ s.history → call.Genuine result) :
    s.sched.Possible := by
  intro ut u call result found inside
  obtain ⟨id, seen⟩ := observed ut u call result found inside
  exact (genuine id call result seen).plain

/-- A plain process beside a recording one: it stands where the other stands, but does not
queue the uthread whose call the other is still waiting for. -/
structure Mirrored (program : Program) (r q : State) : Prop where
  current : q.sched.current = r.sched.current
  queue : ∃ items, Represents r.sched.links items ∧
    Represents q.sched.links (items.filter fun ut => !r.sched.inCall ut)
  next : ∀ ut, q.sched.nextAction program ut = r.sched.nextAction program ut
  finished : ∀ ut, q.sched.traceAt ut = r.sched.traceAt ut

theorem Corresponds.mirrored {program : Program} {log : List Event} {r p : State}
    (corresponds : Corresponds program log r p) : Mirrored program r p.plain :=
  ⟨corresponds.current, corresponds.queue, corresponds.next, corresponds.finished⟩

theorem Tied.replaying {program : Program} {view : Action × Reply → Action × Reply}
    {log : List Event} {r p : State} (tied : Tied program view log r p) :
    p.Replaying ∧ p.NoCall := by
  cases tied with
  | settled aligned idle => exact ⟨aligned.replaying, aligned.clear⟩
  | waiting base ut u call serial aligned inside blocked outstanding =>
      exact ⟨aligned.replaying, aligned.clear⟩
  | woken base ut u call serial raw aligned inside queued idle =>
      exact ⟨aligned.replaying, aligned.clear⟩

end State

end Librr
