import Librr.Joins
import Librr.Submissions

set_option autoImplicit false

/-! What a step does to the uthreads, in whatever mode the runtime runs. -/
namespace Librr

open Transition

namespace Sched

/-- The result that a uthread finds when it goes on behind its `swapcontext`, with the action
it is the result of. -/
def due (s : Sched) (written : Nat → Bytes) (u : Uthread) : Option (Action × Reply) :=
  match u.ctx.frame with
  | .user => none
  | .yielding => some (.yield, .yielded)
  | .joining id out target =>
    some (.join id out, .joined 0 none (if out then (s.core target).map Uthread.retval else none))
  | .io call serial =>
    call.wrapper.finish.map fun finish =>
      (.call call, .returned (finish u.ioResult (written serial)).1)
  | .exiting _ => none

theorem frameAt_popped {s : Sched} {next : Ptr} {u : Uthread}
    (found : s.runqPopFront.2.heap next = some u) : s.frameAt next = some u.ctx.frame := by
  rw [← frameAt_congr (runqPopFront_core s), frameAt, core_some found]
  rfl

def proceed (s : Sched) (ut : Ptr) : Option (Action × Reply) → Sched
  | none => s
  | some (action, reply) => s.reply ut action reply

/-- The steps of the runtime as far as the uthreads can tell. Only where the calls are
`async` does a uthread wait in one. -/
inductive Turn (program : Program) (stackSize : Nat) (written : Nat → Bytes) (async : Bool)
    (s : Sched) : Sched → Prop where
  | perform (answer : CreateAnswer) (ut : Ptr) (u : Uthread) (t : Sched)
    (user : s.control = .user) (running : s.running = some (ut, u))
    (performed : s.Local stackSize ut u answer (program u.startFn u.ctx.replies) t) :
    Turn program stackSize written async s t
  | answered (ut : Ptr) (u : Uthread) (call : Call) (result : CallResult)
    (user : s.control = .user) (running : s.running = some (ut, u))
    (next : program u.startFn u.ctx.replies = .call call) :
    Turn program stackSize written async s (s.reply ut (.call call) (.returned result))
  | submitted (ut : Ptr) (u : Uthread) (call : Call) (serial : Nat)
    (user : s.control = .user) (running : s.running = some (ut, u))
    (next : program u.startFn u.ctx.replies = .call call) (submits : call.Submits)
    (waits : async = true) :
    Turn program stackSize written async s (s.rrSchedulerBlockCurrent (.io call serial))
  | woken (id : UInt64) (ioResult : Int32) (ut : Ptr) (u : Uthread)
    (idle : s.control = .scheduler) (empty : s.runqHead = none)
    (hit : s.rrSchedulerFind id = some (ut, u)) (inside : u.WaitsForIo) (waits : async = true) :
    Turn program stackSize written async s (s.rrSchedulerWakeById id ioResult none 0)
  | dispatched (next : Ptr) (u : Uthread) (idle : s.control = .scheduler)
    (head : s.runqHead = some next) (found : s.runqPopFront.2.heap next = some u)
    (runnable : u.state = .runnable) :
    Turn program stackSize written async s
      ((s.runqPopFront.2.dispatch next).proceed next (s.due written u))
  | stopped (control : Control) (idle : s.control = .scheduler)
    (ends : control = .exited ∨ control = .aborted) :
    Turn program stackSize written async s { s with control := control }
  | unmoved : Turn program stackSize written async s s

end Sched

namespace State

/-- Behind its `swapcontext` a uthread finds what is due. -/
theorem switchTo_due {s t : State} (next : Ptr) {u : Uthread} (resumes : u.ctx.frame.Resumes) :
    (t.switchTo s.sched.runqPopFront.2 next u).sched =
      (s.sched.runqPopFront.2.dispatch next).proceed next (s.sched.due t.ring.written u) := by
  rcases switchTo_cases t s.sched.runqPopFront.2 next resumes with
    ⟨inside, same⟩ | ⟨inside, same⟩ | ⟨id, out, target, inside, same⟩ |
    ⟨call, serial, finish, inside, _, half, same⟩
  · rw [same, Sched.due, inside]
    rfl
  · rw [same, Sched.due, inside]
    rfl
  · rw [same, Sched.due, inside, Sched.dispatch_retval]
    rfl
  · rw [same, Sched.due, inside, loggedReturn_sched]
    simp only [half, Option.map_some]
    rfl

theorem rearmed_written (s : State) (submitted : Bool) :
    (s.rearmSignalRead submitted).cqeSeen.ring.written = s.ring.written := by
  rcases s.rearmSignalRead_cases submitted with ⟨_, same⟩ | ⟨fd, _, _, same⟩
  · rw [same]
    rfl
  · rw [same]
    cases submitted <;> rfl

section Record

variable {program : Program} {s t : State} {input : Input}

/-- In record mode. The kernel may store data at any time, and touches no uthread. -/
theorem RecordStep.turn (inv : s.Paired) (kind : RecordStep program s input t) :
    (∃ index res data sqe, s.ring.inflight[index]? = some sqe ∧ t.sched = s.sched ∧
        t.ring.written = (s.ring.complete index sqe res data).written) ∨
      t.ring.written = s.ring.written ∧
        s.sched.Turn program s.config.stackSize s.ring.written true t.sched := by
  cases kind with
  | perform answer ut u sched user running performed =>
      exact .inr ⟨rfl, .perform answer.create ut u sched user running performed⟩
  | immediate answer ut u call result args user running next done =>
      rw [loggedReturn_sched, loggedReturn_ring]
      exact .inr ⟨rfl, .answered ut u call result user running next⟩
  | full answer ut u call op finish user running next submits half filled =>
      rw [loggedReturn_sched, loggedReturn_ring]
      exact .inr ⟨rfl, .answered ut u call _ user running next⟩
  | refused answer ut u call op finish user running next submits half room failed =>
      rw [loggedReturn_sched, loggedReturn_ring]
      exact .inr ⟨rfl, .answered ut u call _ user running next⟩
  | submitted answer ut u call op finish user running next submits half room accepted =>
      exact .inr ⟨rfl, .submitted ut u call s.ring.fresh user running next
        ⟨answer, op, submits⟩ rfl⟩
  | interrupted answer idle empty broken => exact .inr ⟨rfl, .unmoved⟩
  | killed answer cqe rest idle empty first sentinel full fatal =>
      have same := rrLogSignal_same s s.ring.ssiSigno s.sched.currentId.toUInt32
      exact .inr ⟨congrArg Ring.written same.ring, .stopped .exited idle (.inl rfl)⟩
  | signal answer cqe rest idle empty first sentinel full harmless =>
      have same := rrLogSignal_same s s.ring.ssiSigno s.sched.currentId.toUInt32
      refine .inr ⟨?_, ?_⟩
      · exact (rearmed_written _ _).trans (congrArg Ring.written same.ring)
      · rw [cqeSeen, (rearmSignalRead_kept _ _).1, same.sched]
        exact .unmoved
  | short answer cqe rest idle empty first sentinel short =>
      refine .inr ⟨rearmed_written _ _, ?_⟩
      rw [cqeSeen, (rearmSignalRead_kept _ _).1]
      exact .unmoved
  | wake answer cqe rest idle empty first tagged =>
      obtain ⟨ut, u, here, hit, blocked, call⟩ := inv.owner first tagged
      obtain ⟨_, request, inside⟩ := call
      exact .inr ⟨rfl, .woken cqe.userData cqe.res ut u idle empty hit
        ⟨blocked, request, cqe.serial, inside⟩ rfl⟩
  | dispatch answer next u idle head found runnable =>
      have resumes := head_resumes inv.recording.framed found runnable
      have same := logSwitch_same s u.id
      refine .inr ⟨?_, ?_⟩
      · rw [switchTo_eq, (resume_kept _ _ _).2.1, arrive, same.ring]
      · have moved := switchTo_due (s := s) (t := s.logSwitch u.id) next resumes
        rw [moved, same.ring]
        exact .dispatched next u idle head found runnable
  | post index res data sqe live flying =>
      exact .inl ⟨index, res, data, sqe, flying, rfl, rfl⟩

end Record

/-- In replay mode. -/
theorem ReplayStep.turn {program : Program} {s t : State} {input : Input} (inv : s.Replaying)
    (kind : ReplayStep program s input t) :
    t.ring = s.ring ∧ s.sched.Turn program s.config.stackSize s.ring.written false t.sched := by
  cases kind with
  | perform answer ut u sched user running performed =>
      exact ⟨rfl, .perform answer.create ut u sched user running performed⟩
  | answered answer ut u call reader event user running next matched =>
      exact ⟨rfl, .answered ut u call _ user running next⟩
  | refused answer ut u call reader errno user running next missed =>
      exact ⟨rfl, .answered ut u call _ user running next⟩
  | idle answer idle empty => exact ⟨rfl, .unmoved⟩
  | again answer next u idle head found runnable same =>
      refine ⟨by rw [switchTo_eq, (resume_kept _ _ _).2.1, arrive], ?_⟩
      rw [switchTo_due next (head_resumes inv.framed found runnable)]
      exact .dispatched next u idle head found runnable
  | switch answer next u reader idle head found runnable apart expected =>
      refine ⟨by rw [switchTo_eq, (resume_kept _ _ _).2.1, arrive], ?_⟩
      rw [switchTo_due next (head_resumes inv.framed found runnable)]
      exact .dispatched next u idle head found runnable
  | abort answer next u reader errno idle head found runnable apart unexpected =>
      exact ⟨rfl, .stopped .aborted idle (.inr rfl)⟩

/-- A runtime that neither records nor replays. -/
structure Passes (s : State) : Prop where
  modeRecord : s.config.modeRecord = false
  modeReplay : s.config.modeReplay = false
  ready : s.config.runtimeReady = true
  ring : s.ring.ready = false
  inflight : s.ring.inflight = []

inductive PassStep (program : Program) (s : State) : Input → State → Prop where
  | perform (answer : Answer) (ut : Ptr) (u : Uthread) (sched : Sched)
    (user : s.sched.control = .user) (running : s.sched.running = some (ut, u))
    (performed : s.sched.Local s.config.stackSize ut u answer.create
      (program u.startFn u.ctx.replies) sched) :
    PassStep program s (.act answer) { s with sched := sched }
  | called (answer : Answer) (ut : Ptr) (u : Uthread) (call : Call)
    (user : s.sched.control = .user) (running : s.sched.running = some (ut, u))
    (next : program u.startFn u.ctx.replies = .call call) :
    PassStep program s (.act answer) (s.returnCall ut call (call.wrapper.plain answer.real))
  | idle (answer : WaitAnswer) (idle : s.sched.control = .scheduler)
    (empty : s.sched.runqHead = none) : PassStep program s (.loop answer) s
  | dispatch (answer : WaitAnswer) (next : Ptr) (u : Uthread)
    (idle : s.sched.control = .scheduler) (head : s.sched.runqHead = some next)
    (found : s.sched.runqPopFront.2.heap next = some u) (runnable : u.state = .runnable) :
    PassStep program s (.loop answer) (s.switchTo s.sched.runqPopFront.2 next u)

section Pass

variable {program : Program} {s t : State} {input : Input}

theorem Passes.act {answer : Answer} (passes : s.Passes) (user : s.sched.control = .user)
    (taken : s.act program answer = some t) : PassStep program s (.act answer) t := by
  simp only [State.act, passes.ready, ↓reduceIte, Option.map_eq_some_iff, Prod.exists] at taken
  obtain ⟨ut, u, running, rfl⟩ := taken
  by_cases isCall : ∃ call, program u.startFn u.ctx.replies = .call call
  · obtain ⟨call, next⟩ := isCall
    have inactive : s.config.rrActive = false := by simp [Config.rrActive, passes.modeRecord]
    have reads : s.config.rrReplayActive = false := by
      simp [Config.rrReplayActive, passes.modeReplay]
    simp only [next, State.perform, wrappedCall, inactive, reads, Bool.false_eq_true, ↓reduceIte]
    exact .called answer ut u call user running next
  · have apart : ∀ call, program u.startFn u.ctx.replies ≠ .call call :=
      fun call same => isCall ⟨call, same⟩
    obtain ⟨sched, performed, same⟩ := perform_local running answer apart
    rw [same]
    exact .perform answer ut u sched user running performed

theorem Passes.loop {answer : WaitAnswer} (passes : s.Passes) (inv : s.sched.QueueInvariant)
    (idle : s.sched.control = .scheduler) (taken : s.schedulerLoop answer = some t) :
    PassStep program s (.loop answer) t := by
  unfold schedulerLoop at taken
  cases head : s.sched.runqHead with
  | none =>
      simp only [Sched.runqPopFront, head, rrIoWait, passes.ring, Bool.not_false, Bool.true_or,
        ↓reduceIte, Option.some.injEq] at taken
      subst taken
      exact .idle answer idle head
  | some next =>
      obtain ⟨v, known, runnable, _⟩ := inv.next_eq head
      obtain ⟨u, found, rfl⟩ :=
        Sched.of_core_some (s := s.sched.runqPopFront.2) (Sched.runqPopFront_core s.sched ▸ known)
      have popped : s.sched.runqPopFront = (some next, s.sched.runqPopFront.2) :=
        Prod.ext (Sched.runqPopFront_links head).1 rfl
      have reads : s.config.rrReplayActive = false := by
        simp [Config.rrReplayActive, passes.modeReplay]
      have unlogged : s.rrLogSched s.sched.currentId u.id = s := by
        simp [rrLogSched, passes.modeRecord]
      have ready : u.state = .runnable := runnable
      rw [popped] at taken
      simp only [found, ready, ne_eq, not_true_eq_false, ↓reduceIte, reads, Bool.false_eq_true,
        unlogged, ite_self, Option.some.injEq] at taken
      subst taken
      exact .dispatch answer next u idle head found ready

theorem Passes.step (passes : s.Passes) (inv : s.sched.QueueInvariant)
    (taken : Librr.step program s input = some t) : PassStep program s input t := by
  cases input with
  | act answer =>
      simp only [Librr.step, Option.ite_none_right_eq_some] at taken
      exact passes.act taken.1 taken.2
  | loop answer =>
      simp only [Librr.step, Option.ite_none_right_eq_some] at taken
      exact passes.loop inv taken.1 taken.2
  | post index res data => simp [Librr.step, passes.inflight] at taken

/-- In a process that neither records nor replays. -/
theorem PassStep.turn (framed : s.sched.Framed) (kind : PassStep program s input t) :
    t.config = s.config ∧ t.ring = s.ring ∧
      s.sched.Turn program s.config.stackSize s.ring.written false t.sched := by
  cases kind with
  | perform answer ut u sched user running performed =>
      exact ⟨rfl, rfl, .perform answer.create ut u sched user running performed⟩
  | called answer ut u call user running next =>
      exact ⟨rfl, rfl, .answered ut u call _ user running next⟩
  | idle answer idle empty => exact ⟨rfl, rfl, .unmoved⟩
  | dispatch answer next u idle head found runnable =>
      refine ⟨by rw [switchTo_eq, (resume_kept _ _ _).1, arrive],
        by rw [switchTo_eq, (resume_kept _ _ _).2.1, arrive], ?_⟩
      rw [switchTo_due next (head_resumes framed found runnable)]
      exact .dispatched next u idle head found runnable

end Pass

end State

namespace Sched

/-- A process of which only the uthreads matter. -/
def alone (s : Sched) (written : Nat → Bytes) : State :=
  { State.fresh ⟨false, false, true, true, 0⟩ with
    sched := s
    ring := { Ring.absent with written := written } }

theorem dispatched_eq (s : Sched) (written : Nat → Bytes) (next : Ptr) {u : Uthread}
    (resumes : u.ctx.frame.Resumes) :
    (s.runqPopFront.2.dispatch next).proceed next (s.due written u) =
      ((s.alone written).switchTo s.runqPopFront.2 next u).sched :=
  (State.switchTo_due (s := s.alone written) (t := s.alone written) next resumes).symm

/-- What is known of the uthreads between steps. -/
structure Sound (program : Program) (tags : List UInt64) (s : Sched) : Prop where
  queue : s.QueueInvariant
  framed : s.Framed
  named : s.Named
  wakers : s.Wakers tags
  joined : Joined program s

theorem afterInit_sound (program : Program) : afterInit.Sound program [rrSignalSentinel] where
  queue := afterInit_queueInvariant
  framed := State.afterInit_framed
  named := afterInit_numbered.named
  wakers := (State.recordStart_watched 0 0).wakers
  joined := State.recordStart_joined program 0 0

section Turns

variable {program : Program} {stackSize : Nat} {written : Nat → Bytes} {async : Bool}
  {s t : Sched} {tags : List UInt64}

theorem Turn.refines (turn : s.Turn program stackSize written async t) (queue : s.QueueInvariant)
    (framed : s.Framed) : ∃ ops, exec schedStep s ops = some t := by
  cases turn with
  | perform answer ut u t user running performed => exact performed.refines user running
  | answered ut u call result user running next =>
      exact ⟨[.proceed (.call call) (.returned result)],
        exec_single (proceed_step user (of_running running).1 _ _)⟩
  | submitted ut u call serial user running next submits waits =>
      exact ⟨[.block call serial], exec_single (if_pos user)⟩
  | woken id ioResult ut u idle empty hit inside waits =>
      exact ⟨[.wake id ioResult], exec_single (if_pos ⟨idle, empty⟩)⟩
  | dispatched next u idle head found runnable =>
      have resumes := State.head_resumes (s := s.alone written) framed found runnable
      rw [s.dispatched_eq written next resumes]
      exact State.switchTo_refines (s := s.alone written) queue idle head _
  | stopped control idle ends =>
      refine ⟨[.stop (control = .aborted)], exec_single ?_⟩
      rcases ends with rfl | rfl <;> rfl
  | unmoved => exact ⟨[], rfl⟩

theorem Turn.framed (turn : s.Turn program stackSize written async t) (queue : s.QueueInvariant)
    (framed : s.Framed) : t.Framed := by
  cases turn with
  | perform answer ut u t user running performed =>
      exact framed.performed queue user running performed
  | answered ut u call result user running next =>
      obtain ⟨_, found, runs⟩ := queue.running_at user running
      exact framed.reply found runs _ _
  | submitted ut u call serial user running next submits waits =>
      exact framed.modify (rrSchedulerBlockCurrent_core (of_running running).1 queue.on _)
        fun _ _ => submits
  | woken id ioResult ut u idle empty hit inside waits => exact framed.wake id ioResult
  | dispatched next u idle head found runnable =>
      have resumes := State.head_resumes (s := s.alone written) framed found runnable
      rw [s.dispatched_eq written next resumes]
      exact State.framed_switchTo (s := s.alone written) framed found runnable
  | stopped control idle ends => exact framed
  | unmoved => exact framed

/-- The records and their ids stay, but for a creation. -/
theorem Turn.births (turn : s.Turn program stackSize written async t) (framed : s.Framed) :
    s.SameBirths t ∨ ∃ answer ut u fn, s.Local stackSize ut u answer (.create fn) t := by
  cases turn with
  | perform answer ut u t user running performed =>
      by_cases creates : ∃ fn, program u.startFn u.ctx.replies = .create fn
      · obtain ⟨fn, same⟩ := creates
        rw [same] at performed
        exact .inr ⟨answer, ut, u, fn, performed⟩
      · exact .inl (performed.births fun fn same => creates ⟨fn, same⟩)
  | answered ut u call result user running next => exact .inl (reply_births _ _ _ _)
  | submitted ut u call serial user running next submits waits => exact .inl (block_births _ _)
  | woken id ioResult ut u idle empty hit inside waits => exact .inl (wake_births _ _ _ _ _)
  | dispatched next u idle head found runnable =>
      have resumes := State.head_resumes (s := s.alone written) framed found runnable
      rw [s.dispatched_eq written next resumes]
      exact .inl (State.switchTo_births _ _ _ _)
  | stopped control idle ends => exact .inl ⟨fun _ => rfl, rfl, rfl, rfl, rfl, rfl⟩
  | unmoved => exact .inl (.refl s)

/-- A record stays where it is, with its id. -/
theorem Turn.persists (turn : s.Turn program stackSize written async t)
    (queue : s.QueueInvariant) (framed : s.Framed) {ut : Ptr} {u : Uthread}
    (found : s.heap ut = some u) : ∃ v, t.heap ut = some v ∧ v.id = u.id := by
  rcases turn.births framed with births | ⟨answer, self, v, fn, performed⟩
  · exact birthAt_id (births.births ut).symm found
  · cases performed with
    | create =>
        have kept := queue.create_core (core_some found) stackSize fn answer
        obtain ⟨w, there, same⟩ := of_core_some kept
        have births := reply_births (s.uthreadCreate stackSize fn answer).1 self (.create fn)
          (.created (s.uthreadCreate stackSize fn answer).2)
        obtain ⟨x, here, named⟩ := birthAt_id (births.births ut).symm there
        refine ⟨x, here, named.trans ?_⟩
        exact (congrArg Uthread.id same : w.core.id = u.core.id)

theorem Turn.nextId_le (turn : s.Turn program stackSize written async t) (framed : s.Framed) :
    s.nextId ≤ t.nextId := by
  rcases turn.births framed with births | ⟨answer, ut, u, fn, performed⟩
  · exact Nat.le_of_eq births.nextId.symm
  · cases performed with
    | create => exact s.create_nextId_le stackSize fn answer

theorem Turn.named (turn : s.Turn program stackSize written async t) (framed : s.Framed)
    (bounded : t.nextId < 2 ^ 64) (named : s.Named) : t.Named := by
  rcases turn.births framed with births | ⟨answer, ut, u, fn, performed⟩
  · exact named.same births
  · cases performed with
    | create =>
        have births := reply_births (s.uthreadCreate stackSize fn answer).1 ut (.create fn)
          (.created (s.uthreadCreate stackSize fn answer).2)
        exact (named.create _ _ _ (births.nextId ▸ bounded)).same births

theorem Turn.joined (turn : s.Turn program stackSize written async t)
    (sound : s.Sound program tags) : Joined program t := by
  cases turn with
  | perform answer ut u t user running performed =>
      exact sound.joined.performed sound.wakers sound.queue user running performed
  | answered ut u call result user running next =>
      obtain ⟨_, found, runs⟩ := sound.queue.running_at user running
      refine sound.joined.reply found runs _ _ ?_
      intro _ _ _ other
      cases other
  | submitted ut u call serial user running next submits waits =>
      obtain ⟨current, found, runs⟩ := sound.queue.running_at user running
      exact sound.joined.suspend found runs
        (rrSchedulerBlockCurrent_core current sound.queue.on _) (by simp) (by simp)
  | woken id ioResult ut u idle empty hit inside waits =>
      have core := s.rrSchedulerWakeById_core id ioResult none 0
      rw [hit] at core
      refine sound.joined.woken (core_some (rrSchedulerFind_some hit).2.1) inside ?_ core
      exact fun _ => ⟨rfl, rfl⟩
  | dispatched next u idle head found runnable =>
      have resumes := State.head_resumes (s := s.alone written) sound.framed found runnable
      rw [s.dispatched_eq written next resumes]
      exact State.joined_switchTo (s := s.alone written) sound.joined sound.framed found runnable
  | stopped control idle ends => exact sound.joined.of_core rfl
  | unmoved => exact sound.joined

/-- Where no call waits, nothing but a join does. -/
theorem Turn.wakers (turn : s.Turn program stackSize written false t)
    (queue : s.QueueInvariant) (framed : s.Framed) (wakers : s.Wakers tags) : t.Wakers tags := by
  cases turn with
  | perform answer ut u t user running performed =>
      exact wakers.performed queue user running performed
  | answered ut u call result user running next =>
      obtain ⟨_, found, runs⟩ := queue.running_at user running
      exact wakers.reply found runs _ _
  | submitted ut u call serial user running next submits waits => cases waits
  | woken id ioResult ut u idle empty hit inside waits => cases waits
  | dispatched next u idle head found runnable =>
      have resumes := State.head_resumes (s := s.alone written) framed found runnable
      rw [s.dispatched_eq written next resumes]
      obtain ⟨trace, core⟩ := State.switchTo_core (s := s.alone written)
        (t := s.alone written) resumes found
      have known : s.core next = some u.core := by
        rw [← runqPopFront_core, core_some found]
      have ready : u.core.state = .runnable := runnable
      exact wakers.awake core known (by simp [ready]) (by simp) rfl
  | stopped control idle ends => exact wakers.of_core rfl
  | unmoved => exact wakers

theorem Turn.sound (turn : s.Turn program stackSize written false t)
    (bounded : t.nextId < 2 ^ 64) (sound : s.Sound program tags) : t.Sound program tags where
  queue := State.queueInvariant_of_refines sound.queue (turn.refines sound.queue sound.framed)
  framed := turn.framed sound.queue sound.framed
  named := turn.named sound.framed bounded sound.named
  wakers := turn.wakers sound.queue sound.framed sound.wakers
  joined := turn.joined sound

end Turns

end Sched

end Librr
