import Librr.Naming
import Librr.RingFacts
import Librr.Wakers

set_option autoImplicit false

namespace Librr

open Transition

namespace Ring

/-- The tags of all operations that were prepared and not consumed. -/
def tags (ring : Ring) : List UInt64 := ring.entries.map Prod.fst

/-- How many operations with the tag are submitted, or completed and not consumed. -/
def outstanding (ring : Ring) (tag : UInt64) : Nat :=
  (ring.inflight.map Sqe.userData ++ ring.cq.map Cqe.userData).count tag

theorem outstanding_eq {ring : Ring} (drained : ring.sq = []) (tag : UInt64) :
    ring.outstanding tag = ring.tags.count tag := by
  simp [outstanding, tags, entries, drained, Function.comp_def, Sqe.key, Cqe.key]

theorem tags_handed (ring : Ring) (op : IoOp) (userData : UInt64) :
    (ring.push op userData).submit.tags.Perm (userData :: ring.tags) :=
  ((entries_submit _).trans (entries_push ring op userData)).map Prod.fst

theorem tags_complete {ring : Ring} {index : Nat} {sqe : Sqe}
    (flying : ring.inflight[index]? = some sqe) (res : Int32) (data : Bytes) :
    (ring.complete index sqe res data).tags.Perm ring.tags :=
  (entries_complete flying res data).map Prod.fst

theorem tags_cqeSeen (ring : Ring) {cqe : Cqe} {rest : List Cqe} (first : ring.cq = cqe :: rest) :
    ring.tags.Perm (cqe.userData :: ring.cqeSeen.tags) := (entries_cqeSeen first).map Prod.fst

end Ring

namespace Sched

theorem Wakers.of_core {s t : Sched} {tags : List UInt64} (wakers : s.Wakers tags)
    (core : t.core = s.core) : t.Wakers tags := by
  apply wakers.congr
  · intro v ut
    simpa only [Awaits, JoinsAt, core] using wakers.joins v ut
  · intro ut tag
    simp only [IoAt, core]

/-- The actions of the scheduler, whoever wakes whom. -/
theorem Wakers.performed {stackSize : Nat} {s t : Sched} {tags : List UInt64} {ut : Ptr}
    {u : Uthread} {answer : CreateAnswer} {action : Action} (wakers : s.Wakers tags)
    (inv : s.QueueInvariant) (user : s.control = .user) (running : s.running = some (ut, u))
    (performed : s.Local stackSize ut u answer action t) : t.Wakers tags := by
  obtain ⟨current, found, runs⟩ := inv.running_at user running
  cases performed with
  | create fn =>
      have grown : (s.uthreadCreate stackSize fn answer).1.Wakers tags := by
        rcases s.uthreadCreate_effect stackSize fn answer with
          ⟨core, _⟩ | ⟨start, mem, _, core, _⟩
        · exact wakers.of_core core
        · have vacant := inv.unallocated s.brk (Nat.le_refl _)
          exact wakers.created core vacant (by simp [newUthread]) rfl
      exact grown.reply (inv.create_core found stackSize fn answer) runs _ _
  | yield =>
      exact wakers.awake (rrSchedulerYieldCurrent_core current inv.on) found (by simp [runs])
        (by simp [suspend]) rfl
  | joinNow id out reply answered => exact wakers.reply found runs _ _
  | joinWait id out target record hit apart live free =>
      have there := core_some (rrSchedulerFind_some hit).2.1
      have core := joinWait_core current inv.on target (.joining id out target)
      exact wakers.joinWait found runs there (join_apart running hit apart) live free core
  | exit value => exact wakers.exit current inv.on found runs value
  | ret fn started => exact wakers.exit current inv.on found runs 0
  | stop main => exact wakers.of_core rfl

end Sched

namespace State

/-- Submission and creation succeed. -/
def Unfailing : Input → Prop
  | .act answer => answer.create.Succeeds ∧ answer.submit = true
  | .loop answer => answer.submit = true
  | .post _ _ _ => True

/-- Submission succeeds. -/
def Submitting : Input → Prop
  | .act answer => answer.submit = true
  | .loop answer => answer.submit = true
  | .post _ _ _ => True

theorem Unfailing.submitting {input : Input} (unfailing : Unfailing input) : Submitting input := by
  cases input with
  | act answer => exact unfailing.2
  | loop answer => exact unfailing
  | post index res data => trivial

/-- What every step of a recording process keeps in which submission succeeds, as long
as the ids do not wrap: all prepared entries are submitted, the signal read is armed, and
everyone has its waker. -/
structure Watched (s : State) : Prop where
  recording : s.Recording
  named : s.sched.Named
  drained : s.ring.sq = []
  armed : ∃ fd, s.ring.signalFd = some fd
  wakers : s.sched.Wakers s.ring.tags

/-- The same where creations succeed as well. -/
structure Attended (s : State) : Prop where
  recording : s.Recording
  numbered : s.sched.Numbered
  drained : s.ring.sq = []
  armed : ∃ fd, s.ring.signalFd = some fd
  wakers : s.sched.Wakers s.ring.tags

theorem Attended.watched {s : State} (inv : s.Attended) : s.Watched :=
  ⟨inv.recording, inv.numbered.named, inv.drained, inv.armed, inv.wakers⟩

theorem recordStart_attended (stackSize : Nat) (signalFd : Int32) :
    (recordStart stackSize signalFd).Attended := by
  refine ⟨recordStart_recording stackSize signalFd, Sched.afterInit_numbered, rfl,
    ⟨signalFd, rfl⟩, ?_⟩
  have only : ∀ ut u, Sched.afterInit.core ut = some u → u.state = .running ∧
      u.joinWaiter = none := by
    intro ut u found
    by_cases main : ut = 0
    · subst main
      cases found
      exact ⟨rfl, rfl⟩
    · simp [Sched.core, Sched.afterInit, Heap.set_other _ _ main] at found
  refine ⟨?_, ?_, ?_, rfl⟩
  · intro v ut
    refine iff_of_false ?_ ?_
    · rintro ⟨w, found, _, waiter⟩
      rw [(only v w found).2] at waiter
      cases waiter
    · rintro ⟨u, found, blocked, _⟩
      rw [(only ut u found).1] at blocked
      cases blocked
  · intro tag member apart
    exact absurd (List.mem_singleton.mp member) apart
  · rintro ut tag ⟨u, found, _, blocked, _⟩
    rw [(only ut u found).1] at blocked
    cases blocked

theorem recordStart_watched (stackSize : Nat) (signalFd : Int32) :
    (recordStart stackSize signalFd).Watched := (recordStart_attended stackSize signalFd).watched

/-- The signal read is consumed and submitted again. -/
theorem rearmed {s : State} (drained : s.ring.sq = []) (armed : ∃ fd, s.ring.signalFd = some fd)
    {cqe : Cqe} {rest : List Cqe} (first : s.ring.cq = cqe :: rest)
    (sentinel : cqe.userData = rrSignalSentinel) :
    (s.rearmSignalRead true).cqeSeen.ring.sq = [] ∧
      (∃ fd, (s.rearmSignalRead true).cqeSeen.ring.signalFd = some fd) ∧
      (s.rearmSignalRead true).cqeSeen.ring.tags.Perm s.ring.tags := by
  obtain ⟨fd, some⟩ := armed
  rcases s.rearmSignalRead_cases true with ⟨none | full, _⟩ | ⟨fd', armed', _, same⟩
  · rw [some] at none
    cases none
  · rw [drained] at full
    cases full
  · rw [same, if_pos rfl]
    refine ⟨rfl, ⟨fd', armed'⟩, ?_⟩
    have handed := s.ring.tags_handed (.read fd' 128 0) rrSignalSentinel
    have seen := (s.handSignal fd').ring.tags_cqeSeen first
    rw [sentinel] at seen
    exact (seen.symm.trans handed).cons_inv

/-- The ring as it stands, and a scheduler that is as well attended as before. -/
theorem Watched.kept {s t : State} (inv : s.Watched) (ring : t.ring = s.ring)
    (wakers : t.sched.Wakers s.ring.tags) :
    t.ring.sq = [] ∧ (∃ fd, t.ring.signalFd = some fd) ∧ t.sched.Wakers t.ring.tags := by
  rw [ring]
  exact ⟨inv.drained, inv.armed, wakers⟩

theorem Watched.returned {s base : State} {ut : Ptr} {u : Uthread} (inv : s.Watched)
    (user : s.sched.control = .user) (running : s.sched.running = some (ut, u))
    (same : base.sched = s.sched) (args : LogArgs) (call : Call) (result : CallResult) :
    ((base.rrLogSyscall args).returnCall ut call result).sched.Wakers s.ring.tags := by
  obtain ⟨_, found, runs⟩ := inv.recording.queue.running_at user running
  rw [loggedReturn_sched, same]
  exact inv.wakers.reply found runs _ _

theorem Watched.handed {s : State} {ut : Ptr} {u : Uthread} (inv : s.Watched)
    (user : s.sched.control = .user) (running : s.sched.running = some (ut, u)) (op : IoOp)
    (call : Call) : (s.hand op call).sched.Wakers (s.hand op call).ring.tags := by
  obtain ⟨current, found, runs⟩ := inv.recording.queue.running_at user running
  have named : s.sched.currentId = u.id := by simp [Sched.currentId, running]
  have tagged := inv.named.id_ne_sentinel (Sched.of_running running).2
  have blocked := inv.wakers.submitted found runs
    (fun other w here same => inv.named.core_inj here found same) tagged
    (Sched.rrSchedulerBlockCurrent_core current inv.recording.queue.on (.io call s.ring.fresh))
  refine blocked.perm ?_
  have tags := s.ring.tags_handed op s.sched.currentId
  rw [named] at tags
  exact named ▸ tags

/-- A consumed completion finds the uthread it is for. -/
theorem Watched.owner_found {s : State} (inv : s.Watched) {cqe : Cqe} {rest : List Cqe}
    (first : s.ring.cq = cqe :: rest) (tagged : cqe.userData ≠ rrSignalSentinel) :
    ∃ ut u, s.sched.heap ut = some u ∧ s.sched.rrSchedulerFind cqe.userData = some (ut, u) ∧
      u.core.WaitsForIo := by
  have wakers := inv.wakers.perm (s.ring.tags_cqeSeen first).symm
  obtain ⟨ut, u, found, named, waits⟩ := wakers.owner cqe.userData (by simp) tagged
  obtain ⟨v, here, rfl⟩ := Sched.of_core_some found
  have hit := inv.named.find_eq here
  rw [show v.id = cqe.userData from named] at hit
  exact ⟨ut, v, here, hit, waits⟩

theorem Watched.woken {s : State} (inv : s.Watched) {cqe : Cqe} {rest : List Cqe}
    (first : s.ring.cq = cqe :: rest) (tagged : cqe.userData ≠ rrSignalSentinel) :
    (s.sched.rrSchedulerWakeById cqe.userData cqe.res none 0).Wakers s.ring.cqeSeen.tags := by
  have wakers := inv.wakers.perm (s.ring.tags_cqeSeen first).symm
  obtain ⟨ut, v, here, hit, _⟩ := inv.owner_found first tagged
  have core := s.sched.rrSchedulerWakeById_core cqe.userData cqe.res none 0
  rw [hit] at core
  refine wakers.wake tagged ?_ (Sched.core_some here) (Sched.rrSchedulerFind_some hit).2.2 ?_ core
  · intro _ _ _ _ one other same
    exact inv.named.core_inj one other same
  · exact fun _ => rfl

theorem Watched.dispatched {s t : State} {next : Ptr} {u : Uthread} (inv : s.Watched)
    (found : s.sched.runqPopFront.2.heap next = some u) (runnable : u.state = .runnable) :
    (t.switchTo s.sched.runqPopFront.2 next u).sched.Wakers s.ring.tags := by
  obtain ⟨trace, core⟩ :=
    switchTo_core (t := t) (head_resumes inv.recording.framed found runnable) found
  have known : s.sched.core next = some u.core := by
    rw [← Sched.runqPopFront_core, Sched.core_some found]
  have ready : u.core.state = .runnable := runnable
  exact inv.wakers.awake core known (by simp [ready]) (by simp) rfl

theorem Watched.step {program : Program} {s t : State} {input : Input} (inv : s.Watched)
    (taken : Librr.step program s input = some t) (submitting : Submitting input)
    (bounded : t.sched.nextId < 2 ^ 64) : t.Watched := by
  obtain ⟨kind, recording⟩ := inv.recording.step taken
  have named : t.sched.Named := kind.named bounded inv.named
  suffices ring : t.ring.sq = [] ∧ (∃ fd, t.ring.signalFd = some fd) ∧
      t.sched.Wakers t.ring.tags from ⟨recording, named, ring.1, ring.2.1, ring.2.2⟩
  cases kind with
  | perform answer ut u sched user running performed =>
      exact inv.kept rfl (inv.wakers.performed inv.recording.queue user running performed)
  | immediate answer ut u call result args user running next done =>
      exact inv.kept (rrLogSyscall_same _ _).ring (inv.returned user running rfl _ _ _)
  | full answer ut u call op finish user running next submits half filled =>
      rw [inv.drained] at filled
      cases filled
  | refused answer ut u call op finish user running next submits half room failed =>
      rw [show answer.submit = true from submitting] at failed
      cases failed
  | submitted answer ut u call op finish user running next submits half room accepted =>
      exact ⟨rfl, inv.armed, inv.handed user running op call⟩
  | interrupted answer idle empty broken => exact inv.kept rfl inv.wakers
  | killed answer cqe rest idle empty first sentinel full fatal =>
      exact inv.kept (rrLogSignal_same _ _ _).ring (inv.wakers.of_core rfl)
  | signal answer cqe rest idle empty first sentinel full harmless =>
      have same := rrLogSignal_same s s.ring.ssiSigno s.sched.currentId.toUInt32
      rw [← same.ring] at first
      obtain ⟨drained, armed, tags⟩ := rearmed (by rw [same.ring]; exact inv.drained)
        (by rw [same.ring]; exact inv.armed) first sentinel
      rw [same.ring] at tags
      rw [show answer.submit = true from submitting]
      refine ⟨drained, armed, Sched.Wakers.perm ?_ tags⟩
      rw [cqeSeen, (rearmSignalRead_kept _ _).1, same.sched]
      exact inv.wakers
  | short answer cqe rest idle empty first sentinel short =>
      obtain ⟨drained, armed, tags⟩ := rearmed inv.drained inv.armed first sentinel
      rw [show answer.submit = true from submitting]
      refine ⟨drained, armed, Sched.Wakers.perm ?_ tags⟩
      rw [cqeSeen, (rearmSignalRead_kept _ _).1]
      exact inv.wakers
  | wake answer cqe rest idle empty first tagged =>
      exact ⟨inv.drained, inv.armed, inv.woken first tagged⟩
  | dispatch answer next u idle head found runnable =>
      have ring := (resume_kept ((s.logSwitch u.id).arrive s.sched.runqPopFront.2 next u.id)
        next u).2.1
      exact inv.kept (ring.trans (logSwitch_same s u.id).ring) (inv.dispatched found runnable)
  | post index res data sqe live flying =>
      exact ⟨inv.drained, inv.armed, inv.wakers.perm (Ring.tags_complete flying res data)⟩

theorem Attended.step {program : Program} {s t : State} {input : Input} (inv : s.Attended)
    (taken : Librr.step program s input = some t) (unfailing : Unfailing input) : t.Attended := by
  obtain ⟨kind, _⟩ := inv.recording.step taken
  have numbered : t.sched.Numbered := by
    apply kind.numbered inv.numbered
    rintro answer rfl
    exact unfailing.1
  have watched := inv.watched.step taken unfailing.submitting numbered.named.bounded
  exact ⟨watched.recording, numbered, watched.drained, watched.armed, watched.wakers⟩

/-- Induction over a run in which submission succeeds, up to a state in which the ids have
not wrapped: everyone has its waker, and what such steps keep holds. -/
theorem watched_run {program : Program} {holds : State → Input → State → Prop}
    {keeps : State → Prop} {start s : State} {inputs : List Input}
    (preserved : ∀ before input after, Librr.step program before input = some after →
      Submitting input → holds before input after → before.Watched → keeps before → keeps after)
    (initial : start.Watched) (first : keeps start)
    (submitting : ∀ input ∈ inputs, Submitting input)
    (along : Along (Librr.step program) holds start inputs)
    (reached : exec (Librr.step program) start inputs = some s)
    (bounded : s.sched.nextId < 2 ^ 64) : s.Watched ∧ keeps s := by
  have kept : ∀ (before : State) (input : Input) (after : State),
      Librr.step program before input = some after →
      Submitting input ∧ holds before input after →
      before.Recording ∧ (before.sched.nextId < 2 ^ 64 → before.Watched ∧ keeps before) →
      after.Recording ∧ (after.sched.nextId < 2 ^ 64 → after.Watched ∧ keeps after) := by
    intro before input after taken ⟨submits, permitted⟩ ⟨recording, earlier⟩
    obtain ⟨kind, recording'⟩ := recording.step taken
    refine ⟨recording', fun below => ?_⟩
    have counted := kind.nextId_le
    obtain ⟨watched, kept⟩ := earlier (by omega)
    exact ⟨watched.step taken submits below,
      preserved before input after taken submits permitted watched kept⟩
  exact (((along_of_inputs submitting).and along).invariant kept
    ⟨initial.recording, fun _ => ⟨initial, first⟩⟩ reached).2 bounded

/-- A uthread is blocked exactly if one operation of its own or one join target is
going to wake it, but not both. Nobody else has a waker, every wake-up goes to the
uthread that waits for just that, and one signal read is outstanding. -/
structure ExactlyOneWaker (s : State) : Prop where
  blocked : ∀ ut u, s.sched.heap ut = some u → (u.state = .blocked ↔
    Xor (s.ring.outstanding u.id = 1 ∧ ∀ v, ¬ s.sched.Awaits v ut)
      (s.ring.outstanding u.id = 0 ∧ ∃! v, s.sched.Awaits v ut))
  awake : ∀ ut u, s.sched.heap ut = some u → u.state ≠ .blocked →
    s.ring.outstanding u.id = 0 ∧ ∀ v, ¬ s.sched.Awaits v ut
  signal : s.ring.outstanding rrSignalSentinel = 1
  completions : ∀ tag, tag ≠ rrSignalSentinel → s.ring.outstanding tag ≠ 0 →
    ∃ ut u, s.sched.rrSchedulerFind tag = some (ut, u) ∧ u.WaitsForIo
  joiners : ∀ v ut, s.sched.Awaits v ut → ∃ u, s.sched.heap ut = some u ∧ u.WaitsForJoin v

/-- No operation is outstanding for a uthread that is in no call. -/
theorem Watched.none_outstanding {s : State} (inv : s.Watched) {ut : Ptr} {u : Uthread}
    (found : s.sched.heap ut = some u) (outside : ¬ u.WaitsForIo) :
    s.ring.outstanding u.id = 0 := by
  rw [Ring.outstanding_eq inv.drained, List.count_eq_zero]
  intro member
  obtain ⟨owner, v, here, named, waits⟩ :=
    inv.wakers.owner u.id member (inv.named.id_ne_sentinel found)
  obtain ⟨w, there, rfl⟩ := Sched.of_core_some here
  obtain rfl := inv.named.distinct _ _ _ _ there found named
  rw [found] at there
  cases there
  exact outside waits

theorem Watched.unawaited {s : State} (inv : s.Watched) {ut : Ptr} {u : Uthread}
    (found : s.sched.heap ut = some u) (outside : ∀ target, ¬ u.WaitsForJoin target) (v : Ptr) :
    ¬ s.sched.Awaits v ut := by
  intro waited
  obtain ⟨w, here, waits⟩ := (inv.wakers.joins v ut).mp waited
  rw [Sched.core_some found] at here
  cases here
  exact outside v waits

theorem Watched.in_call {s : State} (inv : s.Watched) {ut : Ptr} {u : Uthread}
    (found : s.sched.heap ut = some u) (waits : u.WaitsForIo) :
    s.ring.outstanding u.id = 1 ∧ ∀ v, ¬ s.sched.Awaits v ut := by
  refine ⟨?_, inv.unawaited found fun target => waits.not_join target⟩
  rw [Ring.outstanding_eq inv.drained]
  exact inv.wakers.single ut u.id ⟨u.core, Sched.core_some found, rfl, waits⟩

theorem Watched.in_join {s : State} (inv : s.Watched) {ut target : Ptr} {u : Uthread}
    (found : s.sched.heap ut = some u) (waits : u.WaitsForJoin target) :
    s.ring.outstanding u.id = 0 ∧ ∃! v, s.sched.Awaits v ut := by
  refine ⟨inv.none_outstanding found waits.not_io, target, ?_, ?_⟩
  · exact (inv.wakers.joins target ut).mpr ⟨u.core, Sched.core_some found, waits⟩
  · intro v waited
    obtain ⟨w, here, other⟩ := (inv.wakers.joins v ut).mp waited
    rw [Sched.core_some found] at here
    cases here
    exact (waits.target_inj other).symm

theorem Watched.exactlyOneWaker {s : State} (inv : s.Watched) : s.ExactlyOneWaker := by
  have awake : ∀ ut u, s.sched.heap ut = some u → u.state ≠ .blocked →
      s.ring.outstanding u.id = 0 ∧ ∀ v, ¬ s.sched.Awaits v ut := by
    intro ut u found free
    obtain ⟨noIo, noJoin⟩ := Uthread.idle free
    exact ⟨inv.none_outstanding found noIo, inv.unawaited found noJoin⟩
  refine ⟨?_, awake, ?_, ?_, ?_⟩
  · intro ut u found
    constructor
    · intro blocked
      have fits := inv.recording.framed ut u.core (Sched.core_some found)
      have still : u.core.state = .blocked := blocked
      rw [Uthread.FrameFits, still] at fits
      -- The frame tells which of the two it waits for.
      cases frame : u.core.ctx.frame with
      | io call serial =>
          have io := inv.in_call found ⟨blocked, call, serial, frame⟩
          exact Or.inl ⟨io, fun join => by rw [io.1] at join; cases join.1⟩
      | joining id out target =>
          have join := inv.in_join found ⟨blocked, id, out, frame⟩
          exact Or.inr ⟨join, fun io => by rw [join.1] at io; cases io.1⟩
      | user => rw [frame] at fits; exact fits.elim
      | yielding => rw [frame] at fits; exact fits.elim
      | exiting value => rw [frame] at fits; exact fits.elim
    · intro one
      by_contra free
      obtain ⟨none, nobody⟩ := awake ut u found free
      rcases one with ⟨⟨some, _⟩, _⟩ | ⟨⟨_, v, waited, _⟩, _⟩
      · rw [none] at some
        cases some
      · exact nobody v waited
  · rw [Ring.outstanding_eq inv.drained]
    exact inv.wakers.signal
  · intro tag apart some
    rw [Ring.outstanding_eq inv.drained] at some
    have member : tag ∈ s.ring.tags := List.count_pos_iff.mp (Nat.pos_of_ne_zero some)
    obtain ⟨ut, u, found, named, waits⟩ := inv.wakers.owner tag member apart
    obtain ⟨v, here, rfl⟩ := Sched.of_core_some found
    have hit := inv.named.find_eq here
    rw [show v.id = tag from named] at hit
    exact ⟨ut, v, hit, waits⟩
  · intro v ut waited
    obtain ⟨u, found, waits⟩ := (inv.wakers.joins v ut).mp waited
    obtain ⟨w, here, rfl⟩ := Sched.of_core_some found
    exact ⟨w, here, waits⟩

/-- Between any two steps of a recording process in which submission and creation
succeed, every blocked uthread has exactly one waker. -/
theorem one_waker_between_steps (program : Program) (stackSize : Nat) (signalFd : Int32)
    (inputs : List Input) (s : State)
    (reached : exec (step program) (recordStart stackSize signalFd) inputs = some s)
    (unfailing : ∀ input ∈ inputs, Unfailing input) : s.ExactlyOneWaker := by
  have attended : s.Attended := (along_of_inputs unfailing).invariant
    (fun _ _ _ taken holds inv => inv.step taken holds)
    (recordStart_attended stackSize signalFd) reached
  exact attended.watched.exactlyOneWaker

/-- The main thread creates a uthread and reads; the other one joins the main thread. -/
def readWhileJoined : Program
  | none, [] => .create (some 0)
  | none, [_] => .call (.read 3 (some [0]) 1)
  | none, _ => .ret
  | some _, [] => .join 1 false
  | some _, _ => .exit 0

/-- Both uthreads are blocked, one in its call and one in its join. -/
theorem readWhileJoined_one_waker :
    ∃ s, exec (step readWhileJoined) (recordStart 8192 5)
        [.act .calm, .act .calm, .loop .calm, .act .calm] = some s ∧
      s.sched.stateOf 0 = some .blocked ∧ s.sched.stateOf 1 = some .blocked ∧
      s.ExactlyOneWaker := by
  have ran : (exec (step readWhileJoined) (recordStart 8192 5)
      [.act .calm, .act .calm, .loop .calm, .act .calm]).map
        (fun s => (s.sched.stateOf 0, s.sched.stateOf 1)) =
      some (some .blocked, some .blocked) := by decide +kernel
  obtain ⟨s, reached, states⟩ := Option.map_eq_some_iff.mp ran
  refine ⟨s, reached, congrArg Prod.fst states, congrArg Prod.snd states, ?_⟩
  refine one_waker_between_steps readWhileJoined 8192 5 _ s reached ?_
  intro input member
  simp only [List.mem_cons, List.not_mem_nil, or_false] at member
  rcases member with rfl | rfl | rfl | rfl
  · exact ⟨by decide, rfl⟩
  · exact ⟨by decide, rfl⟩
  · exact rfl
  · exact ⟨by decide, rfl⟩

end State

end Librr
