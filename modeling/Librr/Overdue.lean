import Librr.Overlap
import Librr.RingMoves

set_option autoImplicit false

namespace Librr

open Relation Transition

/-- Not runnable, and in no call whose operation is older than `serial`. -/
def Uthread.Asleep (u : Uthread) (serial : Nat) : Prop :=
  u.state ≠ .runnable ∧ ∀ call own, u.state = .blocked → u.ctx.frame = .io call own → serial ≤ own

theorem Uthread.asleep_of_running {u : Uthread} (runs : u.state = .running) (serial : Nat) :
    u.Asleep serial := by
  refine ⟨by simp [runs], ?_⟩
  intro call own blocked
  rw [runs] at blocked
  cases blocked

/-- The action ends the uthread. -/
def Uthread.Ends (u : Uthread) (action : Action) : Prop :=
  (∃ value, action = .exit value) ∨ action = .ret ∧ u.startFn ≠ none

namespace Sched

def AsleepAt (s : Sched) (ut : Ptr) (serial : Nat) : Prop :=
  ∃ u, s.core ut = some u ∧ u.Asleep serial

section

variable {s t : Sched} {p cur : Ptr} {serial : Nat}

theorem AsleepAt.of_core (asleep : s.AsleepAt p serial) (core : t.core = s.core) :
    t.AsleepAt p serial := by
  rw [AsleepAt, core]
  exact asleep

/-- One record changes; if it is this one, it is asleep afterwards. -/
theorem AsleepAt.modify {change : Uthread → Uthread} (asleep : s.AsleepAt p serial)
    (core : t.core = s.core.modify cur change)
    (kept : p = cur → ∀ u, s.core cur = some u → u.Asleep serial → (change u).Asleep serial) :
    t.AsleepAt p serial := by
  obtain ⟨u, found, rests⟩ := asleep
  rw [AsleepAt, core, Heap.modify_apply]
  by_cases own : p = cur
  · subst own
    exact ⟨change u, by rw [if_pos rfl, found, Option.map_some], kept rfl u found rests⟩
  · exact ⟨u, by rw [if_neg own, found], rests⟩

theorem AsleepAt.reply {u : Uthread} (asleep : s.AsleepAt p serial) (found : s.core cur = some u)
    (runs : u.state = .running) (action : Action) (reply : Reply) :
    (s.reply cur action reply).AsleepAt p serial := by
  refine asleep.modify (reply_core s cur action reply) ?_
  intro _ v present _
  rw [found] at present
  cases present
  refine Uthread.asleep_of_running ?_ serial
  exact runs

/-- An exit wakes at most the uthread that has joined the one that ends. -/
theorem AsleepAt.exit {u : Uthread} (asleep : s.AsleepAt p serial) (current : s.current = some cur)
    (on : s.schedRunning = true) (found : s.core cur = some u) (other : u.joinWaiter ≠ some p)
    (value : UInt64) : (s.rrSchedulerExitCurrent value).AsleepAt p serial := by
  obtain ⟨v, present, rests⟩ := asleep
  rw [AsleepAt, rrSchedulerExitCurrent_core current on, present, Option.map_some]
  refine ⟨_, rfl, ?_⟩
  by_cases own : p = cur
  · rw [if_pos own]
    exact ⟨by simp [markDone], by simp [markDone]⟩
  · rw [if_neg own, found, Option.bind_some, if_neg other]
    exact rests

/-- The scheduler's actions, where the uthread does not yield and whoever it has joined
does not end. -/
theorem AsleepAt.performed {stackSize : Nat} {u : Uthread} {answer : CreateAnswer}
    {action : Action} (asleep : s.AsleepAt p serial) (inv : s.QueueInvariant)
    (user : s.control = .user) (running : s.running = some (cur, u))
    (stays : ¬ (cur = p ∧ action = .yield)) (kept : ¬ (u.joinWaiter = some p ∧ u.Ends action))
    (performed : s.Local stackSize cur u answer action t) : t.AsleepAt p serial := by
  obtain ⟨current, found, runs⟩ := inv.running_at user running
  cases performed with
  | create fn =>
      obtain ⟨w, there, rests⟩ := asleep
      have grown : (s.uthreadCreate stackSize fn answer).1.AsleepAt p serial :=
        ⟨w, inv.create_core there stackSize fn answer, rests⟩
      exact grown.reply (inv.create_core found stackSize fn answer) runs _ _
  | yield =>
      refine asleep.modify (rrSchedulerYieldCurrent_core current inv.on) ?_
      exact fun same => absurd ⟨same.symm, rfl⟩ stays
  | joinNow id out reply answered => exact asleep.reply found runs _ _
  | joinWait id out target record hit other live free =>
      have still : (s.modify target (awaitedBy cur)).current = some cur := current
      have core := rrSchedulerBlockCurrent_core still inv.on (.joining id out target)
      have noted : (s.modify target (awaitedBy cur)).AsleepAt p serial :=
        asleep.modify (awaitedBy_core s target cur) fun _ _ _ rests => rests
      refine noted.modify core fun _ w _ _ => ⟨by simp [suspend], ?_⟩
      intro call serial _ frame
      cases frame
  | exit value =>
      exact asleep.exit current inv.on found (fun joined => kept ⟨joined, .inl ⟨value, rfl⟩⟩) value
  | ret fn started =>
      exact asleep.exit current inv.on found
        (fun joined => kept ⟨joined, .inr ⟨rfl, by simp [started]⟩⟩) 0
  | stop main => exact asleep.of_core rfl

end

end Sched

namespace Ring

/-- The operation of `cqe` has completed before the serial `serial` was given out: it
cannot complete again, and in the queue only older operations are ahead of it. -/
structure Finished (ring : Ring) (cqe : Cqe) (serial : Nat) : Prop where
  fresh : serial ≤ ring.fresh
  old : cqe.serial < serial
  gone : ∀ sqe ∈ ring.sq ++ ring.inflight, sqe.serial ≠ cqe.serial
  ahead : ∀ front back, ring.cq = front ++ cqe :: back → ∀ other ∈ front, other.serial < serial

theorem Serials.finished {ring : Ring} (serials : ring.Serials) {cqe : Cqe}
    (member : cqe ∈ ring.cq) : ring.Finished cqe ring.fresh := by
  have below : ∀ other ∈ ring.cq, other.serial < ring.fresh := by
    intro other inside
    exact serials.below other.key (by simp [entries, List.mem_map_of_mem inside])
  refine ⟨Nat.le_refl _, below cqe member, ?_, ?_⟩
  · intro sqe inside same
    have apart := serials.nodup
    rw [entries, ← List.append_assoc, ← List.map_append, List.map_append, List.map_map,
      List.map_map] at apart
    exact List.disjoint_of_nodup_append apart (List.mem_map_of_mem inside)
      (List.mem_map.mpr ⟨cqe, member, same.symm⟩)
  · intro front back split other inside
    exact below other (by simp [split, inside])

/-- A move keeps this, and brings no completion back that has been consumed. -/
theorem Finished.move {ring other : Ring} {cqe : Cqe} {serial : Nat}
    (finished : ring.Finished cqe serial) (move : Move ring other) :
    other.Finished cqe serial ∧ (cqe ∈ other.cq → cqe ∈ ring.cq) := by
  obtain ⟨fresh, old, gone, ahead⟩ := finished
  cases move with
  | push op userData =>
      refine ⟨⟨by simp only [push]; omega, old, ?_, ahead⟩, id⟩
      intro sqe inside
      simp only [push, List.append_assoc, List.mem_append, List.mem_singleton] at inside
      rcases inside with queued | rfl | flying
      · exact gone sqe (by simp [queued])
      · show ring.fresh ≠ cqe.serial
        omega
      · exact gone sqe (by simp [flying])
  | submit =>
      refine ⟨⟨fresh, old, ?_, ahead⟩, id⟩
      intro sqe inside
      simp only [submit, List.nil_append, List.mem_append] at inside
      exact gone sqe (List.mem_append.mpr inside.symm)
  | complete index sqe res data flying =>
      have present : sqe ∈ ring.inflight := List.mem_of_getElem? flying
      have apart : (⟨sqe.userData, res, sqe.serial⟩ : Cqe) ≠ cqe := by
        rintro rfl
        exact gone sqe (by simp [present]) rfl
      refine ⟨⟨fresh, old, ?_, ?_⟩, ?_⟩
      · intro entry inside
        refine gone entry ?_
        rcases List.mem_append.mp inside with queued | rest
        · exact List.mem_append_left _ queued
        · exact List.mem_append_right _ (List.mem_of_mem_eraseIdx rest)
      · intro front back split
        -- The new completion is the last one, so `cqe` stands before it.
        have whole : ring.cq ++ [⟨sqe.userData, res, sqe.serial⟩] = front ++ cqe :: back := split
        rcases List.eq_nil_or_concat back with rfl | ⟨rest, last, rfl⟩
        · exact absurd (List.cons.inj (List.append_inj' whole rfl).2).1 apart
        · rw [List.concat_eq_append, ← List.cons_append, ← List.append_assoc] at whole
          exact ahead front rest (List.append_inj' whole rfl).1
      · intro member
        rcases List.mem_append.mp member with queued | last
        · exact queued
        · exact absurd (List.mem_singleton.mp last).symm apart
  | seen head rest first =>
      have tail : ring.cqeSeen.cq = rest := by simp [cqeSeen, first]
      refine ⟨⟨fresh, old, gone, ?_⟩, ?_⟩
      · intro front back split entry inside
        rw [tail] at split
        exact ahead (head :: front) back (by rw [first, split]; rfl) entry (by simp [inside])
      · intro member
        rw [tail] at member
        rw [first]
        exact List.mem_cons_of_mem head member

theorem Finished.moves {ring other : Ring} {cqe : Cqe} {serial : Nat}
    (finished : ring.Finished cqe serial) (moves : ReflTransGen Move ring other) :
    other.Finished cqe serial ∧ (cqe ∈ other.cq → cqe ∈ ring.cq) := by
  induction moves with
  | refl => exact ⟨finished, id⟩
  | tail _ last ih =>
      obtain ⟨next, back⟩ := ih.1.move last
      exact ⟨next, fun member => ih.2 (back member)⟩

end Ring

namespace State

/-- `scheduler_loop` dispatches the uthread at `p`. -/
structure Dispatches (s t : State) (p : Ptr) : Prop where
  idle : s.sched.control = .scheduler
  user : t.sched.control = .user
  current : t.sched.current = some p

/-- The completion is for a uthread that is blocked and is not the one at `p`. -/
def ForAnother (s : State) (p : Ptr) (cqe : Cqe) : Prop :=
  ∃ q u, q ≠ p ∧ s.sched.heap q = some u ∧ u.id = cqe.userData ∧ u.state = .blocked

/-- A completion for another blocked uthread was in the queue when the one at `p` was
dispatched and has not been consumed since. -/
def Overdue (program : Program) (start : State) (inputs : List Input) (p : Ptr) : Prop :=
  ∃ before first since s₀ s₁ s cqe, inputs = before ++ first :: since ∧
    exec (step program) start before = some s₀ ∧ step program s₀ first = some s₁ ∧
    exec (step program) s₁ since = some s ∧ s₀.Dispatches s₁ p ∧
    cqe ∈ s₀.ring.cq ∧ s₀.ForAnother p cqe ∧ cqe ∈ s.ring.cq

/-- The step makes the uthread at `p` runnable other than by completing the call it is in:
it yields, the one it has joined ends, or a completion of another operation is taken for
it. -/
def Revives (program : Program) (s : State) (p : Ptr) : Input → Prop
  | .act _ => ∃ ut u, s.sched.running = some (ut, u) ∧
    (ut = p ∧ program u.startFn u.ctx.replies = .yield ∨
      u.joinWaiter = some p ∧ u.Ends (program u.startFn u.ctx.replies))
  | .loop _ => ∃ head rest u, s.sched.runqHead = none ∧ s.ring.cq = head :: rest ∧
    s.sched.rrSchedulerFind head.userData = some (p, u) ∧ u.state = .blocked ∧
    ∀ call, u.ctx.frame ≠ .io call head.serial
  | .post _ _ _ => False

theorem Recording.dispatched {program : Program} {s t : State} {input : Input} {p : Ptr}
    (recording : s.Recording) (taken : Librr.step program s input = some t)
    (dispatches : s.Dispatches t p) : ∃ u, s.sched.core p = some u ∧ u.state = .runnable := by
  obtain ⟨kind, _⟩ := recording.step taken
  obtain ⟨idle, user, current⟩ := dispatches
  have stays : t.sched.control = s.sched.control →
      ∃ u, s.sched.core p = some u ∧ u.state = .runnable := by
    intro same
    rw [same, idle] at user
    cases user
  have acts : s.sched.control ≠ .user := by simp [idle]
  cases kind with
  | perform answer ut u sched user' running performed => exact absurd user' acts
  | immediate answer ut u call result args user' running next done => exact absurd user' acts
  | full answer ut u call op finish user' running next submits half filled =>
      exact absurd user' acts
  | refused answer ut u call op finish user' running next submits half room failed =>
      exact absurd user' acts
  | submitted answer ut u call op finish user' running next submits half room accepted =>
      exact absurd user' acts
  | interrupted answer idle' empty broken => exact stays rfl
  | killed answer cqe rest idle' empty first sentinel full fatal => cases user
  | signal answer cqe rest idle' empty first sentinel full harmless =>
      refine stays ?_
      rw [cqeSeen, (rearmSignalRead_kept _ _).1, (rrLogSignal_same _ _ _).sched]
  | short answer cqe rest idle' empty first sentinel short =>
      refine stays ?_
      rw [cqeSeen, (rearmSignalRead_kept _ _).1]
  | wake answer cqe rest idle' empty first tagged =>
      exact stays (s.sched.rrSchedulerWakeById_frame cqe.userData cqe.res none 0).control
  | dispatch answer next u idle' head found runnable =>
      rw [switchTo_current] at current
      cases current
      refine ⟨u.core, ?_, runnable⟩
      rw [← Sched.runqPopFront_core, Sched.core_some found]
  | post index res data sqe live flying => exact stays rfl

/-- What holds from the dispatch of the uthread at `p` on: while the completion is there,
the uthread stays asleep. -/
structure Resting (s : State) (p : Ptr) (cqe : Cqe) (serial : Nat) : Prop where
  recording : s.Recording
  finished : s.ring.Finished cqe serial
  asleep : cqe ∈ s.ring.cq → s.sched.AsleepAt p serial

theorem asleepAt_returned {s base : State} {ut p : Ptr} {u : Uthread} {serial : Nat}
    (asleep : s.sched.AsleepAt p serial) (queue : s.sched.QueueInvariant)
    (user : s.sched.control = .user) (running : s.sched.running = some (ut, u))
    (same : base.sched = s.sched) (args : LogArgs) (call : Call) (result : CallResult) :
    ((base.rrLogSyscall args).returnCall ut call result).sched.AsleepAt p serial := by
  obtain ⟨_, found, runs⟩ := queue.running_at user running
  rw [loggedReturn_sched, same]
  exact asleep.reply found runs _ _

/-- The completions ahead are of older operations, so none of them is the uthread's. -/
theorem asleepAt_woken {s : State} {p : Ptr} {cqe head : Cqe} {rest : List Cqe} {serial : Nat}
    (asleep : s.sched.AsleepAt p serial) (finished : s.ring.Finished cqe serial)
    (first : s.ring.cq = head :: rest) (later : cqe ∈ rest)
    (own : ∀ u, s.sched.rrSchedulerFind head.userData = some (p, u) → u.state = .blocked →
      ∃ call, u.ctx.frame = .io call head.serial) :
    (s.sched.rrSchedulerWakeById head.userData head.res none 0).AsleepAt p serial := by
  have core := s.sched.rrSchedulerWakeById_core head.userData head.res none 0
  cases hit : s.sched.rrSchedulerFind head.userData with
  | none =>
      rw [hit] at core
      exact asleep.of_core core
  | some found =>
      obtain ⟨ut, u⟩ := found
      rw [hit] at core
      refine asleep.modify core ?_
      rintro rfl v present rests
      obtain ⟨_, there, _⟩ := Sched.rrSchedulerFind_some hit
      obtain rfl : u.core = v := Option.some.inj ((Sched.core_some there).symm.trans present)
      by_cases blocked : u.core.state = .blocked
      · obtain ⟨call, inside⟩ := own u hit blocked
        obtain ⟨front, back, split⟩ := List.append_of_mem later
        have young := rests.2 call head.serial blocked inside
        have old := finished.ahead (head :: front) back (by rw [first, split]; rfl) head (by simp)
        omega
      · rw [Sched.wakeRecord, if_neg blocked]
        exact rests

theorem Resting.step {program : Program} {s t : State} {input : Input} {p : Ptr} {cqe : Cqe}
    {serial : Nat} (inv : s.Resting p cqe serial) (taken : Librr.step program s input = some t)
    (patient : cqe ∈ s.ring.cq → ¬ s.Revives program p input) : t.Resting p cqe serial := by
  obtain ⟨kind, recording⟩ := inv.recording.step taken
  obtain ⟨finished, stayed⟩ := inv.finished.moves kind.moves
  refine ⟨recording, finished, fun member => ?_⟩
  have calm := patient (stayed member)
  have asleep := inv.asleep (stayed member)
  have queue := inv.recording.queue
  cases kind with
  | perform answer ut u sched user running performed =>
      refine asleep.performed queue user running ?_ ?_ performed
      · exact fun yields => calm ⟨ut, u, running, .inl yields⟩
      · exact fun ends => calm ⟨ut, u, running, .inr ends⟩
  | immediate answer ut u call result args user running next done =>
      exact asleepAt_returned asleep queue user running rfl _ _ _
  | full answer ut u call op finish user running next submits half filled =>
      exact asleepAt_returned asleep queue user running rfl _ _ _
  | refused answer ut u call op finish user running next submits half room failed =>
      have same : (s.leave op).sched = s.sched := rfl
      exact asleepAt_returned asleep queue user running same _ _ _
  | submitted answer ut u call op finish user running next submits half room accepted =>
      obtain ⟨current, _⟩ := Sched.of_running running
      refine asleep.modify (Sched.rrSchedulerBlockCurrent_core current queue.on _) ?_
      refine fun _ w _ _ => ⟨by simp [Sched.suspend], ?_⟩
      intro call' own _ inside
      cases inside
      exact inv.finished.fresh
  | interrupted answer idle empty broken => exact asleep
  | killed answer head rest idle empty first sentinel full fatal => exact asleep.of_core rfl
  | signal answer head rest idle empty first sentinel full harmless =>
      rw [cqeSeen, (rearmSignalRead_kept _ _).1, (rrLogSignal_same _ _ _).sched]
      exact asleep
  | short answer head rest idle empty first sentinel short =>
      rw [cqeSeen, (rearmSignalRead_kept _ _).1]
      exact asleep
  | wake answer head rest idle empty first tagged =>
      have later : cqe ∈ rest := by
        simpa [Ring.cqeSeen, first] using member
      refine asleepAt_woken asleep inv.finished first later ?_
      intro u hit blocked
      by_contra outside
      exact calm ⟨head, rest, u, empty, first, hit, blocked,
        fun call inside => outside ⟨call, inside⟩⟩
  | dispatch answer next u idle head found runnable =>
      obtain ⟨trace, core⟩ := switchTo_core (t := s.logSwitch u.id)
        (head_resumes inv.recording.framed found runnable) found
      exact asleep.modify core fun _ w _ _ => Uthread.asleep_of_running rfl serial
  | post index res data sqe live flying => exact asleep

/-- In every recording run in which no uthread is made runnable other than by its own call
while a completion is overdue since its dispatch, no uthread is dispatched while one is. -/
theorem finished_io_not_passed_over (program : Program) (stackSize : Nat) (signalFd : Int32)
    (inputs : List Input)
    (patient : ∀ front next back s t p, inputs = front ++ next :: back →
      exec (step program) (recordStart stackSize signalFd) front = some s →
      step program s next = some t → Overdue program (recordStart stackSize signalFd) front p →
        ¬ s.Revives program p next) :
    ∀ front next back s t p, inputs = front ++ next :: back →
      exec (step program) (recordStart stackSize signalFd) front = some s →
      step program s next = some t → s.Dispatches t p →
      ¬ Overdue program (recordStart stackSize signalFd) front p := by
  rintro front next back s t p whole reached taken dispatches
    ⟨before, first, since, s₀, s₁, s', cqe, split, start, dispatched, ran, again, member, other,
      unconsumed⟩
  have upto : exec (step program) (recordStart stackSize signalFd) (before ++ [first]) =
      some s₁ := exec_append.mpr ⟨s₀, start, exec_single dispatched⟩
  obtain rfl : s' = s := by
    have joined : exec (step program) (recordStart stackSize signalFd) front = some s' := by
      rw [split]
      exact exec_append.mpr ⟨s₀, start, exec_cons.mpr ⟨s₁, dispatched, ran⟩⟩
    exact Option.some.inj (joined.symm.trans reached)
  have recording := recording_of_exec start
  have finished := ((serials_of_exec start).finished member).moves
    (recording.step dispatched).1.moves
  have initial : s₁.Resting p cqe s₀.ring.fresh := by
    have after := (recording.step dispatched).2
    refine ⟨after, finished.1, fun _ => ?_⟩
    obtain ⟨cur, u, current, found, runs, _⟩ := after.queue.runningCore again.user
    obtain rfl : cur = p := Option.some.inj (current.symm.trans again.current)
    exact ⟨u, found, Uthread.asleep_of_running runs _⟩
  have along : Along (step program)
      (fun state input _ => cqe ∈ state.ring.cq → ¬ state.Revives program p input) s₁ since := by
    refine along_of_splits ?_
    intro early input late state after parts got moved inside
    refine patient (before ++ first :: early) input (late ++ next :: back) state after p ?_ ?_
      moved ?_
    · rw [whole, split, parts]
      simp
    · exact exec_append.mpr ⟨s₀, start, exec_cons.mpr ⟨s₁, dispatched, got⟩⟩
    · exact ⟨before, first, early, s₀, s₁, state, cqe, rfl, start, dispatched, got, again, member,
        other, inside⟩
  have kept : ∀ (state : State) (input : Input) (after : State),
      step program state input = some after →
      (cqe ∈ state.ring.cq → ¬ state.Revives program p input) →
      state.Resting p cqe s₀.ring.fresh → after.Resting p cqe s₀.ring.fresh :=
    fun _ _ _ moved patient resting => resting.step moved patient
  have resting := along.invariant kept initial ran
  obtain ⟨u, found, rests⟩ := resting.asleep unconsumed
  obtain ⟨v, here, runnable⟩ := resting.recording.dispatched taken dispatches
  rw [found] at here
  cases here
  exact rests.1 runnable

/-- A step that revives nobody, as a check. -/
def quiet (program : Program) (s : State) : Input → Bool
  | .act _ =>
    match s.sched.running with
    | none => true
    | some (_, u) =>
      match program u.startFn u.ctx.replies with
      | .create _ => true
      | .call _ => true
      | _ => false
  | .loop _ =>
    match s.ring.cq with
    | [] => true
    | head :: _ =>
      match s.sched.rrSchedulerFind head.userData with
      | none => true
      | some (_, u) =>
        match u.ctx.frame with
        | .io _ serial => serial = head.serial
        | _ => false
  | .post _ _ _ => true

theorem quiet_revives_nobody {program : Program} {s : State} {input : Input}
    (calm : s.quiet program input = true) (p : Ptr) : ¬ s.Revives program p input := by
  cases input with
  | act answer =>
      rintro ⟨ut, u, running, acts⟩
      simp only [quiet, running] at calm
      rcases acts with ⟨_, yields⟩ | ⟨_, ⟨value, exits⟩ | ⟨returns, _⟩⟩
      · simp [yields] at calm
      · simp [exits] at calm
      · simp [returns] at calm
  | loop answer =>
      rintro ⟨head, rest, u, _, first, hit, _, outside⟩
      simp only [quiet, first, hit] at calm
      split at calm
      · rename_i call serial inside
        rw [decide_eq_true_eq] at calm
        exact outside call (by rw [inside, calm])
      · cases calm
  | post index res data => exact id

/-- Both uthreads read; the first completion is there before the second read. -/
def readTwice : Program
  | none, [] => .create (some 0)
  | none, _ => .call (.read 3 (some [0]) 1)
  | some _, _ => .call (.read 4 (some [0]) 1)

def readTwiceRun : List Input :=
  [.act .calm, .act .calm, .post 1 0 [], .loop .calm, .act .calm, .loop .calm]

theorem readTwice_not_passed_over :
    ∃ s t, exec (step readTwice) (recordStart 8192 5) readTwiceRun = some s ∧
      step readTwice s (.loop .calm) = some t ∧ s.Dispatches t 0 ∧
      ¬ Overdue readTwice (recordStart 8192 5) readTwiceRun 0 := by
  have woken : (exec (step readTwice) (recordStart 8192 5) readTwiceRun).map (fun s =>
      s.sched.control) = some .scheduler := by decide +kernel
  have dispatched : (exec (step readTwice) (recordStart 8192 5)
      (readTwiceRun ++ [.loop .calm])).map (fun s => (s.sched.control, s.sched.current)) =
      some (.user, some 0) := by decide +kernel
  have calm : Along (step readTwice) (fun s input _ => s.quiet readTwice input = true)
      (recordStart 8192 5) (readTwiceRun ++ [.loop .calm]) := by decide +kernel
  obtain ⟨s, reached, idle⟩ := Option.map_eq_some_iff.mp woken
  obtain ⟨t, last, facts⟩ := Option.map_eq_some_iff.mp dispatched
  obtain ⟨user, current⟩ := Prod.mk.inj facts
  have taken := exec_after reached last
  refine ⟨s, t, reached, taken, ⟨idle, user, current⟩, ?_⟩
  refine finished_io_not_passed_over readTwice 8192 5 (readTwiceRun ++ [.loop .calm]) ?_
    readTwiceRun (.loop .calm) [] s t 0 rfl reached taken ⟨idle, user, current⟩
  intro front next back before after p split got moved _
  exact quiet_revives_nobody (calm.at_split split got moved) p

/-- The main thread reads; the other one yields for ever. -/
def yieldBesideRead : Program
  | none, [] => .create (some 0)
  | none, _ => .call (.read 3 (some [0]) 1)
  | some _, _ => .yield

/-- The read has completed before the first dispatch of the other uthread, and is passed
over by the second. -/
theorem yieldBesideRead_passed_over :
    ∃ s t, exec (step yieldBesideRead) (recordStart 8192 5)
        [.act .calm, .act .calm, .post 1 0 [], .loop .calm, .act .calm] = some s ∧
      step yieldBesideRead s (.loop .calm) = some t ∧ s.Dispatches t 1 ∧
      Overdue yieldBesideRead (recordStart 8192 5)
        [.act .calm, .act .calm, .post 1 0 [], .loop .calm, .act .calm] 1 := by
  have early : (exec (step yieldBesideRead) (recordStart 8192 5)
      [.act .calm, .act .calm, .post 1 0 []]).map (fun s =>
        (s.sched.control, s.ring.cq, (s.sched.heap 0).map fun u => (u.id, u.state))) =
      some (.scheduler, [⟨1, 0, 1⟩], some (1, .blocked)) := by decide +kernel
  have once : (exec (step yieldBesideRead) (recordStart 8192 5)
      [.act .calm, .act .calm, .post 1 0 [], .loop .calm]).map (fun s =>
        (s.sched.control, s.sched.current)) = some (.user, some 1) := by decide +kernel
  have yielded : (exec (step yieldBesideRead) (recordStart 8192 5)
      [.act .calm, .act .calm, .post 1 0 [], .loop .calm, .act .calm]).map (fun s =>
        (s.sched.control, s.ring.cq)) = some (.scheduler, [⟨1, 0, 1⟩]) := by decide +kernel
  have twice : (exec (step yieldBesideRead) (recordStart 8192 5)
      [.act .calm, .act .calm, .post 1 0 [], .loop .calm, .act .calm, .loop .calm]).map (fun s =>
        (s.sched.control, s.sched.current)) = some (.user, some 1) := by decide +kernel
  obtain ⟨s₀, start, facts₀⟩ := Option.map_eq_some_iff.mp early
  obtain ⟨s₁, first, facts₁⟩ := Option.map_eq_some_iff.mp once
  obtain ⟨s, reached, facts⟩ := Option.map_eq_some_iff.mp yielded
  obtain ⟨t, last, facts'⟩ := Option.map_eq_some_iff.mp twice
  simp only [Prod.mk.injEq, Option.map_eq_some_iff] at facts₀ facts₁ facts facts'
  obtain ⟨idle, queued, u, main, named, blocked⟩ := facts₀
  have dispatched := exec_after start first
  have acted := exec_after first reached
  have again := exec_after reached last
  refine ⟨s, t, reached, again, ⟨facts.1, facts'.1, facts'.2⟩, ?_⟩
  refine ⟨[.act .calm, .act .calm, .post 1 0 []], .loop .calm, [.act .calm], s₀, s₁, s, ⟨1, 0, 1⟩,
    rfl, start, dispatched, exec_single acted, ⟨idle, facts₁.1, facts₁.2⟩, ?_, ?_, ?_⟩
  · rw [queued]
    exact List.mem_singleton_self _
  · exact ⟨0, u, by decide, main, named, blocked⟩
  · rw [facts.2]
    exact List.mem_singleton_self _

end State

end Librr
