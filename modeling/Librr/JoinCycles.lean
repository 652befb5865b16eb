import Librr.Deadlock
import Librr.RecordReplay
import Librr.TaskRuns

set_option autoImplicit false

namespace Librr

open Relation Transition

namespace Sched

section Rests

variable {program : Program} {stackSize : Nat} {written : Nat → Bytes} {async : Bool}
  {s t : Sched} {tags : List UInt64}

/-- The record of a uthread, up to who waits for it, is what it was. -/
def Rests (s t : Sched) (ut : Ptr) : Prop :=
  ∀ u, s.core ut = some u → ∃ v, t.core ut = some v ∧ v.state = u.state ∧ v.ctx = u.ctx

theorem Rests.of_core {ut : Ptr} (core : t.core ut = s.core ut) : s.Rests t ut :=
  fun u found => ⟨u, core.trans found, rfl, rfl⟩

theorem Rests.of_other {ut cur : Ptr} {change : Uthread → Uthread}
    (core : t.core = s.core.modify cur change) (apart : ut ≠ cur) : s.Rests t ut :=
  .of_core (by rw [core, Heap.modify_other _ _ apart])

theorem Rests.of_map {ut : Ptr} {change : Uthread → Uthread}
    (core : t.core ut = (s.core ut).map change)
    (kept : ∀ u, s.core ut = some u → (change u).state = u.state ∧ (change u).ctx = u.ctx) :
    s.Rests t ut := by
  intro u found
  rw [found, Option.map_some] at core
  exact ⟨change u, core, (kept u found).1, (kept u found).2⟩

/-- Two records in different states. -/
theorem apart_of_state {ut other : Ptr} {u v : Uthread} (found : s.core ut = some u)
    (found' : s.core other = some v) (differ : u.state ≠ v.state) : ut ≠ other := by
  rintro rfl
  rw [found] at found'
  cases found'
  exact differ rfl

theorem Rests.exit {cur : Ptr} {u : Uthread} (wakers : s.Wakers tags)
    (current : s.current = some cur) (on : s.schedRunning = true) (running : s.core cur = some u)
    (runs : u.state = .running) (value : UInt64) {ut v : Ptr} (joins : s.JoinsAt ut v)
    (apart : v ≠ cur) : s.Rests (s.rrSchedulerExitCurrent value) ut := by
  obtain ⟨w, found, waits⟩ := joins
  have other : ut ≠ cur := apart_of_state found running (by rw [waits.1, runs]; simp)
  refine .of_map (rrSchedulerExitCurrent_core current on value ut) fun w' found' => ?_
  have aside : (s.core cur).bind Uthread.joinWaiter ≠ some ut := by
    intro woken
    obtain ⟨x, here, waits'⟩ := (wakers.joins cur ut).mp ((joinWaiter_iff running runs ut).mp woken)
    rw [found] at here
    cases here
    exact apart (waits.target_inj waits')
  rw [if_neg other, if_neg aside]
  exact ⟨rfl, rfl⟩

/-- Nothing but the end of its target moves a uthread that is blocked in a join. -/
theorem Local.rests {cur : Ptr} {u : Uthread} {answer : CreateAnswer} {action : Action}
    (performed : s.Local stackSize cur u answer action t) (sound : s.Sound program tags)
    (user : s.control = .user) (running : s.running = some (cur, u)) {ut v : Ptr}
    (joins : s.JoinsAt ut v) (apart : v ≠ cur) : s.Rests t ut := by
  obtain ⟨current, present, runs⟩ := sound.queue.running_at user running
  obtain ⟨w, found, waits⟩ := joins
  have other : ut ≠ cur := apart_of_state found present (by rw [waits.1, runs]; simp)
  cases performed with
  | create fn =>
      have kept := sound.queue.create_core found stackSize fn answer
      refine .of_core ?_
      rw [reply_core, Heap.modify_other _ _ other, kept, found]
  | yield => exact .of_other (rrSchedulerYieldCurrent_core current sound.queue.on) other
  | joinNow id out reply answered => exact .of_other (reply_core _ _ _ _) other
  | joinWait id out target record hit different live free =>
      have core := joinWait_core current sound.queue.on target (.joining id out target)
      refine .of_map (registered_records (join_apart running hit different) core ut) ?_
      intro x _
      rw [if_neg other]
      split <;> exact ⟨rfl, rfl⟩
  | exit value =>
      exact .exit sound.wakers current sound.queue.on present runs value ⟨w, found, waits⟩ apart
  | ret fn started =>
      exact .exit sound.wakers current sound.queue.on present runs 0 ⟨w, found, waits⟩ apart
  | stop main => exact .of_core rfl

/-- A uthread that waits for one that is itself blocked stays where it is. -/
theorem Turn.rests (turn : s.Turn program stackSize written async t)
    (sound : s.Sound program tags) {ut v w : Ptr} (joins : s.JoinsAt ut v)
    (onwards : s.JoinsAt v w) : s.Rests t ut := by
  obtain ⟨x, target, blocked⟩ := onwards
  obtain ⟨u, found, waits⟩ := joins
  have aside : ∀ cur y, s.control = .user → s.running = some (cur, y) → ut ≠ cur ∧ v ≠ cur := by
    intro cur y user running
    obtain ⟨_, present, runs⟩ := sound.queue.running_at user running
    exact ⟨apart_of_state found present (by rw [waits.1, runs]; simp),
      apart_of_state target present (by rw [blocked.1, runs]; simp)⟩
  cases turn with
  | perform answer cur y t user running performed =>
      exact performed.rests sound user running ⟨u, found, waits⟩ (aside cur y user running).2
  | answered cur y call result user running next =>
      exact .of_other (reply_core _ _ _ _) (aside cur y user running).1
  | submitted cur y call serial user running next submits waits' =>
      exact .of_other (rrSchedulerBlockCurrent_core (of_running running).1 sound.queue.on _)
        (aside cur y user running).1
  | woken id ioResult cur y idle empty hit inside waits' =>
      have core := s.rrSchedulerWakeById_core id ioResult none 0
      rw [hit] at core
      refine .of_other core ?_
      rintro rfl
      rw [core_some (rrSchedulerFind_some hit).2.1] at found
      cases found
      exact waits.not_io inside
  | dispatched next y idle head here runnable =>
      have resumes := State.head_resumes (s := s.alone written) sound.framed here runnable
      have known : s.core next = some y.core := by rw [← runqPopFront_core, core_some here]
      have ready : y.core.state = .runnable := runnable
      exact .of_other (proceed_core (u := y.core) resumes known)
        (apart_of_state found known (by rw [waits.1, ready]; simp))
  | stopped control idle ends => exact .of_core rfl
  | unmoved => exact .of_core rfl

theorem Rests.joins {ut v : Ptr} (rests : s.Rests t ut) (joins : s.JoinsAt ut v) :
    t.JoinsAt ut v := by
  obtain ⟨u, found, blocked, id, out, frame⟩ := joins
  obtain ⟨u', there, state, ctx⟩ := rests u found
  exact ⟨u', there, state.trans blocked, id, out, by rw [ctx]; exact frame⟩

theorem Rests.trace {ut : Ptr} {u : Uthread} (rests : s.Rests t ut) (found : s.core ut = some u) :
    t.traceAt ut = s.traceAt ut := by
  obtain ⟨u', there, _, ctx⟩ := rests u found
  obtain ⟨v, here, rfl⟩ := of_core_some found
  obtain ⟨v', here', rfl⟩ := of_core_some there
  have same : v'.ctx = v.ctx := ctx
  rw [traceAt, traceAt, here, here', Option.map_some, Option.map_some, same]

/-- A cycle of joins stays, with all that its uthreads have finished. -/
theorem Turn.keepsCycle (turn : s.Turn program stackSize written async t)
    (sound : s.Sound program tags) {ut : Ptr} (cycle : TransGen s.JoinsAt ut ut) :
    TransGen t.JoinsAt ut ut ∧ t.traceAt ut = s.traceAt ut := by
  obtain ⟨v, first, back⟩ := TransGen.head'_iff.mp cycle
  have onwards : ∃ w, s.JoinsAt v w := by
    rcases ReflTransGen.cases_head back with rfl | ⟨w, edge, _⟩
    · exact ⟨v, first⟩
    · exact ⟨w, edge⟩
  refine ⟨Acyclic.transGen_stays ?_ cycle ⟨v, first⟩, ?_⟩
  · rintro x y joins ⟨z, further⟩
    exact (turn.rests sound joins further).joins joins
  · obtain ⟨w, further⟩ := onwards
    obtain ⟨u, found, _⟩ := id first
    exact (turn.rests sound first further).trace found

/-- An idle scheduler whose uthreads are not all done waits for a call or sees a cycle. -/
theorem Sound.stuck (sound : s.Sound program tags) (idle : s.control = .scheduler)
    (empty : s.runqHead = none) :
    (∀ ut u, s.heap ut = some u → u.state = .done) ∨
      (∃ ut u, s.heap ut = some u ∧ u.WaitsForIo ∧ u.id ∈ tags) ∨
      ∃ ut, TransGen s.JoinsAt ut ut := by
  by_cases living : ∃ ut u, s.heap ut = some u ∧ u.state ≠ .done
  · obtain ⟨ut, u, found, alive⟩ := living
    by_cases acyclic : s.NoCycle
    · obtain ⟨caller, v, present, waits⟩ := sound.wakers.someone_in_call sound.queue sound.framed
        acyclic idle empty found alive
      have counted := sound.wakers.single caller v.id ⟨v, present, rfl, waits⟩
      have tagged : v.id ∈ tags := List.count_pos_iff.mp (by rw [counted]; simp)
      obtain ⟨w, here, rfl⟩ := of_core_some present
      exact .inr (.inl ⟨caller, w, here, waits, tagged⟩)
    · obtain ⟨ut, cycle⟩ := not_forall_not.mp acyclic
      exact .inr (.inr ⟨ut, cycle⟩)
  · exact .inl fun ut u found => by_contra fun alive => living ⟨ut, u, found, alive⟩

end Rests

end Sched

namespace State

variable {program : Program} {s t : State} {input : Input}

/-- A process in one of the three modes. -/
def Modal (s : State) : Prop :=
  s.Recording ∨ (s.Passes ∨ s.Replays) ∧ s.sched.QueueInvariant ∧ s.sched.Framed

theorem Modal.step (modal : s.Modal) (taken : Librr.step program s input = some t) :
    t.Modal ∧ s.sched.nextId ≤ t.sched.nextId := by
  rcases modal with recording | ⟨mode, queue, framed⟩
  · obtain ⟨kind, recording'⟩ := recording.step taken
    exact ⟨.inl recording', kind.nextId_le⟩
  · obtain ⟨mode', _, turn⟩ := Synchronous.turn mode queue framed taken
    exact ⟨.inr ⟨mode', queueInvariant_of_refines queue (turn.refines queue framed),
      turn.framed queue framed⟩, turn.nextId_le framed⟩

/-- What is known of a process in any mode whose counter of ids has not wrapped. -/
def Sane (program : Program) (s : State) : Prop := s.Faithful program ∨ s.Synchronous program

theorem Sane.modal (sane : s.Sane program) : s.Modal := by
  rcases sane with faithful | inv
  · exact .inl faithful.paired.recording
  · exact .inr ⟨inv.mode, inv.sound.queue, inv.sound.framed⟩

theorem Sane.step (sane : s.Sane program) (taken : Librr.step program s input = some t)
    (own : s.HandsOverOwn program input) (bounded : t.sched.nextId < 2 ^ 64) : t.Sane program := by
  rcases sane with faithful | inv
  · exact .inl (faithful.step taken own bounded)
  · exact .inr (inv.step taken bounded)

theorem Sane.keepsCycle (sane : s.Sane program) (taken : Librr.step program s input = some t)
    {ut : Ptr} (cycle : TransGen s.sched.JoinsAt ut ut) :
    TransGen t.sched.JoinsAt ut ut ∧ t.sched.traceAt ut = s.sched.traceAt ut := by
  rcases sane with faithful | inv
  · rcases (faithful.paired.recording.step taken).1.turn faithful.paired with
      ⟨_, _, _, _, _, same, _⟩ | ⟨_, turn⟩
    · rw [same]
      exact ⟨cycle, rfl⟩
    · exact turn.keepsCycle faithful.sound cycle
  · obtain ⟨_, _, turn⟩ := Synchronous.turn inv.mode inv.sound.queue inv.sound.framed taken
    exact turn.keepsCycle inv.sound cycle

theorem Sane.stuck (sane : s.Sane program) (idle : s.sched.control = .scheduler)
    (empty : s.sched.runqHead = none) :
    (∀ ut u, s.sched.heap ut = some u → u.state = .done) ∨
      (∃ ut u, s.sched.heap ut = some u ∧ u.WaitsForIo ∧ u.id ∈ s.ring.live.map Prod.fst) ∨
      ∃ ut, TransGen s.sched.JoinsAt ut ut := by
  rcases sane with faithful | inv
  · rcases faithful.sound.stuck idle empty with done | ⟨ut, u, found, waits, tagged⟩ | cycle
    · exact .inl done
    · rcases List.mem_cons.mp tagged with sentinel | live
      · exact absurd sentinel (faithful.paired.named.id_ne_sentinel found)
      · exact .inr (.inl ⟨ut, u, found, waits, live⟩)
    · exact .inr (.inr cycle)
  · rcases inv.sound.stuck idle empty with done | ⟨ut, u, found, _, tagged⟩ | cycle
    · exact .inl done
    · exact absurd (List.mem_singleton.mp tagged) (inv.sound.named.id_ne_sentinel found)
    · exact .inr (.inr cycle)

theorem ReachedHandingOwn.sane (reachable : s.ReachedHandingOwn program)
    (unwrapped : s.sched.nextId < 2 ^ 64) : s.Sane program := by
  cases reachable with
  | recorded stackSize signalFd inputs reached own =>
      exact .inl (faithful_of_exec reached own unwrapped).1
  | unrecorded start mode inputs reached =>
      exact .inr (synchronous_of_exec mode reached unwrapped).1

/-- In every mode, as long as each submission hands over its own operation, the scheduler finds
nobody to run only if all uthreads are done, one is in a call that the kernel has not answered, or
some wait for each other in a cycle of joins; and those on a cycle do nothing any more, whatever
else happens. -/
theorem deadlock_is_join_cycle (program : Program) (s : State)
    (reachable : s.ReachedHandingOwn program) (unwrapped : s.sched.nextId < 2 ^ 64) :
    (s.sched.control = .scheduler → s.sched.runqHead = none →
      (∀ ut u, s.sched.heap ut = some u → u.state = .done) ∨
        (∃ ut u, s.sched.heap ut = some u ∧ u.WaitsForIo ∧ u.id ∈ s.ring.live.map Prod.fst) ∨
        ∃ ut, TransGen s.sched.JoinsAt ut ut) ∧
    ∀ ut, TransGen s.sched.JoinsAt ut ut →
      ∀ inputs t, exec (Librr.step program) s inputs = some t →
        Along (Librr.step program) (fun before input _ => before.HandsOverOwn program input)
          s inputs →
        t.sched.nextId < 2 ^ 64 →
        TransGen t.sched.JoinsAt ut ut ∧ t.sched.traceAt ut = s.sched.traceAt ut := by
  have sane := reachable.sane unwrapped
  refine ⟨sane.stuck, fun ut cycle inputs t reached own bounded => ?_⟩
  have kept : ∀ before input after, Librr.step program before input = some after →
      before.HandsOverOwn program input →
      (before.Modal ∧ (before.sched.nextId < 2 ^ 64 → before.Sane program ∧
        TransGen before.sched.JoinsAt ut ut ∧ before.sched.traceAt ut = s.sched.traceAt ut)) →
      (after.Modal ∧ (after.sched.nextId < 2 ^ 64 → after.Sane program ∧
        TransGen after.sched.JoinsAt ut ut ∧ after.sched.traceAt ut = s.sched.traceAt ut)) := by
    rintro before input after taken hands ⟨modal, earlier⟩
    obtain ⟨modal', counted⟩ := modal.step taken
    refine ⟨modal', fun below => ?_⟩
    obtain ⟨sane, cycle, trace⟩ := earlier (Nat.lt_of_le_of_lt counted below)
    obtain ⟨cycle', rests⟩ := sane.keepsCycle taken cycle
    exact ⟨sane.step taken hands below, cycle', rests.trans trace⟩
  exact ((own.invariant kept ⟨sane.modal, fun _ => ⟨sane, cycle, rfl⟩⟩ reached).2 bounded).2

theorem joinsAt_of_frame {sched : Sched} {ut v : Ptr} {id : UInt64} {out : Bool}
    (inside : (sched.core ut).map (fun u => (u.state, u.ctx.frame)) =
      some (.blocked, .joining id out v)) : sched.JoinsAt ut v := by
  obtain ⟨u, found, parts⟩ := Option.map_eq_some_iff.mp inside
  obtain ⟨state, frame⟩ := Prod.mk.inj parts
  exact ⟨u, found, state, id, out, frame⟩

/-- Two uthreads of a process that is not recorded join each other. -/
theorem joinEachOther_stays :
    ∃ s, exec (Librr.step joinEachOther) (passthroughStart 8192)
        [.act .calm, .act .calm, .loop .calm, .act .calm] = some s ∧
      s.sched.control = .scheduler ∧ s.sched.runqHead = none ∧
      TransGen s.sched.JoinsAt 0 0 ∧
      ∀ inputs t, exec (Librr.step joinEachOther) s inputs = some t →
        Along (Librr.step joinEachOther)
          (fun before input _ => before.HandsOverOwn joinEachOther input) s inputs →
        t.sched.nextId < 2 ^ 64 →
        TransGen t.sched.JoinsAt 0 0 ∧ t.sched.traceAt 0 = s.sched.traceAt 0 := by
  have ran : (exec (Librr.step joinEachOther) (passthroughStart 8192)
      [.act .calm, .act .calm, .loop .calm, .act .calm]).map (fun s =>
        (decide (s.sched.nextId < 2 ^ 64), s.sched.control, s.sched.runqHead)) =
      some (true, .scheduler, none) := by decide +kernel
  have inside : (exec (Librr.step joinEachOther) (passthroughStart 8192)
      [.act .calm, .act .calm, .loop .calm, .act .calm]).map (fun s =>
        ((s.sched.core 0).map (fun u => (u.state, u.ctx.frame)),
          (s.sched.core 1).map (fun u => (u.state, u.ctx.frame)))) =
      some (some (.blocked, .joining 2 true 1), some (.blocked, .joining 1 true 0)) := by
    decide +kernel
  obtain ⟨s, reached, facts⟩ := Option.map_eq_some_iff.mp ran
  rw [reached, Option.map_some, Option.some_inj, Prod.mk.injEq] at inside
  obtain ⟨main, other⟩ := inside
  simp only [Prod.mk.injEq] at facts
  obtain ⟨unwrapped, idle, empty⟩ := facts
  have cycle : TransGen s.sched.JoinsAt 0 0 :=
    .tail (.single (joinsAt_of_frame main)) (joinsAt_of_frame other)
  refine ⟨s, reached, idle, empty, cycle, ?_⟩
  exact (deadlock_is_join_cycle joinEachOther s (.unrecorded _ (.passes 8192) _ reached)
    (of_decide_eq_true unwrapped)).2 0 cycle

end State

end Librr
