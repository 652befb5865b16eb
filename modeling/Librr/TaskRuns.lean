import Librr.Lifecycles
import Librr.TasksRefinement

set_option autoImplicit false

namespace Librr

open Relation Transition

namespace Ring

/-- The serial has been given out, and nothing carries it any more. -/
structure Spent (ring : Ring) (serial : Nat) : Prop where
  given : serial < ring.fresh
  gone : ∀ entry ∈ ring.entries, entry.2 ≠ serial

theorem Spent.of_perm {ring other : Ring} {serial : Nat} (spent : ring.Spent serial)
    (same : other.entries.Perm ring.entries) (fresh : other.fresh = ring.fresh) :
    other.Spent serial :=
  ⟨fresh ▸ spent.given, fun entry member => spent.gone entry (same.subset member)⟩

theorem Spent.move {ring other : Ring} {serial : Nat} (move : Move ring other)
    (spent : ring.Spent serial) : other.Spent serial := by
  cases move with
  | push op userData =>
      refine ⟨Nat.lt_succ_of_lt spent.given, fun entry member => ?_⟩
      rcases List.mem_cons.mp ((ring.entries_push op userData).subset member) with rfl | old
      · exact (Nat.ne_of_lt spent.given).symm
      · exact spent.gone entry old
  | submit => exact spent.of_perm ring.entries_submit rfl
  | complete index sqe res data flying =>
      exact spent.of_perm (entries_complete flying res data) rfl
  | seen cqe rest first =>
      refine ⟨spent.given, fun entry member => spent.gone entry ?_⟩
      exact (entries_cqeSeen first).symm.subset (List.mem_cons_of_mem _ member)

/-- What a consumed completion carried is spent. -/
theorem Serials.spent {ring : Ring} {cqe : Cqe} {rest : List Cqe} (serials : ring.Serials)
    (first : ring.cq = cqe :: rest) : ring.cqeSeen.Spent cqe.serial := by
  have whole := entries_cqeSeen first
  have once : (cqe.serial :: ring.cqeSeen.entries.map Prod.snd).Nodup :=
    (whole.map Prod.snd).nodup_iff.mp serials.nodup
  refine ⟨serials.below cqe.key (whole.symm.subset List.mem_cons_self), ?_⟩
  intro entry member same
  exact (List.nodup_cons.mp once).1 (same ▸ List.mem_map_of_mem member)

end Ring

namespace State

variable {program : Program} {s t : State} {input : Input}

/-- Whoever is going to return from a call has its result: the kernel will not store for that
operation again. -/
def Landed (s : State) : Prop :=
  ∀ ut u serial, s.sched.CallAt ut u serial → u.state = .runnable → s.ring.Spent serial

theorem Landed.kept (landed : s.Landed) (calls : s.sched.KeepsCalls t.sched)
    (moves : ReflTransGen Ring.Move s.ring t.ring) : t.Landed := by
  intro ut u serial call runnable
  obtain ⟨v, before, _, state, _⟩ := calls ut u serial call
  have spent := landed ut v serial before (state.trans runnable)
  exact Ring.moves_keep (fun _ _ move => Ring.Spent.move move) moves spent

theorem Landed.step (landed : s.Landed) (inv : s.Paired) (kind : RecordStep program s input t) :
    t.Landed := by
  have moves := kind.moves
  cases kind with
  | perform answer ut u sched user running performed =>
      exact landed.kept (.performed inv.wakers inv.recording.queue user running performed) moves
  | immediate answer ut u call result args user running next done =>
      exact landed.kept (inv.returned s user running rfl args call result).1 moves
  | full answer ut u call op finish user running next submits half filled =>
      exact landed.kept (inv.returned s user running rfl _ call _).1 moves
  | refused answer ut u call op finish user running next submits half room failed =>
      exact landed.kept (inv.returned (s.leave op) user running rfl _ call _).1 moves
  | submitted answer ut u call op finish user running next submits half room accepted =>
      intro other v serial inside runnable
      obtain ⟨current, found, _⟩ := inv.recording.queue.running_at user running
      obtain ⟨present, request, frame⟩ := inside
      have core : (s.hand op call).sched.core = s.sched.core.modify ut
          (Sched.suspend .blocked (.io call s.ring.fresh)) :=
        Sched.rrSchedulerBlockCurrent_core current inv.recording.queue.on _
      rw [core, Heap.modify_apply] at present
      split at present
      · obtain ⟨w, _, rfl⟩ := Option.map_eq_some_iff.mp present
        cases runnable
      · have spent := landed other v serial ⟨present, request, frame⟩ runnable
        exact Ring.moves_keep (fun _ _ move => Ring.Spent.move move) moves spent
  | interrupted answer idle empty broken => exact landed
  | killed answer cqe rest idle empty first sentinel full fatal =>
      exact landed.kept (Sched.keepsCalls_of_core rfl) moves
  | signal answer cqe rest idle empty first sentinel full harmless =>
      refine landed.kept (Sched.keepsCalls_of_core ?_) moves
      rw [cqeSeen, (rearmSignalRead_kept _ _).1, (rrLogSignal_same _ _ _).sched]
  | short answer cqe rest idle empty first sentinel short =>
      refine landed.kept (Sched.keepsCalls_of_core ?_) moves
      rw [cqeSeen, (rearmSignalRead_kept _ _).1]
  | wake answer cqe rest idle empty first tagged =>
      intro other v serial inside runnable
      obtain ⟨ut, u, _, hit, blocked, known, request', frame'⟩ := inv.owner first tagged
      obtain ⟨present, request, frame⟩ := inside
      have core := s.sched.rrSchedulerWakeById_core cqe.userData cqe.res none 0
      rw [hit] at core
      simp only [core, Heap.modify_apply] at present
      split at present
      · rename_i here
        rw [here, known, Option.map_some, Option.some.injEq] at present
        have state : u.core.state = .blocked := blocked
        rw [← present, Sched.wakeRecord, if_pos state] at frame
        have same : Frame.io request' cqe.serial = .io request serial := frame'.symm.trans frame
        cases same
        exact inv.serials.spent first
      · have spent := landed other v serial ⟨present, request, frame⟩ runnable
        exact Ring.moves_keep (fun _ _ move => Ring.Spent.move move) moves spent
  | dispatch answer next u idle head found runnable =>
      obtain ⟨trace, core⟩ := switchTo_core (t := s.logSwitch u.id)
        (head_resumes inv.recording.framed found runnable) found
      exact landed.kept (Sched.keepsCalls_of_modify core (by simp)) moves
  | post index res data sqe live flying =>
      exact landed.kept (Sched.keepsCalls_of_core rfl) moves

/-- Data stored for operations that nobody is about to return from is not seen. -/
theorem models_rewritten {sched : Sched} {written later : Nat → Bytes} {m : Tasks}
    (models : sched.Models written m)
    (same : ∀ ut u serial, sched.CallAt ut u serial → u.state = .runnable →
      later serial = written serial) : sched.Models later m := by
  have tasks : ∀ ut u, sched.core ut = some u → sched.task later u = sched.task written u := by
    intro ut u found
    unfold Sched.task Sched.status
    cases state : u.state with
    | runnable =>
        simp only [Sched.due]
        cases inside : u.ctx.frame with
        | io call serial => simp only [same ut u serial ⟨found, call, inside⟩ state]
        | _ => rfl
    | _ => rfl
  refine ⟨fun id v => ?_, models.queue, models.turn⟩
  rw [models.threads]
  constructor
  · rintro ⟨ut, u, found, named, rfl⟩
    exact ⟨ut, u, found, named, tasks ut u found⟩
  · rintro ⟨ut, u, found, named, rfl⟩
    exact ⟨ut, u, found, named, (tasks ut u found).symm⟩

/-- The uthreads of the process are, for all their owners can tell, at `m`. -/
def Shows (s : State) (m : Tasks) : Prop := s.sched.Models s.ring.written m

/-- What a run in record mode keeps, as long as submissions hand over their own operation. -/
structure Faithful (program : Program) (s : State) : Prop where
  paired : s.Paired
  joined : Sched.Joined program s.sched
  landed : s.Landed

theorem Faithful.sound (inv : s.Faithful program) :
    s.sched.Sound program (rrSignalSentinel :: s.ring.live.map Prod.fst) :=
  ⟨inv.paired.recording.queue, inv.paired.recording.framed, inv.paired.named, inv.paired.wakers,
    inv.joined⟩

theorem Faithful.step (inv : s.Faithful program) (taken : Librr.step program s input = some t)
    (own : s.HandsOverOwn program input) (bounded : t.sched.nextId < 2 ^ 64) :
    t.Faithful program := by
  obtain ⟨kind, _⟩ := inv.paired.recording.step taken
  refine ⟨inv.paired.step taken own bounded, ?_, inv.landed.step inv.paired kind⟩
  rcases kind.turn inv.paired with ⟨_, _, _, _, _, same, _⟩ | ⟨_, turn⟩
  · rw [same]
    exact inv.joined
  · exact turn.joined inv.sound

theorem Faithful.simulated (inv : s.Faithful program)
    (taken : Librr.step program s input = some t) (bounded : t.sched.nextId < 2 ^ 64) {m : Tasks}
    (shows : s.Shows m) : ∃ m', ReflGen (Tasks.Step program) m m' ∧ t.Shows m' := by
  obtain ⟨kind, _⟩ := inv.paired.recording.step taken
  rcases kind.turn inv.paired with ⟨index, res, data, sqe, flying, same, stored⟩ | ⟨same, turn⟩
  · refine ⟨m, .refl, ?_⟩
    rw [Shows, same, stored]
    refine models_rewritten shows fun ut u serial inside runnable => ?_
    have spent := inv.landed ut u serial inside runnable
    have member : sqe.key ∈ s.ring.entries := by
      simp only [Ring.entries, List.mem_append, List.mem_map]
      exact .inr (.inl ⟨sqe, List.mem_of_getElem? flying, rfl⟩)
    exact Function.update_of_ne (fun equal => spent.gone _ member equal.symm) _ _
  · unfold Shows
    rw [same]
    exact turn.simulated inv.sound bounded shows

theorem recordStart_faithful (program : Program) (stackSize : Nat) (signalFd : Int32) :
    (recordStart stackSize signalFd).Faithful program := by
  refine ⟨recordStart_paired stackSize signalFd, recordStart_joined program stackSize signalFd, ?_⟩
  rintro ut u serial ⟨found, call, inside⟩ runnable
  rw [recordStart_eq] at found
  obtain ⟨v, here, rfl⟩ := Sched.of_core_some found
  simp only [fresh, Sched.afterInit, Heap.set_apply] at here
  split at here
  · cases here
    cases runnable
  · cases here

/-- The uthreads of the process are at a state that uthreads can reach. -/
def Explained (program : Program) (s : State) : Prop :=
  ∃ m, Tasks.Reached program m ∧ s.Shows m

theorem recordStart_explained (program : Program) (stackSize : Nat) (signalFd : Int32) :
    (recordStart stackSize signalFd).Explained program := by
  refine ⟨Tasks.start, .refl, ?_⟩
  rw [recordStart_eq]
  exact Sched.afterInit_models _

theorem Explained.next {m : Tasks} (reached : Tasks.Reached program m)
    (simulated : ∃ m', ReflGen (Tasks.Step program) m m' ∧ t.Shows m') : t.Explained program := by
  obtain ⟨m', step, shows⟩ := simulated
  exact ⟨m', reached.trans step.to_reflTransGen, shows⟩

/-- Along every run in record mode whose submissions hand over their own operation. -/
theorem faithful_of_exec {stackSize : Nat} {signalFd : Int32} {inputs : List Input}
    (reached : exec (Librr.step program) (recordStart stackSize signalFd) inputs = some s)
    (own : Along (Librr.step program) (fun before input _ => before.HandsOverOwn program input)
      (recordStart stackSize signalFd) inputs)
    (unwrapped : s.sched.nextId < 2 ^ 64) : s.Faithful program ∧ s.Explained program := by
  have kept : ∀ (before : State) (input : Input) (after : State),
      Librr.step program before input = some after → before.HandsOverOwn program input →
      before.Recording ∧ (before.sched.nextId < 2 ^ 64 →
        before.Faithful program ∧ before.Explained program) →
      after.Recording ∧ (after.sched.nextId < 2 ^ 64 →
        after.Faithful program ∧ after.Explained program) := by
    intro before input after taken hands ⟨recording, earlier⟩
    obtain ⟨kind, recording'⟩ := recording.step taken
    refine ⟨recording', fun below => ?_⟩
    have counted := kind.nextId_le
    obtain ⟨faithful, m, reached, shows⟩ := earlier (by omega)
    exact ⟨faithful.step taken hands below, .next reached (faithful.simulated taken below shows)⟩
  exact (own.invariant kept ⟨recordStart_recording stackSize signalFd, fun _ =>
    ⟨recordStart_faithful program stackSize signalFd,
      recordStart_explained program stackSize signalFd⟩⟩ reached).2 unwrapped

/-- A record-mode run, seen through the uthreads' records, the linked queue and the ring, is a
run of cooperative uthreads known by their ids: each join, exit, creation, call and
completion does what it says, and nothing else happens to them. -/
theorem record_refines_tasks (program : Program) (stackSize : Nat) (signalFd : Int32)
    (inputs : List Input) (s : State)
    (reached : exec (Librr.step program) (recordStart stackSize signalFd) inputs = some s)
    (own : Along (Librr.step program) (fun before input _ => before.HandsOverOwn program input)
      (recordStart stackSize signalFd) inputs)
    (unwrapped : s.sched.nextId < 2 ^ 64) :
    ∃ m, ReflTransGen (Tasks.Step program) Tasks.start m ∧ s.sched.Models s.ring.written m :=
  (faithful_of_exec reached own unwrapped).2

/-- The read of the main thread completes and is answered, while uthread 2 waits for it to
end. -/
theorem readWhileJoined_refines :
    ∃ s, exec (Librr.step readWhileJoined) (recordStart 8192 5)
        [.act .calm, .act .calm, .loop .calm, .act .calm, .post 1 1 [65], .loop .calm,
          .loop .calm] = some s ∧
      s.sched.stateOf 0 = some .running ∧ s.sched.stateOf 1 = some .blocked ∧
      ∃ m, ReflTransGen (Tasks.Step readWhileJoined) Tasks.start m ∧
        s.sched.Models s.ring.written m := by
  have drained : Along (Librr.step readWhileJoined) (fun before _ _ => before.ring.sq = [])
      (recordStart 8192 5) [.act .calm, .act .calm, .loop .calm, .act .calm, .post 1 1 [65],
        .loop .calm, .loop .calm] := by decide +kernel
  have ran : (exec (Librr.step readWhileJoined) (recordStart 8192 5)
      [.act .calm, .act .calm, .loop .calm, .act .calm, .post 1 1 [65], .loop .calm,
        .loop .calm]).map (fun s => (decide (s.sched.nextId < 2 ^ 64), s.sched.stateOf 0,
          s.sched.stateOf 1)) = some (true, some .running, some .blocked) := by decide +kernel
  obtain ⟨s, reached, facts⟩ := Option.map_eq_some_iff.mp ran
  simp only [Prod.mk.injEq, decide_eq_true_eq] at facts
  refine ⟨s, reached, facts.2.1, facts.2.2, record_refines_tasks readWhileJoined 8192 5 _ s reached
    (drained.mono fun before _ _ empty _ => ?_) facts.1⟩
  rintro ⟨sqe, member, _⟩
  rw [empty] at member
  cases member

section Unrecorded

/-- The process after a successful `rr_init` in another mode than record. -/
inductive Unrecorded : State → Prop where
  | passes (stackSize : Nat) : Unrecorded (passthroughStart stackSize)
  | replays (stackSize : Nat) (virtualTime : Bool) (file : Option Bytes)
    (ready : (replayStart stackSize virtualTime file).config.runtimeReady = true) :
    Unrecorded (replayStart stackSize virtualTime file)

/-- What a run in another mode keeps: calls return at once. -/
structure Synchronous (program : Program) (s : State) : Prop where
  mode : s.Passes ∨ s.Replays
  sound : s.sched.Sound program [rrSignalSentinel]

theorem Passes.kept (passes : s.Passes) (config : t.config = s.config) (ring : t.ring = s.ring) :
    t.Passes :=
  ⟨config ▸ passes.modeRecord, config ▸ passes.modeReplay, config ▸ passes.ready,
    ring ▸ passes.ring, ring ▸ passes.inflight⟩

theorem Synchronous.turn (mode : s.Passes ∨ s.Replays) (queue : s.sched.QueueInvariant)
    (framed : s.sched.Framed) (taken : Librr.step program s input = some t) :
    (t.Passes ∨ t.Replays) ∧ t.ring = s.ring ∧
      s.sched.Turn program s.config.stackSize s.ring.written false t.sched := by
  rcases mode with passes | replays
  · obtain ⟨config, ring, turn⟩ := (passes.step queue taken).turn framed
    exact ⟨.inl (passes.kept config ring), ring, turn⟩
  · obtain ⟨kind, after⟩ := Replaying.step ⟨replays, queue, framed⟩ taken
    obtain ⟨ring, turn⟩ := kind.turn ⟨replays, queue, framed⟩
    exact ⟨.inr after.replays, ring, turn⟩

theorem Synchronous.step (inv : s.Synchronous program)
    (taken : Librr.step program s input = some t) (bounded : t.sched.nextId < 2 ^ 64) :
    t.Synchronous program := by
  obtain ⟨mode, _, turn⟩ :=
    Synchronous.turn inv.mode inv.sound.queue inv.sound.framed taken
  exact ⟨mode, turn.sound bounded inv.sound⟩

theorem Unrecorded.begins {start : State} (unrecorded : start.Unrecorded) (program : Program) :
    start.Synchronous program ∧ start.Explained program := by
  cases unrecorded with
  | passes stackSize =>
      exact ⟨⟨.inl ⟨rfl, rfl, rfl, rfl, rfl⟩, Sched.afterInit_sound program⟩, Tasks.start, .refl,
        Sched.afterInit_models _⟩
  | replays stackSize virtualTime file ready =>
      rcases replayStart_cases stackSize virtualTime file with
        ⟨unready, _⟩ | ⟨reader, started, _, _, same⟩
      · rw [unready] at ready
        cases ready
      · rw [same]
        exact ⟨⟨.inr ⟨rfl, rfl, rfl, rfl, rfl⟩, Sched.afterInit_sound program⟩, Tasks.start, .refl,
          Sched.afterInit_models _⟩

theorem synchronous_of_exec {start : State} {inputs : List Input} (unrecorded : start.Unrecorded)
    (reached : exec (Librr.step program) start inputs = some s)
    (unwrapped : s.sched.nextId < 2 ^ 64) : s.Synchronous program ∧ s.Explained program := by
  have kept : ∀ (before : State) (input : Input) (after : State),
      Librr.step program before input = some after →
      ((before.Passes ∨ before.Replays) ∧ before.sched.QueueInvariant ∧ before.sched.Framed) ∧
        (before.sched.nextId < 2 ^ 64 →
          before.Synchronous program ∧ before.Explained program) →
      ((after.Passes ∨ after.Replays) ∧ after.sched.QueueInvariant ∧ after.sched.Framed) ∧
        (after.sched.nextId < 2 ^ 64 →
          after.Synchronous program ∧ after.Explained program) := by
    intro before input after taken ⟨⟨mode, queue, framed⟩, earlier⟩
    obtain ⟨mode', ring, turn⟩ := Synchronous.turn mode queue framed taken
    refine ⟨⟨mode', queueInvariant_of_refines queue (turn.refines queue framed),
      turn.framed queue framed⟩, fun below => ?_⟩
    have counted := turn.nextId_le framed
    obtain ⟨inv, m, reached, shows⟩ := earlier (by omega)
    refine ⟨inv.step taken below, .next reached ?_⟩
    unfold Shows
    rw [ring]
    exact turn.simulated inv.sound below shows
  obtain ⟨inv, explained⟩ := unrecorded.begins program
  exact (exec_invariant kept ⟨⟨inv.mode, inv.sound.queue, inv.sound.framed⟩, fun _ =>
    ⟨inv, explained⟩⟩ reached).2 unwrapped

/-- Nobody waits in a call where calls return at once. -/
theorem Synchronous.unwaiting (inv : s.Synchronous program) {m : Tasks} (shows : s.Shows m)
    {id : UInt64} {v : Task} (found : m.thread id = some v) (call : Call) :
    v.status ≠ .waiting (.call call) := by
  intro waiting
  obtain ⟨ut, u, present, rfl, rfl⟩ := (shows.threads id v).mp found
  have fits := inv.sound.framed ut u present
  simp only [Sched.task, Sched.status] at waiting
  cases state : u.state with
  | blocked =>
      simp only [Uthread.FrameFits, state] at fits
      simp only [state, Coop.Status.waiting.injEq] at waiting
      cases inside : u.ctx.frame with
      | io request serial =>
          have once := inv.sound.wakers.single ut u.id
            ⟨u, present, rfl, state, request, serial, inside⟩
          have tagged : rrSignalSentinel = u.id := by
            by_contra other
            rw [List.count_cons_of_ne other] at once
            cases once
          obtain ⟨w, live, same⟩ := Sched.of_core_some present
          refine inv.sound.named.id_ne_sentinel live ?_
          rw [tagged, ← same]
          rfl
      | joining target out v => simp [inside, Frame.cause] at waiting
      | _ => simp [inside, Frame.Waits] at fits
  | _ => simp [state] at waiting

/-- A run in replay or passthrough mode is a run of the same cooperative uthreads, in which every
call returns at once. -/
theorem unrecorded_refines_tasks (program : Program) (start : State) (unrecorded : start.Unrecorded)
    (inputs : List Input) (s : State)
    (reached : exec (Librr.step program) start inputs = some s)
    (unwrapped : s.sched.nextId < 2 ^ 64) :
    ∃ m, ReflTransGen (Tasks.Step program) Tasks.start m ∧ s.sched.Models s.ring.written m ∧
      ∀ id v call, m.thread id = some v → v.status ≠ .waiting (.call call) := by
  obtain ⟨inv, m, run, shows⟩ := synchronous_of_exec unrecorded reached unwrapped
  exact ⟨m, run, shows, fun id v call found => inv.unwaiting shows found call⟩

/-- The main thread creates a uthread that exits, and joins it. -/
theorem joinTwice_unrecorded_refines :
    ∃ s, exec (Librr.step joinTwice) (passthroughStart 8192)
        [.act .calm, .act .calm, .loop .calm, .act .calm, .loop .calm, .act .calm] = some s ∧
      s.sched.stateOf 1 = some .done ∧
      ∃ m, ReflTransGen (Tasks.Step joinTwice) Tasks.start m ∧
        s.sched.Models s.ring.written m ∧
        ∀ id v call, m.thread id = some v → v.status ≠ .waiting (.call call) := by
  have ran : (exec (Librr.step joinTwice) (passthroughStart 8192)
      [.act .calm, .act .calm, .loop .calm, .act .calm, .loop .calm, .act .calm]).map
      (fun s => (decide (s.sched.nextId < 2 ^ 64), s.sched.stateOf 1)) =
        some (true, some .done) := by decide +kernel
  obtain ⟨s, reached, facts⟩ := Option.map_eq_some_iff.mp ran
  simp only [Prod.mk.injEq, decide_eq_true_eq] at facts
  exact ⟨s, reached, facts.2, unrecorded_refines_tasks joinTwice _ (.passes 8192) _ s reached
    facts.1⟩

end Unrecorded

end State

/-- The uthread does what its body prescribes: every action it has finished, and the one it
is in the middle of, is the next one after the results received before. -/
structure Uthread.Follows (program : Program) (u : Uthread) : Prop where
  finished : ∀ front action reply back, u.ctx.trace = front ++ (action, reply) :: back →
    program u.startFn (front.map Prod.snd) = action
  inside : u.state ≠ .done → ∀ action, u.ctx.frame.action = some action →
    program u.startFn u.ctx.replies = action

namespace State

variable {program : Program} {s t : State} {input : Input}

/-- Reached in record mode by submissions that hand over their own operation, or in another
mode. -/
inductive ReachedHandingOwn (program : Program) (s : State) : Prop where
  | recorded (stackSize : Nat) (signalFd : Int32) (inputs : List Input)
    (reached : exec (Librr.step program) (recordStart stackSize signalFd) inputs = some s)
    (own : Along (Librr.step program) (fun before input _ => before.HandsOverOwn program input)
      (recordStart stackSize signalFd) inputs)
  | unrecorded (start : State) (mode : start.Unrecorded) (inputs : List Input)
    (reached : exec (Librr.step program) start inputs = some s)

theorem ReachedHandingOwn.explained (reachable : s.ReachedHandingOwn program)
    (unwrapped : s.sched.nextId < 2 ^ 64) :
    s.Explained program ∧ s.sched.Framed ∧
      ∀ input t, Librr.step program s input = some t → t.sched.nextId < 2 ^ 64 →
        (∀ m, s.Shows m → ∃ m', ReflGen (Tasks.Step program) m m' ∧ t.Shows m') ∧
        t.sched.Named ∧
        ∀ ut u, s.sched.heap ut = some u → ∃ v, t.sched.heap ut = some v ∧ v.id = u.id := by
  cases reachable with
  | recorded stackSize signalFd inputs reached own =>
      obtain ⟨inv, explained⟩ := faithful_of_exec reached own unwrapped
      refine ⟨explained, inv.sound.framed, fun input t taken bounded =>
        ⟨fun m shows => inv.simulated taken bounded shows, ?_, ?_⟩⟩
      · exact (inv.paired.recording.step taken).1.named bounded inv.paired.named
      · intro ut u found
        rcases (inv.paired.recording.step taken).1.turn inv.paired with
          ⟨_, _, _, _, _, same, _⟩ | ⟨_, turn⟩
        · exact ⟨u, same ▸ found, rfl⟩
        · exact turn.persists inv.sound.queue inv.sound.framed found
  | unrecorded start mode inputs reached =>
      obtain ⟨inv, explained⟩ := synchronous_of_exec mode reached unwrapped
      refine ⟨explained, inv.sound.framed, fun input t taken bounded => ?_⟩
      obtain ⟨_, ring, turn⟩ := Synchronous.turn inv.mode inv.sound.queue inv.sound.framed taken
      refine ⟨fun m shows => ?_, turn.named inv.sound.framed bounded inv.sound.named,
        fun ut u found => turn.persists inv.sound.queue inv.sound.framed found⟩
      unfold Shows
      rw [ring]
      exact turn.simulated inv.sound bounded shows

theorem follows_of_conforms {sched : Sched} {written : Nat → Bytes} {ut : Ptr} {u : Uthread}
    (framed : sched.Framed) (found : sched.core ut = some u)
    (conforms : (sched.task written u).Conforms program Cause.action) : u.Follows program := by
  have fits := framed ut u found
  refine ⟨conforms.trace, fun alive action inside => ?_⟩
  cases state : u.state with
  | running =>
      simp only [Uthread.FrameFits, state] at fits
      rw [fits] at inside
      cases inside
  | runnable =>
      have ready : (sched.task written u).status = .ready (sched.due written u) := by
        simp only [Sched.task, Sched.status, state]
      simp only [Uthread.FrameFits, state] at fits
      cases entry : sched.due written u with
      | none =>
          rw [Sched.due_none fits entry] at inside
          cases inside
      | some pair =>
          rw [entry] at ready
          rw [Sched.due_action entry] at inside
          cases inside
          exact conforms.due pair.1 pair.2 ready
  | blocked =>
      have waiting : (sched.task written u).status = .waiting u.ctx.frame.cause := by
        simp only [Sched.task, Sched.status, state]
      have asked := conforms.waits _ waiting
      simp only [Uthread.FrameFits, state] at fits
      cases frame : u.ctx.frame with
      | joining id out target =>
          rw [frame] at inside asked
          cases inside
          exact asked
      | io call serial =>
          rw [frame] at inside asked
          cases inside
          exact asked
      | _ => simp [frame, Frame.Waits] at fits
  | done => exact absurd state alive

/-- In every mode, as long as each submission hands over its own operation, a uthread only ever
does what its own body prescribes, and a step adds to what it has done only if it has the
processor before or after. -/
theorem uthreads_run_their_bodies (program : Program) (s : State)
    (reachable : s.ReachedHandingOwn program) (input : Input) (t : State)
    (taken : Librr.step program s input = some t)
    (unwrapped : s.sched.nextId < 2 ^ 64) (bounded : t.sched.nextId < 2 ^ 64) (ut : Ptr)
    (u : Uthread) (found : s.sched.heap ut = some u) :
    u.Follows program ∧ ∃ v, t.sched.heap ut = some v ∧ v.startFn = u.startFn ∧
      u.ctx.trace <+: v.ctx.trace ∧
      (v.ctx.trace ≠ u.ctx.trace → s.sched.holder = .of u.id ∨ t.sched.holder = .of u.id) := by
  obtain ⟨⟨m, reached, shows⟩, framed, onward⟩ := reachable.explained unwrapped
  obtain ⟨simulated, named, persists⟩ := onward input t taken bounded
  have known := shows.found_heap found
  have follows := follows_of_conforms framed (Sched.core_some found) (reached.conforms u.id _ known)
  refine ⟨⟨follows.finished, follows.inside⟩, ?_⟩
  obtain ⟨v, here, same⟩ := persists ut u found
  obtain ⟨m', step, shows'⟩ := simulated m shows
  have later := shows'.found_heap here
  rw [same] at later
  have grows : (s.sched.task s.ring.written u.core).Grows (t.sched.task t.ring.written v.core)
      (m.turn = .of u.id ∨ m'.turn = .of u.id) := by
    cases step with
    | refl =>
        rw [known] at later
        rw [Option.some.inj later]
        exact .moved (t.sched.task t.ring.written v.core).status
    | single step =>
        obtain ⟨task, there, grows⟩ := step.grows known
        rw [there] at later
        rw [← Option.some.inj later]
        exact grows
  rw [shows.turn, shows'.turn] at grows
  exact ⟨v, here, grows.body, grows.trace, grows.own⟩

/-- The exit of the other uthread gives the main thread its answer; the step to it is the main
thread's own. -/
theorem joinTwice_runs_bodies :
    ∃ s t u, exec (Librr.step joinTwice) (passthroughStart 8192)
        [.act .calm, .act .calm, .loop .calm, .act .calm] = some s ∧
      Librr.step joinTwice s (.loop .calm) = some t ∧ s.sched.heap 0 = some u ∧
      (u.Follows joinTwice ∧ ∃ v, t.sched.heap 0 = some v ∧ v.startFn = u.startFn ∧
        u.ctx.trace <+: v.ctx.trace ∧
        (v.ctx.trace ≠ u.ctx.trace → s.sched.holder = .of u.id ∨ t.sched.holder = .of u.id)) := by
  have ran : (exec (Librr.step joinTwice) (passthroughStart 8192)
      [.act .calm, .act .calm, .loop .calm, .act .calm]).map (fun s =>
        (decide (s.sched.nextId < 2 ^ 64), (s.sched.heap 0).isSome,
          (Librr.step joinTwice s (.loop .calm)).map fun t => decide (t.sched.nextId < 2 ^ 64))) =
        some (true, true, some true) := by decide +kernel
  obtain ⟨s, reached, facts⟩ := Option.map_eq_some_iff.mp ran
  simp only [Prod.mk.injEq, decide_eq_true_eq, Option.map_eq_some_iff] at facts
  obtain ⟨unwrapped, present, t, taken, bounded⟩ := facts
  obtain ⟨u, found⟩ := Option.isSome_iff_exists.mp present
  exact ⟨s, t, u, reached, taken, found, uthreads_run_their_bodies joinTwice s
    (.unrecorded _ (.passes 8192) _ reached) _ t taken unwrapped bounded 0 u found⟩

end State

end Librr
