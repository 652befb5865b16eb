import Librr.Durability

set_option autoImplicit false

namespace Librr

open Transition

namespace State

/-- The uthreads would do next what they do next, had they received what `view` shows. -/
def Indifferent (program : Program) (view : Action × Reply → Action × Reply) (s : State) : Prop :=
  ∀ ut u, s.sched.heap ut = some u →
    program u.startFn (u.ctx.viewed view) = program u.startFn u.ctx.replies

/-- A recorded run in which nothing overlaps is one that replay can follow, as far as its
events are in the log and what replay returns instead does not matter. -/
theorem steady_of_view {program : Program} {view : Action × Reply → Action × Reply}
    {stackSize : Nat} {signalFd : Int32} {inputs : List Input} {recorded : State}
    {log : List Event}
    (reached : exec (step program) (recordStart stackSize signalFd) inputs = some recorded)
    (sequential : Along (step program) (fun s input _ => s.Sequential program input)
      (recordStart stackSize signalFd) inputs)
    (indifferent : Along (step program) (fun s _ _ => s.Indifferent program view)
      (recordStart stackSize signalFd) inputs)
    (seen : ∀ id call result, .returned id call result ∈ recorded.history →
      view (.call call, .returned result) = (.call call, .returned (call.replayed result)))
    (inside : recorded.log <+: log) :
    Along (step program) (Steady program view log) (recordStart stackSize signalFd) inputs := by
  have kept : ∀ s i t, Librr.step program s i = some t → s.Sequential program i →
      s.Recording ∧ s.Unsignalled → t.Recording ∧ t.Unsignalled := fun s i t taken holds inv =>
    ⟨(inv.1.step taken).2, inv.2.step inv.1 holds taken⟩
  have start : (recordStart stackSize signalFd).Unsignalled :=
    ⟨by simp [recordStart_eq, Ring.absent], by simp [recordStart_eq]⟩
  have clear := sequential.strengthen kept ⟨recordStart_recording stackSize signalFd, start⟩
  have conditions := ((clear.and indifferent).and (along_log reached)).and (along_history reached)
  refine conditions.mono ?_
  rintro s input t ⟨⟨⟨⟨holds, _, _, silent⟩, same⟩, front⟩, past⟩
  refine ⟨?_, ?_, ?_, ?_, silent.log, front.trans inside, ?_⟩
  · rintro answer rfl
    exact holds.1
  · rintro answer rfl
    exact holds.2.1
  · rintro answer ut u call op rfl running next issued
    exact holds.2.2 (by simp [submits, running, next, issued])
  · intro ut u _ running
    exact same ut u (Sched.of_running running).2
  · exact fun id call result member => seen id call result (past.subset member)

/-- Where the results fit their records, nothing is to be seen differently. -/
theorem steady_of_sequential {program : Program} {stackSize : Nat} {signalFd : Int32}
    {inputs : List Input} {recorded : State} {log : List Event}
    (reached : exec (step program) (recordStart stackSize signalFd) inputs = some recorded)
    (sequential : Along (step program) (fun s input _ => s.Sequential program input)
      (recordStart stackSize signalFd) inputs)
    (genuine : ∀ id call result, .returned id call result ∈ recorded.history →
      call.Genuine result)
    (inside : recorded.log <+: log) :
    Along (step program) (Steady program id log) (recordStart stackSize signalFd) inputs := by
  refine steady_of_view reached sequential ?_ ?_ inside
  · refine along_of_forall (fun s _ _ _ ut u _ => ?_) _ _
    rw [Context.viewed, List.map_id]
    rfl
  · intro id call result member
    rw [(genuine id call result member).replayed]
    rfl

theorem Beside.advance (program : Program) {p q : State} (beside : Beside p q)
    (choice : Answer × WaitAnswer) :
    Option.Rel Beside (p.advance program choice) (q.advance program choice) := by
  have control : q.sched.control = p.sched.control := by rw [beside.same]
  unfold State.advance
  rw [control]
  exact beside.step program _

/-- Replay of a file and of its complete records, whatever the world answers. -/
theorem advance_wholeRecords (program : Program) (stackSize : Nat) (virtualTime : Bool)
    (file : Bytes) (choices : List (Answer × WaitAnswer)) :
    Option.Rel Beside
      (exec (advance program)
        (replayStart stackSize virtualTime (some (Reader.wholeRecords file))) choices)
      (exec (advance program) (replayStart stackSize virtualTime (some file)) choices) := by
  have alike : List.Forall₂ (fun mine theirs : Answer × WaitAnswer => mine = theirs)
      choices choices := List.forall₂_same.mpr fun _ _ => rfl
  refine exec_rel ?_ (replayStart_beside stackSize virtualTime file) alike
  rintro p q choice _ beside rfl
  exact beside.advance program choice

/-- A point of a recorded run whose events are all among the first `n` of the final log is
reached by replay from those alone. -/
theorem replay_reaches {program : Program} {stackSize : Nat} {signalFd : Int32}
    {inputs : List Input} {recorded s : State} {n k : Nat}
    (reached : exec (step program) (recordStart stackSize signalFd) inputs = some recorded)
    (sequential : Along (step program) (fun s input _ => s.Sequential program input)
      (recordStart stackSize signalFd) inputs)
    (genuine : ∀ id call result, .returned id call result ∈ recorded.history →
      call.Genuine result)
    (there : exec (step program) (recordStart stackSize signalFd) (inputs.take k) = some s)
    (written : s.log.length ≤ n) (startTime : UInt64) (pid : UInt32) (replayStack : Nat)
    {choices : Nat → Answer × WaitAnswer} (created : ∀ m, (choices m).1.create.Succeeds) :
    ∃ m ≤ k, ∃ p,
      exec (advance program)
        (replayStart replayStack true (some (flushedLog startTime pid (recorded.log.take n))))
        ((List.range m).map choices) = some p ∧
      Corresponds program (recorded.log.take n) s p := by
  have split := List.take_append_drop k inputs
  rw [← split] at reached sequential
  obtain ⟨middle, first, rest⟩ := exec_append.mp reached
  obtain rfl : middle = s := Option.some.inj (first.symm.trans there)
  have recording : middle.Recording := exec_invariant (fun _ _ _ taken inv => (inv.step taken).2)
    (recordStart_recording stackSize signalFd) there
  have grows : ∀ s i t, Librr.step program s i = some t → s.Recording →
      t.Recording ∧ s.log <+: t.log := fun s i t taken inv =>
    ⟨(inv.step taken).2, (inv.step taken).1.log_grows inv.records⟩
  have inside : middle.log <+: recorded.log.take n := by
    have front := exec_extends grows recording rest
    rw [List.prefix_take_iff]
    exact ⟨front, written⟩
  have past : middle.history <+: recorded.history :=
    exec_extends (fun _ _ _ taken _ => ⟨trivial, step_grows taken⟩) trivial rest
  have steady := steady_of_sequential there ((along_append there).mp sequential).1
    (fun id call result member => genuine id call result (past.subset member)) inside
  obtain ⟨steps, zero, slow, pairs⟩ := lockstep_of_steady Sched.plain_id there steady
    ((log_of_exec there).trans inside) startTime pid replayStack created
  have few : ∀ i, steps i ≤ i := by
    intro i
    induction i with
    | zero => exact Nat.le_of_eq zero
    | succ i ih => exact Nat.le_trans (slow i).2 (Nat.succ_le_succ ih)
  obtain ⟨r, p, ran, replayed, inv, tied⟩ := pairs k
  rw [List.take_take, Nat.min_self] at ran
  obtain rfl : middle = r := Option.some.inj (there.symm.trans ran)
  exact ⟨steps k, few k, p, replayed, tied.corresponds inv⟩

theorem readThenJoin_genuine :
    ∃ recorded, exec (step readThenJoin) (recordStart 8192 5) readThenJoinRun = some recorded ∧
      ∀ id call result, .returned id call result ∈ recorded.history → call.Genuine result := by
  obtain ⟨recorded, ran, seen⟩ := readThenJoin_history
  refine ⟨recorded, ran, fun id call result member => ?_⟩
  exact readThenJoin_fits id call result
    ((congrArg (Observation.returned id call result ∈ ·) seen).mp
      (List.mem_filter.mpr ⟨member, rfl⟩))

end State

namespace Journaled

/-- A recording process whose log writes are only cut short may be killed at any moment, inside
a `write` or not. The complete records it leaves are those of its first `n` events, all but
what fits into the ring and two records. If nothing overlapped, nothing failed to be created or
submitted, no signal was consumed and the results fit their records, replay comes from the file
to every point of the recorded run whose events are among them, whatever the world answers
meanwhile, as long as creations succeed. -/
theorem killed_process_replays (program : Program) (stackSize : Nat) (signalFd : Int32)
    (startTime : UInt64) (pid : UInt32) (opening : List WriteAnswer) (recorder : Recorder)
    (initialised : Recorder.rrRecordInit startTime pid opening = some recorder)
    (inputs : List (Input × List (List WriteAnswer)))
    (benign : ∀ input ∈ inputs, ∀ answers ∈ input.2, ∀ answer ∈ answers, answer.Benign)
    (silent : ∀ input ∈ inputs, ∀ answers ∈ input.2, ∀ answer ∈ answers, answer.errno = none)
    (j : Journaled)
    (reached : exec (Journaled.step program) (start stackSize signalFd recorder) inputs = some j)
    (sequential : Along (Librr.step program) (fun s input _ => s.Sequential program input)
      (.recordStart stackSize signalFd) (inputs.map Prod.fst))
    (genuine : ∀ id call result, .returned id call result ∈ j.process.history →
      call.Genuine result)
    (replayStack : Nat) (choices : Nat → Answer × WaitAnswer)
    (created : ∀ m, (choices m).1.create.Succeeds) :
    ∃ n ≤ j.process.log.length,
      Reader.wholeRecords j.recorder.file =
        State.flushedLog startTime pid (j.process.log.take n) ∧
      sizeofEvent * j.recorder.logged.length < sizeofEvent * (n + 2) + rrLogRingSize ∧
      ∀ k s, exec (Librr.step program) (.recordStart stackSize signalFd)
          ((inputs.map Prod.fst).take k) = some s → s.log.length ≤ n →
        ∃ m ≤ k, ∃ p q,
          exec (State.advance program)
            (.replayStart replayStack true
              (some (State.flushedLog startTime pid (j.process.log.take n))))
            ((List.range m).map choices) = some p ∧
          State.Corresponds program (j.process.log.take n) s p ∧
          exec (State.advance program) (.replayStart replayStack true (some j.recorder.file))
            ((List.range m).map choices) = some q ∧
          State.Beside p q := by
  obtain ⟨n, among, whole, missing, _⟩ := (kept_of_exec initialised benign reached).records
  refine ⟨n, among, whole, missing, fun k s there written => ?_⟩
  obtain ⟨m, few, p, replayed, corresponds⟩ := State.replay_reaches
    (process_of_exec silent reached) sequential genuine there written startTime pid replayStack
    created
  have torn := State.advance_wholeRecords program replayStack true j.recorder.file
    ((List.range m).map choices)
  rw [whole, replayed] at torn
  cases found : exec (State.advance program) (.replayStart replayStack true (some j.recorder.file))
      ((List.range m).map choices) with
  | none =>
      rw [found] at torn
      cases torn
  | some q =>
      rw [found] at torn
      cases torn with
      | some beside => exact ⟨m, few, p, q, replayed, corresponds, found, beside⟩

/-- The flush at the end of a run is cut inside its third record. -/
def readThenJoinTorn : List (Input × List (List WriteAnswer)) :=
  State.readThenJoinRun.map fun input => (input, [[.accepted 100, .accepted 200]])

theorem readThenJoinTorn_file :
    ∃ recorder j, Recorder.rrRecordInit 0 7 [.accepted 24] = some recorder ∧
      exec (Journaled.step State.readThenJoin) (start 8192 5 recorder) readThenJoinTorn = some j ∧
      j.recorder.file.length = 324 ∧ j.process.log.length = 6 := by
  have header : Recorder.rrRecordInit 0 7 [.accepted 24] =
      some ⟨(Header.recorded 0 7).encode, [], 0, false, []⟩ := by decide +kernel
  have ran : (exec (Journaled.step State.readThenJoin)
      (start 8192 5 ⟨(Header.recorded 0 7).encode, [], 0, false, []⟩) readThenJoinTorn).map
        (fun j => (j.recorder.file.length, j.process.log.length)) = some (324, 6) := by
    decide +kernel
  obtain ⟨j, reached, counts⟩ := Option.map_eq_some_iff.mp ran
  obtain ⟨size, events⟩ := Prod.mk.inj counts
  exact ⟨_, j, header, reached, size, events⟩

theorem readThenJoinTorn_short : ∀ input ∈ readThenJoinTorn, ∀ answers ∈ input.2,
    ∀ answer ∈ answers, answer.Benign ∧ answer.errno = none := by
  intro input member
  obtain ⟨_, _, rfl⟩ := List.mem_map.mp member
  simp [WriteAnswer.Benign, WriteAnswer.errno]

theorem readThenJoinTorn_process : readThenJoinTorn.map Prod.fst = State.readThenJoinRun := by
  rw [readThenJoinTorn, List.map_map]
  exact List.map_id _

/-- After the first step, whose two events are in the file, replay stands where the
recorded run stood. -/
theorem readThenJoinTorn_replays :
    ∃ recorder j, Recorder.rrRecordInit 0 7 [.accepted 24] = some recorder ∧
      exec (Journaled.step State.readThenJoin) (start 8192 5 recorder) readThenJoinTorn = some j ∧
      j.recorder.file.length = 324 ∧ j.process.log.length = 6 ∧
      ∃ n ≤ j.process.log.length,
        Reader.wholeRecords j.recorder.file = State.flushedLog 0 7 (j.process.log.take n) ∧
        sizeofEvent * j.recorder.logged.length < sizeofEvent * (n + 2) + rrLogRingSize ∧
        ∀ k s, exec (Librr.step State.readThenJoin) (.recordStart 8192 5)
            (State.readThenJoinRun.take k) = some s → s.log.length ≤ n →
          ∃ m ≤ k, ∃ p q,
            exec (State.advance State.readThenJoin)
              (.replayStart 8192 true (some (State.flushedLog 0 7 (j.process.log.take n))))
              ((List.range m).map fun _ => (.calm, .calm)) = some p ∧
            State.Corresponds State.readThenJoin (j.process.log.take n) s p ∧
            exec (State.advance State.readThenJoin) (.replayStart 8192 true (some j.recorder.file))
              ((List.range m).map fun _ => (.calm, .calm)) = some q ∧
            State.Beside p q := by
  obtain ⟨recorder, j, header, reached, size, events⟩ := readThenJoinTorn_file
  obtain ⟨recorded, ran, genuine⟩ := State.readThenJoin_genuine
  have benign : ∀ input ∈ readThenJoinTorn, ∀ answers ∈ input.2, ∀ answer ∈ answers,
      answer.Benign := fun input given answers made answer member =>
    (readThenJoinTorn_short input given answers made answer member).1
  have silent : ∀ input ∈ readThenJoinTorn, ∀ answers ∈ input.2, ∀ answer ∈ answers,
      answer.errno = none := fun input given answers made answer member =>
    (readThenJoinTorn_short input given answers made answer member).2
  have process := process_of_exec silent reached
  rw [readThenJoinTorn_process] at process
  obtain rfl : recorded = j.process := Option.some.inj (ran.symm.trans process)
  have replays := killed_process_replays State.readThenJoin 8192 5 0 7 [.accepted 24] recorder
    header readThenJoinTorn benign silent j reached
    (by rw [readThenJoinTorn_process]; decide +kernel) genuine 8192 (fun _ => (.calm, .calm))
    (fun _ => by decide)
  rw [readThenJoinTorn_process] at replays
  exact ⟨recorder, j, header, reached, size, events, replays⟩

end Journaled

end Librr
