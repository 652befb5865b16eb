import Librr.Frames
import Librr.History

set_option autoImplicit false

namespace Librr

open Transition

/-- A switch that leaves a uthread inside a wrapped call. -/
def Observation.InsideCall : Observation → Prop
  | .switched _ _ _ (some (.call _)) => True
  | _ => False

namespace Sched

theorem rrSchedulerBlockCurrent_current (s : Sched) (frame : Frame) :
    (s.rrSchedulerBlockCurrent frame).current = s.current := by
  unfold rrSchedulerBlockCurrent
  split
  · rfl
  · split <;> rfl

theorem rrSchedulerExitCurrent_current (s : Sched) (value : UInt64) :
    (s.rrSchedulerExitCurrent value).current = s.current := by
  unfold rrSchedulerExitCurrent
  split
  · rfl
  · split
    · rfl
    · exact (wakeJoiner_frame _ _).current

theorem Local.current {stackSize : Nat} {s t : Sched} {ut : Ptr} {u : Uthread}
    {answer : CreateAnswer} {action : Action} (performed : s.Local stackSize ut u answer action t) :
    t.current = s.current := by
  cases performed with
  | create fn => exact (s.uthreadCreate_unswitched stackSize fn answer).1
  | yield =>
      unfold rrSchedulerYieldCurrent
      split
      · rfl
      · split
        · rfl
        · exact (rrSchedulerEnqueue_frame _ _).current
  | joinNow id out reply answered => rfl
  | joinWait id out target record found apart live free =>
      exact rrSchedulerBlockCurrent_current _ _
  | exit value => exact rrSchedulerExitCurrent_current s value
  | ret fn started => exact rrSchedulerExitCurrent_current s 0
  | stop main => rfl

end Sched

namespace State

/-- The current uthread after a switch, whatever it then finishes. -/
theorem switchTo_current (s : State) (popped : Sched) (next : Ptr) (u : Uthread) :
    (s.switchTo popped next u).sched.current = some next := by
  rw [switchTo_eq]
  rcases (s.arrive popped next u.id).resume_sched next u with same | ⟨action, reply, same⟩
  · rw [same]
    rfl
  · rw [same]
    rfl

theorem switchTo_frameAt {s t : State} {next : Ptr} {u : Uthread} (resumes : u.ctx.frame.Resumes)
    (found : s.sched.runqPopFront.2.heap next = some u) (ut : Ptr) :
    (t.switchTo s.sched.runqPopFront.2 next u).sched.frameAt ut =
      if ut = next then (s.sched.core ut).map fun _ => .user else s.sched.frameAt ut := by
  obtain ⟨trace, core⟩ := switchTo_core (t := t) resumes found
  exact Sched.frameAt_modify core ut

/-- What a resumed uthread adds to what has been seen. -/
theorem resume_history (s : State) (ut : Ptr) (u : Uthread) :
    ∃ seen, (s.resume ut u).history = s.history ++ seen ∧ ∀ x ∈ seen, ¬ x.InsideCall := by
  unfold resume
  split
  · exact ⟨[], by simp⟩
  · exact ⟨[], by simp⟩
  · exact ⟨[], by simp⟩
  · rename_i call serial framed
    unfold finishIo
    split
    · exact ⟨[.answered serial u.ioResult], by simp, by simp [Observation.InsideCall]⟩
    · rename_i finish half
      refine ⟨[.answered serial u.ioResult, .returned s.sched.currentId call
        (finish u.ioResult (s.ring.written serial)).1], ?_, by simp [Observation.InsideCall]⟩
      rw [loggedReturn_history, observe_history, observe_sched, List.append_assoc]
      rfl
  · exact ⟨[], by simp⟩

/-- A uthread inside an asynchronous call is the current one, or it has been seen to
be left there. -/
def CallSeen (s : State) : Prop :=
  ∀ ut call serial, s.sched.frameAt ut = some (.io call serial) →
    s.sched.current = some ut ∨ ∃ x ∈ s.history, x.InsideCall

theorem CallSeen.grow {s t : State} (seen : s.CallSeen) (history : s.history <+: t.history)
    (current : t.sched.current = s.sched.current)
    (frames : ∀ ut call serial, t.sched.frameAt ut = some (.io call serial) →
      s.sched.frameAt ut = some (.io call serial)) : t.CallSeen := by
  intro ut call serial framed
  rcases seen ut call serial (frames ut call serial framed) with here | ⟨x, member, inside⟩
  · exact Or.inl (current.trans here)
  · exact Or.inr ⟨x, history.subset member, inside⟩

theorem reply_frameAt_io {s : Sched} {cur ut : Ptr} {action : Action} {reply : Reply} {call : Call}
    {serial : Nat} (framed : (s.reply cur action reply).frameAt ut = some (.io call serial)) :
    s.frameAt ut = some (.io call serial) := by
  rw [Sched.frameAt_reply] at framed
  split at framed
  · simp at framed
  · exact framed

/-- The switch away from a uthread inside a call is seen as such. -/
theorem switchSeen_inside {s : State} {ut next : Ptr} {call : Call} {serial : Nat}
    (current : s.sched.current = some ut) (framed : s.sched.frameAt ut = some (.io call serial))
    (apart : ut ≠ next) (toId : UInt64) : ∃ x ∈ s.switchSeen next toId, x.InsideCall := by
  obtain ⟨v, found, frame⟩ := Option.map_eq_some_iff.mp framed
  obtain ⟨u, present, rfl⟩ := Sched.of_core_some found
  have inside : u.ctx.frame = .io call serial := frame
  refine ⟨.switched u.id toId u.ctx.trace.length (some (.call call)), ?_, trivial⟩
  simp [switchSeen, Sched.running_eq current present, apart, inside, Frame.action]

theorem CallSeen.step {program : Program} {s t : State} {input : Input} (inv : s.Recording)
    (seen : s.CallSeen) (taken : Librr.step program s input = some t) : t.CallSeen := by
  have grown := step_grows taken
  cases (inv.step taken).1 with
  | perform answer ut u sched user running performed =>
      exact seen.grow grown performed.current fun other call serial =>
        (performed.frameAt_io inv.framed inv.queue user running other call serial).mp
  | immediate answer ut u call result args user running next done =>
      refine seen.grow grown ?_ ?_
      · rw [loggedReturn_sched]
        rfl
      · intro other c n framed
        rw [loggedReturn_sched] at framed
        exact reply_frameAt_io framed
  | full answer ut u call op finish user running next submits half filled =>
      refine seen.grow grown ?_ ?_
      · rw [loggedReturn_sched]
        rfl
      · intro other c n framed
        rw [loggedReturn_sched] at framed
        exact reply_frameAt_io framed
  | refused answer ut u call op finish user running next submits half room failed =>
      refine seen.grow grown ?_ ?_
      · rw [loggedReturn_sched]
        rfl
      · intro other c n framed
        rw [loggedReturn_sched] at framed
        exact reply_frameAt_io (s := s.sched) framed
  | submitted answer ut u call op finish user running next submits half room accepted =>
      intro other c n framed
      obtain ⟨current, _⟩ := Sched.of_running running
      have kept : (s.hand op call).sched.current = some ut :=
        (Sched.rrSchedulerBlockCurrent_current _ _).trans current
      have core := Sched.rrSchedulerBlockCurrent_core current inv.queue.on
        (.io call s.ring.fresh)
      have frames := Sched.frameAt_modify core other
      by_cases own : other = ut
      · exact Or.inl (own ▸ kept)
      · rw [if_neg own] at frames
        rcases seen other c n (frames.symm.trans framed) with here | ⟨x, member, inside⟩
        · exact absurd (Option.some.inj (here.symm.trans current)) own
        · exact Or.inr ⟨x, grown.subset member, inside⟩
  | interrupted answer idle empty broken => exact seen
  | killed answer cqe rest idle empty first sentinel full fatal =>
      exact seen.grow grown rfl fun _ _ _ framed => framed
  | signal answer cqe rest idle empty first sentinel full harmless =>
      have same : (((s.rrLogSignal s.ring.ssiSigno s.sched.currentId.toUInt32).rearmSignalRead
          answer.submit).cqeSeen).sched = s.sched :=
        (rearmSignalRead_kept _ _).1.trans (rrLogSignal_same _ _ _).sched
      exact seen.grow grown (by rw [same]) fun _ _ _ framed => by rwa [same] at framed
  | short answer cqe rest idle empty first sentinel short =>
      have same : (s.rearmSignalRead answer.submit).cqeSeen.sched = s.sched :=
        (rearmSignalRead_kept _ _).1
      exact seen.grow grown (by rw [same]) fun _ _ _ framed => by rwa [same] at framed
  | wake answer cqe rest idle empty first tagged =>
      refine seen.grow grown (Sched.rrSchedulerWakeById_frame _ _ _ _ _).current ?_
      intro other c n framed
      exact (Sched.frameAt_wake _ _ _ _).symm.trans framed
  | dispatch answer next u idle head found runnable =>
      intro other c n framed
      rw [switchTo_frameAt (head_resumes inv.framed found runnable) found] at framed
      split at framed
      · simp at framed
      · rename_i apart
        rcases seen other c n framed with here | ⟨x, member, inside⟩
        · obtain ⟨x, member, inside⟩ := switchSeen_inside here framed apart u.id
          refine Or.inr ⟨x, ?_, inside⟩
          have same : (s.logSwitch u.id).switchSeen next u.id = s.switchSeen next u.id := by
            rw [switchSeen, switchSeen, (logSwitch_same s u.id).sched]
          rw [switchTo_eq]
          refine (resume_grows _ _ _).subset ?_
          exact List.mem_append_right _ (same ▸ member)
        · exact Or.inr ⟨x, grown.subset member, inside⟩
  | post index res data sqe live flying => exact seen.grow grown rfl fun _ _ _ framed => framed

/-- Replay never suspends a uthread inside a call, so it is never seen to leave one
there. -/
structure NoCall (s : State) : Prop where
  frames : ∀ ut call serial, s.sched.frameAt ut ≠ some (.io call serial)
  seen : ∀ x ∈ s.history, ¬ x.InsideCall

theorem NoCall.switchTo {s base : State} {next : Ptr} {u : Uthread} (inv : s.Replaying)
    (clear : s.NoCall) (sched : base.sched = s.sched) (history : base.history = s.history)
    (found : s.sched.runqPopFront.2.heap next = some u) (runnable : u.state = .runnable) :
    (base.switchTo s.sched.runqPopFront.2 next u).NoCall := by
  refine ⟨?_, ?_⟩
  · intro ut call serial framed
    rw [switchTo_frameAt (head_resumes inv.framed found runnable) found] at framed
    split at framed
    · simp at framed
    · exact clear.frames ut call serial framed
  · obtain ⟨more, whole, outside⟩ :=
      (base.arrive s.sched.runqPopFront.2 next u.id).resume_history next u
    intro x member inside
    rw [switchTo_eq, whole, arrive, history, List.mem_append, List.mem_append] at member
    rcases member with (old | switched) | resumed
    · exact clear.seen x old inside
    · simp only [switchSeen, sched] at switched
      split at switched
      · cases switched
      · rename_i ut v running
        split at switched
        · cases switched
        · obtain rfl := List.mem_singleton.mp switched
          obtain ⟨_, present⟩ := Sched.of_running running
          cases frame : v.ctx.frame with
          | io call serial =>
              refine clear.frames ut call serial ?_
              rw [Sched.frameAt, Sched.core_some present]
              exact congrArg some frame
          | user => simp [frame, Frame.action, Observation.InsideCall] at inside
          | yielding => simp [frame, Frame.action, Observation.InsideCall] at inside
          | joining id out target => simp [frame, Frame.action, Observation.InsideCall] at inside
          | exiting value => simp [frame, Frame.action, Observation.InsideCall] at inside
    · exact outside x resumed inside

theorem NoCall.step {program : Program} {s t : State} {input : Input} (inv : s.Replaying)
    (clear : s.NoCall) (taken : Librr.step program s input = some t) : t.NoCall := by
  cases (inv.step taken).1 with
  | perform answer ut u sched user running performed =>
      exact ⟨fun other call serial framed => clear.frames other call serial
        ((performed.frameAt_io inv.framed inv.queue user running other call serial).mp framed),
        clear.seen⟩
  | answered answer ut u call reader event user running next matched =>
      refine ⟨fun other c n framed => clear.frames other c n (reply_frameAt_io framed), ?_⟩
      intro x member inside
      rcases List.mem_append.mp member with old | fresh
      · exact clear.seen x old inside
      · obtain rfl := List.mem_singleton.mp fresh
        exact inside
  | refused answer ut u call reader errno user running next missed =>
      refine ⟨fun other c n framed => clear.frames other c n (reply_frameAt_io framed), ?_⟩
      intro x member inside
      rcases List.mem_append.mp member with earlier | fresh
      · rcases List.mem_append.mp earlier with old | missed
        · exact clear.seen x old inside
        · obtain rfl := List.mem_singleton.mp missed
          exact inside
      · obtain rfl := List.mem_singleton.mp fresh
        exact inside
  | idle answer idle empty => exact clear
  | again answer next u idle head found runnable same =>
      exact clear.switchTo inv rfl rfl found runnable
  | switch answer next u reader idle head found runnable apart expected =>
      refine clear.switchTo inv ?_ ?_ found runnable
      · rfl
      · rfl
  | abort answer next u reader errno idle head found runnable apart unexpected =>
      refine ⟨clear.frames, ?_⟩
      intro x member inside
      rcases List.mem_append.mp member with old | missed
      · exact clear.seen x old inside
      · obtain rfl := List.mem_singleton.mp missed
        exact inside

theorem afterInit_frameAt (ut : Ptr) (call : Call) (serial : Nat) :
    Sched.afterInit.frameAt ut ≠ some (.io call serial) := by
  intro framed
  obtain ⟨u, found, frame⟩ := Option.map_eq_some_iff.mp framed
  simp only [Sched.core, Sched.afterInit, Heap.set_apply] at found
  split at found
  · cases found
    cases frame
  · cases found

theorem callSeen_of_exec {program : Program} {stackSize : Nat} {signalFd : Int32}
    {inputs : List Input} {s : State}
    (reached : exec (step program) (recordStart stackSize signalFd) inputs = some s) :
    s.CallSeen := by
  have kept : ∀ r i t, Librr.step program r i = some t → r.Recording ∧ r.CallSeen →
      t.Recording ∧ t.CallSeen :=
    fun r i t taken inv => ⟨(inv.1.step taken).2, inv.2.step inv.1 taken⟩
  have start : (recordStart stackSize signalFd).CallSeen := fun ut call serial framed =>
    absurd framed (afterInit_frameAt ut call serial)
  exact (exec_invariant kept ⟨recordStart_recording stackSize signalFd, start⟩ reached).2

/-- A uthread executes while another one is inside an asynchronous call: it was
dispatched after the submission and before the call returned. -/
def Overlaps (s : State) : Prop :=
  s.sched.control = .user ∧ ∃ ut call serial,
    s.sched.frameAt ut = some (.io call serial) ∧ s.sched.current ≠ some ut

/-- A run in which some asynchronous call is overlapped. -/
def Overlapped (program : Program) (start : State) (inputs : List Input) : Prop :=
  ∃ front back middle, inputs = front ++ back ∧
    exec (step program) start front = some middle ∧ middle.Overlaps

/-- The context switches of a run, each with the point of the uthread it leaves. -/
def switches (s : State) : List Observation :=
  s.history.filter fun x => match x with
    | .switched .. => true
    | _ => false

/-- The wrapped calls of the uthread `id` that have returned, with their values. -/
def returnedBy (s : State) (id : UInt64) : List (Call × Int) :=
  s.history.filterMap fun x => match x with
    | .returned other call result => if other = id then some (call, result.ret) else none
    | _ => none

/-- A replay that makes the same switches at the same points and returns the same
values to every uthread, and in which no event is refused. -/
structure Reproduces (recorded replayed : State) : Prop where
  switches : replayed.switches = recorded.switches
  returned : ∀ id, replayed.returnedBy id = recorded.returnedBy id
  matched : .mismatch ∉ replayed.history

theorem Overlapped.seen {program : Program} {stackSize : Nat} {signalFd : Int32}
    {inputs : List Input} {recorded : State}
    (reached : exec (step program) (recordStart stackSize signalFd) inputs = some recorded)
    (overlapped : Overlapped program (recordStart stackSize signalFd) inputs) :
    ∃ x ∈ recorded.history, x.InsideCall := by
  obtain ⟨front, back, middle, rfl, early, _, ut, call, serial, framed, apart⟩ := overlapped
  obtain ⟨middle', early', late⟩ := exec_append.mp reached
  obtain rfl : middle = middle' := Option.some.inj (early.symm.trans early')
  rcases callSeen_of_exec early ut call serial framed with here | ⟨x, member, inside⟩
  · exact absurd here apart
  · exact ⟨x, (exec_grows late).subset member, inside⟩

theorem noCall_of_exec {program : Program} {stackSize : Nat} {virtualTime : Bool}
    {file : Option Bytes} {inputs : List Input} {replayed : State}
    (ran : exec (step program) (replayStart stackSize virtualTime file) inputs = some replayed)
    (matched : .mismatch ∉ replayed.history) : ∀ x ∈ replayed.history, ¬ x.InsideCall := by
  rcases replayStart_cases stackSize virtualTime file with
    ⟨_, seen, _⟩ | ⟨reader, started, _, _, same⟩
  · exact absurd ((exec_grows ran).subset (by simp [seen])) matched
  · rw [same] at ran
    have kept : ∀ r i t, Librr.step program r i = some t → r.Replaying ∧ r.NoCall →
        t.Replaying ∧ t.NoCall :=
      fun r i t taken inv => ⟨(inv.1.step taken).2, inv.2.step inv.1 taken⟩
    have start : NoCall { fresh ⟨false, true, virtualTime, true, stackSize⟩ with
        reader := started } := ⟨afterInit_frameAt, by simp [fresh]⟩
    exact (exec_invariant kept ⟨fresh_replaying stackSize virtualTime started, start⟩ ran).2.seen

theorem Reproduces.insideCall {recorded replayed : State} (same : Reproduces recorded replayed)
    {x : Observation} (member : x ∈ recorded.history) (inside : x.InsideCall) :
    x ∈ replayed.history := by
  have switch : x ∈ recorded.switches := by
    refine List.mem_filter.mpr ⟨member, ?_⟩
    cases x <;> simp_all [Observation.InsideCall]
  rw [← same.switches] at switch
  exact (List.mem_filter.mp switch).1

/-- Recording logs the switches made while a call is outstanding before the event of
the call, and replay answers the call at once: no replay of a log with an
overlapped call makes the same switches at the same points. -/
theorem overlapped_run_never_reproduced (program : Program) (stackSize : Nat) (signalFd : Int32)
    (inputs : List Input) (recorded : State)
    (reached : exec (step program) (recordStart stackSize signalFd) inputs = some recorded)
    (overlapped : Overlapped program (recordStart stackSize signalFd) inputs)
    (startTime : UInt64) (pid : UInt32) (replayStack : Nat) (virtualTime : Bool)
    (replayInputs : List Input) (replayed : State)
    (ran : exec (step program) (replayStart replayStack virtualTime
      (some (flushedLog startTime pid recorded.log))) replayInputs = some replayed) :
    ¬ Reproduces recorded replayed := by
  intro same
  obtain ⟨x, member, inside⟩ := overlapped.seen reached
  exact noCall_of_exec ran same.matched x (same.insideCall member inside) inside

/-- The main thread reads one byte while a second uthread runs and exits. -/
def readBesideExit : Program
  | none, [] => .create (some 0)
  | none, [_] => .call (.read 3 (some [0]) 1)
  | none, _ => .ret
  | some _, _ => .exit 0

def readBesideExitRun : List Input :=
  [.act .calm, .act .calm, .loop .calm, .act .calm, .post 1 1 [65], .loop .calm, .loop .calm,
    .act .calm]

theorem readBesideExit_overlapped :
    Overlapped readBesideExit (recordStart 8192 5) readBesideExitRun := by
  refine ⟨readBesideExitRun.take 3, readBesideExitRun.drop 3, _, rfl, rfl, rfl, 0,
    .read 3 (some [0]) 1, 1, rfl, ?_⟩
  exact fun same => absurd (Option.some.inj same) (by decide)

theorem readBesideExit_recorded :
    ∃ recorded, exec (step readBesideExit) (recordStart 8192 5) readBesideExitRun =
        some recorded ∧
      recorded.log = [⟨1, 1, .sched 0 1⟩, ⟨2, 2, .sched 1 2⟩, ⟨3, 1, .sched 2 1⟩,
        ⟨4, 1, .syscall 0 1 3 (.ofBytes [65]) 1⟩] := ⟨_, rfl, rfl⟩

/-- The recorded run completes, and every replay of its log differs; the read asks
for a system call where the log has the switch to the second uthread. -/
theorem readBesideExit_not_reproduced :
    ∃ recorded, exec (step readBesideExit) (recordStart 8192 5) readBesideExitRun =
        some recorded ∧
      Overlapped readBesideExit (recordStart 8192 5) readBesideExitRun ∧
      (∀ replayInputs replayed, exec (step readBesideExit) (replayStart 8192 true
          (some (flushedLog 7 42 recorded.log))) replayInputs = some replayed →
        ¬ Reproduces recorded replayed) ∧
      (exec (step readBesideExit) (replayStart 8192 true (some (flushedLog 7 42 recorded.log)))
          [.act .calm, .act .calm]).map (fun replayed => replayed.history) =
        some [.mismatch, .returned 1 (.read 3 (some [0]) 1)
          ⟨-1, some Errno.EPROTO, some [0], none⟩] := by
  obtain ⟨recorded, reached, log⟩ := readBesideExit_recorded
  refine ⟨recorded, reached, readBesideExit_overlapped, ?_, ?_⟩
  · intro replayInputs replayed ran same
    obtain ⟨x, member, inside⟩ := readBesideExit_overlapped.seen reached
    exact noCall_of_exec ran same.matched x (same.insideCall member inside) inside
  · rw [log]
    decide +kernel

theorem readBesideExit_never_reproduced :
    ∃ recorded, exec (step readBesideExit) (recordStart 8192 5) readBesideExitRun =
        some recorded ∧
      ∃ replayed, exec (step readBesideExit) (replayStart 8192 true
          (some (flushedLog 7 42 recorded.log))) [.act .calm, .act .calm] = some replayed ∧
        ¬ Reproduces recorded replayed := by
  obtain ⟨recorded, reached, log⟩ := readBesideExit_recorded
  have ran : (exec (step readBesideExit) (replayStart 8192 true
      (some (flushedLog 7 42 recorded.log))) [.act .calm, .act .calm]).isSome = true := by
    rw [log]
    decide +kernel
  obtain ⟨replayed, ran⟩ := Option.isSome_iff_exists.mp ran
  exact ⟨recorded, reached, replayed, ran, overlapped_run_never_reproduced readBesideExit 8192 5
    readBesideExitRun recorded reached readBesideExit_overlapped 7 42 8192 true
    [.act .calm, .act .calm] replayed ran⟩

end State

end Librr
