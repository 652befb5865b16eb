import Librr.Deviation
import Librr.ImmediateReplay
import Librr.Lone
import Librr.RecordReplay
import Librr.RoundTrip

set_option autoImplicit false

namespace Librr

open Transition Reader

/-- The event is of a call of the main thread and gives it this result. -/
def Event.Serves (event : Event) (done : Call × CallResult) : Prop :=
  ∃ real given, checkSyscall done.1.wrapper.nr 1 event = .ok given ∧
    done.2 = done.1.wrapper.replay true real given

theorem Event.Serves.isSyscall {event : Event} {done : Call × CallResult}
    (serves : event.Serves done) : event.isSyscall = true := by
  obtain ⟨_, given, accepted, _⟩ := serves
  obtain ⟨seq, uthreadId, payload⟩ := event
  cases payload with
  | syscall nr retval arg0 data dataLen => rfl
  | signal signo activeUthread => cases accepted
  | sched fromId toId => cases accepted
  | other kind unknown => cases accepted

theorem Event.isSignal_of_isSyscall {event : Event} (syscall : event.isSyscall = true) :
    event.isSignal = false := by
  obtain ⟨seq, uthreadId, payload⟩ := event
  cases payload with
  | syscall nr retval arg0 data dataLen => rfl
  | signal signo activeUthread => cases syscall
  | sched fromId toId => cases syscall
  | other kind unknown => cases syscall

/-- A reader accepts the first of its events, and then the checks of the call. -/
theorem Reader.rrReplayNextSyscall_cons {event : Event} {rest : List Event} {seq : UInt64}
    (numbered : Consecutive seq (event :: rest)) (nr : Int32) (uthreadId : UInt64) :
    (before (event :: rest) seq).rrReplayNextSyscall nr uthreadId =
      (before rest (seq + 1), checkSyscall nr uthreadId event) := by
  obtain ⟨rfl, _⟩ := numbered
  have read := rrReplayNextEvent_before event rest
  have ready : (!(before (event :: rest) event.seq).headerOk ||
      !(before (event :: rest) event.seq).opened) = false := rfl
  rw [rrReplayNextSyscall, ready, if_neg Bool.false_ne_true, read]
  rfl

/-- The payload that a completed call has in the log. -/
def loggedPayload (done : Call × CallResult) : Payload := (done.1.logged done.2).payload

theorem checkSyscall_loggedPayload {event : Event} (done : Call × CallResult)
    (mine : event.uthreadId = 1) (logged : event.payload = loggedPayload done) :
    checkSyscall done.1.wrapper.nr 1 event = .ok ((done.1.logged done.2).event event.seq) := by
  obtain ⟨seq, uthreadId, payload⟩ := event
  obtain rfl : uthreadId = 1 := mine
  obtain rfl : payload = loggedPayload done := logged
  rw [done.1.number_eq]
  exact checkSyscall_logged (done.1.logged done.2) seq 1

/-- An event gives a call the result it was logged with just if the result fits into it. -/
theorem Event.serves_iff {event : Event} (done : Call × CallResult) (mine : event.uthreadId = 1)
    (logged : event.payload = loggedPayload done) :
    event.Serves done ↔ done.1.replayed done.2 = done.2 := by
  have accepted := checkSyscall_loggedPayload done mine logged
  constructor
  · rintro ⟨real, given, checked, result⟩
    obtain rfl := Except.ok.inj (accepted.symm.trans checked)
    rw [done.1.replay_logged] at result
    exact result.symm
  · intro same
    exact ⟨⟨0, 0, [], []⟩, _, accepted, by rw [done.1.replay_logged, same]⟩

/-- As many served events as there are calls: they are the events of the calls, and no other
call is logged. -/
theorem served_all {used ahead : List Event} {calls : List (Call × CallResult)}
    (served : List.Forall₂ Event.Serves used calls)
    (logged : ((used ++ ahead).filter Event.isSyscall).map Event.payload =
      calls.map loggedPayload) :
    used.map Event.payload = calls.map loggedPayload ∧ ahead.filter Event.isSyscall = [] := by
  have all : used.filter Event.isSyscall = used := by
    rw [List.filter_eq_self]
    intro event member
    obtain ⟨i, inside, rfl⟩ := List.getElem_of_mem member
    exact (served.get inside (served.length_eq ▸ inside)).isSyscall
  rw [List.filter_append, all, List.map_append] at logged
  have lengths := congrArg List.length logged
  simp only [List.length_append, List.length_map, served.length_eq] at lengths
  have none : ahead.filter Event.isSyscall = [] := List.eq_nil_of_length_eq_zero (by omega)
  rw [none, List.map_nil, List.append_nil] at logged
  exact ⟨logged, none⟩

theorem replayed_of_served {used : List Event} {calls : List (Call × CallResult)}
    (served : List.Forall₂ Event.Serves used calls) (mine : ∀ event ∈ used, event.uthreadId = 1)
    (logged : used.map Event.payload = calls.map loggedPayload) :
    ∀ done ∈ calls, done.1.replayed done.2 = done.2 := by
  induction served with
  | nil => exact fun _ member => absurd member List.not_mem_nil
  | @cons event done rest later serves _ ih =>
      obtain ⟨first, others⟩ := List.cons.inj logged
      intro other member
      rcases List.mem_cons.mp member with rfl | member
      · exact (Event.serves_iff _ (mine event List.mem_cons_self) first).mp serves
      · exact ih (fun event inside => mine event (List.mem_cons_of_mem _ inside)) others other
          member

theorem Sched.Lone.traceAt {program : Program} {s : Sched} {u : Uthread}
    (lone : s.Lone program u) : s.traceAt 0 = some u.ctx.trace := by
  obtain ⟨v, present, rfl⟩ := Sched.of_core_some lone.main
  rw [Sched.traceAt, present]
  rfl

/-- No call completes behind a signal. -/
def SignalsLast (log : List Event) : Prop :=
  log.Pairwise fun x y => x.isSignal = true → y.isSyscall = false

/-- Served events are no signals, and behind them there is no call. -/
theorem signalsLast_of_served {used ahead : List Event}
    (first : ∀ event ∈ used, event.isSignal = false)
    (none : ahead.filter Event.isSyscall = []) : SignalsLast (used ++ ahead) := by
  have behind : ∀ event ∈ ahead, event.isSyscall = false := by
    intro event member
    simpa using List.filter_eq_nil_iff.mp none event member
  refine List.pairwise_append.mpr ⟨?_, ?_, ?_⟩
  · exact List.pairwise_of_forall_mem_list fun x member _ _ signal => by
      rw [first x member] at signal
      cases signal
  · exact List.pairwise_of_forall_mem_list fun _ _ y member _ => behind y member
  · exact fun _ _ y member _ => behind y member

namespace State

/-- A replaying process with only a main thread `v`, which has taken its results from the
first of these events and has the others before it. -/
structure Reading (program : Program) (p : State) (v : Uthread) (used ahead : List Event) :
    Prop where
  replaying : p.Replaying
  virtual : p.config.replayTimeVirtual = true
  clear : p.NoCall
  matched : .mismatch ∉ p.history
  lone : p.sched.Lone program v
  reader : ∃ seq, p.reader = .before ahead seq ∧ Consecutive seq ahead
  served : List.Forall₂ Event.Serves used v.calls

section Steps

variable {program : Program} {p q : State} {v : Uthread} {used ahead : List Event}

/-- A reader at the end of its events gives none. -/
theorem rrReplayNextSyscall_nil (seq : UInt64) (nr : Int32) (uthreadId : UInt64) :
    ((before [] seq).rrReplayNextSyscall nr uthreadId).2 = .error Errno.ENODATA := rfl

/-- The main thread is switched to in replay, which it never is inside a call. -/
theorem Reading.switched (reading : p.Reading program v used ahead) {next : Ptr} {u : Uthread}
    (found : p.sched.runqPopFront.2.heap next = some u) (runnable : u.state = .runnable)
    (replaying : (p.switchTo p.sched.runqPopFront.2 next u).Replaying)
    (clear : (p.switchTo p.sched.runqPopFront.2 next u).NoCall)
    (matched : .mismatch ∉ (p.switchTo p.sched.runqPopFront.2 next u).history) :
    ∃ w, (p.switchTo p.sched.runqPopFront.2 next u).Reading program w used ahead ∧
      (u.ctx.frame = .yielding → w.ctx = u.ctx.finish .yield .yielded) ∧
      (p.switchTo p.sched.runqPopFront.2 next u).sched.control = .user := by
  obtain ⟨rfl, rfl⟩ := Lone.head reading.lone reading.replaying.queue found
  have dispatched := lone_dispatched reading.lone
  rcases p.switchTo_cases p.sched.runqPopFront.2 0
      (head_resumes reading.replaying.framed found runnable) with
    ⟨outside, same⟩ | ⟨frame, same⟩ | ⟨id, out, target, frame, same⟩ |
    ⟨call, serial, finish, frame, submits, half, same⟩
  · rw [same] at replaying clear matched ⊢
    refine ⟨_, ⟨replaying, reading.virtual, clear, matched, dispatched, reading.reader,
      reading.served⟩, fun yields => ?_, rfl⟩
    rw [outside] at yields
    cases yields
  · rw [same] at replaying clear matched ⊢
    have yields : program none u.core.ctx.replies = .yield :=
      reading.lone.inside .yield (by rw [show u.core.ctx.frame = .yielding from frame]; rfl)
    refine ⟨_, ⟨replaying, reading.virtual, clear, matched, dispatched.replied yields rfl,
      reading.reader, ?_⟩, fun _ => rfl, rfl⟩
    rw [Sched.calls_finish, show callOf (.yield, .yielded) = none from rfl, Option.toList_none,
      List.append_nil]
    exact reading.served
  · exact absurd frame (reading.lone.apart id out target)
  · have inside : p.sched.frameAt 0 = some (.io call serial) := by
      rw [Sched.frameAt, reading.lone.main, Option.map_some]
      exact congrArg some frame
    exact absurd inside (reading.clear.frames 0 call serial)

/-- Every step of the replaying process that misses nothing. -/
theorem Reading.step (reading : p.Reading program v used ahead) (single : CreatesNothing program)
    {input : Input} (taken : Librr.step program p input = some q)
    (matched : .mismatch ∉ q.history) :
    ∃ w used' ahead', used' ++ ahead' = used ++ ahead ∧ q.Reading program w used' ahead' := by
  obtain ⟨kind, replaying⟩ := reading.replaying.step taken
  have clear := NoCall.step reading.replaying reading.clear taken
  have named := reading.lone.currentId
  -- Both sides of a switch are the main thread.
  have unswitched : ∀ next u, p.sched.runqPopFront.2.heap next = some u →
      p.sched.currentId = u.id := by
    intro next u found
    obtain ⟨rfl, rfl⟩ := Lone.head reading.lone reading.replaying.queue found
    exact named.trans reading.lone.id.symm
  cases kind with
  | perform answer ut u sched user running performed =>
      obtain ⟨w, after, calls⟩ :=
        reading.lone.performed single reading.replaying.queue running performed
      exact ⟨w, used, ahead, rfl, replaying, reading.virtual, clear, matched, after,
        reading.reader, calls ▸ reading.served⟩
  | answered answer ut u call reader event user running next accepted =>
      obtain ⟨rfl, rfl⟩ := reading.lone.running running
      rw [show u.startFn = none from reading.lone.start] at next
      rw [named] at accepted
      obtain ⟨seq, place, numbered⟩ := reading.reader
      rw [place] at accepted
      cases ahead with
      | nil =>
          have ended := congrArg Prod.snd accepted
          rw [rrReplayNextSyscall_nil] at ended
          cases ended
      | cons first rest =>
          rw [rrReplayNextSyscall_cons numbered] at accepted
          obtain ⟨rfl, checked⟩ := Prod.mk.inj accepted
          refine ⟨_, used ++ [first], rest, by simp, replaying, reading.virtual, clear, matched,
            reading.lone.replied next ⟨_, rfl⟩, ⟨seq + 1, rfl, numbered.2⟩, ?_⟩
          rw [Sched.calls_finish]
          refine List.rel_append reading.served (.cons ⟨answer.real, event, checked, ?_⟩ .nil)
          rw [reading.virtual]
  | refused answer ut u call reader errno user running next missed =>
      exact absurd (by simp [returnCall, observe]) matched
  | idle answer idle empty => exact ⟨v, used, ahead, rfl, reading⟩
  | again answer next u idle head found runnable same =>
      obtain ⟨w, after, _⟩ := reading.switched found runnable replaying clear matched
      exact ⟨w, used, ahead, rfl, after⟩
  | switch answer next u reader idle head found runnable apart expected =>
      exact absurd (unswitched next u found) apart
  | abort answer next u reader errno idle head found runnable apart unexpected =>
      exact absurd (unswitched next u found) apart

theorem Reading.running (reading : p.Reading program v used ahead) :
    ∃ u, p.sched.running = some (0, u) ∧ u.core = v ∧ u.startFn = none := by
  obtain ⟨u, present, rfl⟩ := Sched.of_core_some reading.lone.main
  exact ⟨u, Sched.running_eq reading.lone.current present, rfl, reading.lone.start⟩

/-- A call whose event is next, and holds its result. -/
theorem Reading.serve {event : Event} (reading : p.Reading program v used (event :: ahead))
    (user : p.sched.control = .user) {call : Call} {result : CallResult}
    (next : program none v.ctx.replies = .call call) (mine : event.uthreadId = 1)
    (logged : event.payload = loggedPayload (call, result))
    (fits : call.replayed result = result) (choice : Answer × WaitAnswer) :
    ∃ q w, p.advance program choice = some q ∧ q.sched.control = .user ∧
      q.Reading program w (used ++ [event]) ahead ∧
      w.ctx = v.ctx.finish (.call call) (.returned result) := by
  obtain ⟨u, running, rfl, start⟩ := reading.running
  obtain ⟨seq, place, numbered⟩ := reading.reader
  have inactive : p.config.rrActive = false := by
    simp [Config.rrActive, reading.replaying.replays.modeRecord]
  have active : p.config.rrReplayActive = true := by
    simp [Config.rrReplayActive, reading.replaying.replays.modeReplay,
      reading.replaying.replays.ready]
  have accepted := checkSyscall_loggedPayload (call, result) mine logged
  have asked : program u.startFn u.ctx.replies = .call call := by
    rw [start]
    exact next
  have taken : p.advance program choice =
      some ({ p with reader := .before ahead (seq + 1) }.returnCall 0 call result) := by
    rw [advance_act reading.replaying user running, asked]
    simp only [perform, wrappedCall, inactive, active, Bool.false_eq_true, if_false, if_true,
      reading.lone.currentId, place, rrReplayNextSyscall_cons numbered, accepted, reading.virtual,
      call.replay_logged, fits]
  have moved := step_of_advance user taken
  refine ⟨_, _, taken, user, ⟨(reading.replaying.step moved).2, reading.virtual,
    NoCall.step reading.replaying reading.clear moved, ?_,
    reading.lone.replied next ⟨result, rfl⟩, ⟨seq + 1, rfl, numbered.2⟩, ?_⟩, rfl⟩
  · simp [returnCall, reading.matched]
  · rw [Sched.calls_finish]
    exact List.rel_append reading.served
      (.cons ((Event.serves_iff (call, result) mine logged).mpr fits) .nil)

/-- A join fails at once, as it did. -/
theorem Reading.join (reading : p.Reading program v used ahead) (user : p.sched.control = .user)
    {id : UInt64} {out : Bool} (next : program none v.ctx.replies = .join id out)
    (choice : Answer × WaitAnswer) :
    ∃ q w, p.advance program choice = some q ∧ q.sched.control = .user ∧
      q.Reading program w used ahead ∧ w.ctx = v.ctx.finish (.join id out) (lonelyJoin id) := by
  obtain ⟨u, running, rfl, start⟩ := reading.running
  have asked : program u.startFn u.ctx.replies = .join id out := by
    rw [start]
    exact next
  have taken : p.advance program choice =
      some { p with sched := p.sched.reply 0 (.join id out) (lonelyJoin id) } := by
    rw [advance_act reading.replaying user running, asked]
    simp only [perform, reading.lone.join_eq running]
  have moved := step_of_advance user taken
  refine ⟨_, _, taken, user, ⟨(reading.replaying.step moved).2, reading.virtual,
    NoCall.step reading.replaying reading.clear moved, reading.matched,
    reading.lone.replied next rfl, reading.reader, ?_⟩, rfl⟩
  rw [Sched.calls_finish, show callOf (.join id out, lonelyJoin id) = none from rfl,
    Option.toList_none, List.append_nil]
  exact reading.served

/-- The only uthread that is queued is the main thread. -/
theorem Reading.queued (reading : p.Reading program v used ahead)
    (runnable : v.state = .runnable) :
    ∃ u, p.sched.runqHead = some 0 ∧ p.sched.runqPopFront.2.heap 0 = some u ∧ u.core = v := by
  obtain ⟨items, shape, exact⟩ := reading.replaying.queue.runq
  have member : 0 ∈ items := by
    rw [exact, Sched.stateOf_core, reading.lone.main, Option.map_some, runnable]
  cases head : p.sched.runqHead with
  | none =>
      rw [shape.empty_iff.mp head] at member
      cases member
  | some next =>
      obtain ⟨w, known, _⟩ := reading.replaying.queue.next_eq head
      obtain ⟨u, found, rfl⟩ :=
        Sched.of_core_some (s := p.sched.runqPopFront.2) (Sched.runqPopFront_core p.sched ▸ known)
      obtain ⟨rfl, same⟩ := Lone.head reading.lone reading.replaying.queue found
      exact ⟨u, rfl, found, same⟩

/-- A yield comes back to the main thread. -/
theorem Reading.yield (reading : p.Reading program v used ahead) (user : p.sched.control = .user)
    (next : program none v.ctx.replies = .yield) (first second : Answer × WaitAnswer) :
    ∃ q w, exec (advance program) p [first, second] = some q ∧ q.sched.control = .user ∧
      q.Reading program w used ahead ∧ w.ctx = v.ctx.finish .yield .yielded := by
  obtain ⟨u, running, rfl, start⟩ := reading.running
  have asked : program u.startFn u.ctx.replies = .yield := by
    rw [start]
    exact next
  have taken : p.advance program first =
      some { p with sched := p.sched.rrSchedulerYieldCurrent } := by
    rw [advance_act reading.replaying user running, asked]
    rfl
  have on := reading.replaying.queue.on
  have core := Sched.rrSchedulerYieldCurrent_core reading.lone.current on
  have idle : p.sched.rrSchedulerYieldCurrent.control = .scheduler := by
    rw [Sched.rrSchedulerYieldCurrent_eq reading.lone.current on]
    rfl
  have performed : p.sched.Local 0 0 u first.1.create .yield p.sched.rrSchedulerYieldCurrent :=
    .yield
  have moved := step_of_advance user taken
  have left : { p with sched := p.sched.rrSchedulerYieldCurrent }.Reading program
      (Sched.suspend .runnable .yielding u.core) used ahead :=
    ⟨(reading.replaying.step moved).2, reading.virtual,
      NoCall.step reading.replaying reading.clear moved, reading.matched,
      reading.lone.suspended (Sched.yield_births _) performed.current core rfl next (by simp),
      reading.reader, reading.served⟩
  obtain ⟨u', head, found, same⟩ := left.queued rfl
  have ready : u'.state = .runnable := congrArg Uthread.state same
  have frame : u'.ctx.frame = .yielding := congrArg (fun record => record.ctx.frame) same
  have trace : u'.ctx.trace = u.ctx.trace := congrArg (fun record => record.ctx.trace) same
  have id : u'.id = 1 := (congrArg Uthread.id same).trans left.lone.id
  have looped : Librr.step program { p with sched := p.sched.rrSchedulerYieldCurrent }
      (.loop second.2) = some ({ p with sched := p.sched.rrSchedulerYieldCurrent }.switchTo
        p.sched.rrSchedulerYieldCurrent.runqPopFront.2 0 u') :=
    (replay_loop left.replaying idle head found ready second.2).1
      (left.lone.currentId.trans id.symm)
  obtain ⟨w, after, ctx, control⟩ := left.switched found ready (left.replaying.step looped).2
    (NoCall.step left.replaying left.clear looped)
    (switchTo_matched (head_resumes left.replaying.framed found ready) left.matched)
  refine ⟨_, w, exec_cons.mpr ⟨_, taken, exec_single ((advance_loop idle second).trans looped)⟩,
    control, after, (ctx frame).trans ?_⟩
  rw [Context.finish, Context.finish, trace]
  rfl

end Steps

/-- Replay begins in front of the whole log. -/
theorem reading_start (program : Program) {log events : List Event}
    (shape : log = ⟨1, 1, .sched 0 1⟩ :: events) (stamped : Stamped log) (startTime : UInt64)
    (pid : UInt32) (replayStack : Nat) :
    ∃ v, (replayStart replayStack true (some (flushedLog startTime pid log))).Reading program v []
        events ∧ v.ctx = .start ∧
      (replayStart replayStack true (some (flushedLog startTime pid log))).sched.control =
        .user := by
  subst shape
  have opened := rrReplayInit_flushed startTime pid (⟨1, 1, .sched 0 1⟩ :: events)
  have started := rrReplayExpectSched_before 1 0 1 events
  have reached : replayStart replayStack true
      (some (flushedLog startTime pid (⟨1, 1, .sched 0 1⟩ :: events))) =
      { fresh ⟨false, true, true, true, replayStack⟩ with reader := .before events (1 + 1) } := by
    simp only [replayStart, opened, started]
    rfl
  have numbered : Consecutive 1 (⟨1, 1, .sched 0 1⟩ :: events) :=
    consecutive_of_numbered fun i event found => by rw [stamped i event found, Nat.add_comm]
  obtain ⟨v, lone, none, fresh⟩ := afterInit_lone program
  rw [reached]
  exact ⟨v, ⟨fresh_replaying _ _ _, rfl, ⟨afterInit_frameAt, by simp [State.fresh]⟩,
    by simp [State.fresh], lone, ⟨1 + 1, rfl, numbered.2⟩, by rw [none]; exact .nil⟩, fresh, rfl⟩

/-- As long as replay misses nothing, it has taken the results from a front of the log. -/
theorem reading_of_exec {program : Program} (single : CreatesNothing program) {start p : State}
    {v : Uthread} {events : List Event} (reading : start.Reading program v [] events)
    {choices : List (Answer × WaitAnswer)}
    (reached : exec (advance program) start choices = some p) (matched : .mismatch ∉ p.history) :
    ∃ w used ahead, used ++ ahead = events ∧ p.Reading program w used ahead := by
  have kept : ∀ before choice after, advance program before choice = some after →
      (.mismatch ∈ before.history ∨ ∃ w used ahead, used ++ ahead = events ∧
        before.Reading program w used ahead) →
      .mismatch ∈ after.history ∨ ∃ w used ahead, used ++ ahead = events ∧
        after.Reading program w used ahead := by
    rintro before choice after taken (missed | ⟨w, used, ahead, whole, reading⟩)
    · exact .inl ((step_grows taken).subset missed)
    · by_cases missed : .mismatch ∈ after.history
      · exact .inl missed
      · obtain ⟨w', used', ahead', same, reading'⟩ := reading.step single taken missed
        exact .inr ⟨w', used', ahead', same.trans whole, reading'⟩
  have all := @exec_invariant _ _ _ (fun s : State => .mismatch ∈ s.history ∨
    ∃ w used ahead, used ++ ahead = events ∧ s.Reading program w used ahead) _ _ _ kept
    (.inr ⟨v, [], events, rfl, reading⟩) reached
  exact all.resolve_left matched

/-- The calls the main thread has finished, with their results. -/
def mainCalls (s : State) : List (Call × CallResult) :=
  ((s.sched.traceAt 0).getD []).filterMap callOf

/-- Replay goes without a mismatch to where the main thread has done what it did in the
recorded run, with the same results. -/
def ReplayedAlike (program : Program) (recorded : State) (startTime : UInt64) (pid : UInt32)
    (replayStack : Nat) (choices : Nat → Answer × WaitAnswer) : Prop :=
  ∃ n p, exec (advance program)
      (replayStart replayStack true (some (flushedLog startTime pid recorded.log)))
      ((List.range n).map choices) = some p ∧
    .mismatch ∉ p.history ∧ p.sched.traceAt 0 = recorded.sched.traceAt 0

section Runs

variable {program : Program} {stackSize : Nat} {signalFd : Int32} {inputs : List Input}
  {recorded : State} {startTime : UInt64} {pid : UInt32} {replayStack : Nat}
  {choices : Nat → Answer × WaitAnswer}

/-- Replay takes one event for each call, so no other event comes before that of a call. -/
theorem ReplayedAlike.served (single : CreatesNothing program)
    (reached : exec (step program) (recordStart stackSize signalFd) inputs = some recorded)
    (alike : ReplayedAlike program recorded startTime pid replayStack choices) :
    SignalsLast recorded.log ∧ ∀ done ∈ recorded.mainCalls, done.1.replayed done.2 = done.2 := by
  obtain ⟨u, events, lone, logged⟩ := lone_of_exec single reached
  obtain ⟨v, reading, _⟩ :=
    reading_start program logged.log logged.stamped startTime pid replayStack
  have whole := lone.traceAt
  obtain ⟨n, p, replayed, matched, same⟩ := alike
  obtain ⟨w, used, ahead, split, reading'⟩ := reading_of_exec single reading replayed matched
  rw [whole, reading'.lone.traceAt, Option.some.injEq] at same
  have calls : w.calls = u.calls := congrArg (List.filterMap callOf) same
  have served := reading'.served
  rw [calls] at served
  obtain ⟨payloads, rest⟩ := served_all served (by rw [split]; exact logged.calls)
  refine ⟨?_, fun done member => ?_⟩
  · have first : ∀ event ∈ ⟨1, 1, .sched 0 1⟩ :: used, event.isSignal = false := by
      intro event member
      rcases List.mem_cons.mp member with rfl | member
      · rfl
      · obtain ⟨i, inside, rfl⟩ := List.getElem_of_mem member
        exact Event.isSignal_of_isSyscall
          (served.get inside (served.length_eq ▸ inside)).isSyscall
    rw [logged.log, ← split]
    exact signalsLast_of_served first rest
  · rw [mainCalls, whole, Option.getD_some] at member
    refine replayed_of_served served (fun event member => logged.mine event ?_) payloads done
      member
    rw [← split]
    exact List.mem_append_left _ member

end Runs

end State

end Librr
