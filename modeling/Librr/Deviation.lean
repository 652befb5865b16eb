import Librr.Frames
import Librr.History

set_option autoImplicit false

namespace Librr

open Transition

/-- Nothing returns to the application behind a mismatch. -/
def StopsAtMismatch (history : List Observation) : Prop :=
  history.Pairwise fun x y => x = .mismatch → ∀ id call result, y ≠ .returned id call result

theorem StopsAtMismatch.front {front history : List Observation} (prefixed : front <+: history)
    (stops : StopsAtMismatch history) : StopsAtMismatch front :=
  List.Pairwise.sublist prefixed.sublist stops

theorem stopsAtMismatch_of_matched {history : List Observation}
    (matched : .mismatch ∉ history) : StopsAtMismatch history :=
  List.pairwise_of_forall_mem_list fun _ member _ _ same => absurd (same ▸ member) matched

/-- Something is seen that is no return. -/
theorem StopsAtMismatch.snoc {history : List Observation} (stops : StopsAtMismatch history)
    {seen : Observation} (silent : ∀ id call result, seen ≠ .returned id call result) :
    StopsAtMismatch (history ++ [seen]) := by
  refine List.pairwise_append.mpr ⟨stops, List.pairwise_singleton _ _, ?_⟩
  intro x _ y last _
  rw [List.mem_singleton.mp last]
  exact silent

theorem not_stops_of_returned {history : List Observation} (missed : .mismatch ∈ history)
    (id : UInt64) (call : Call) (result : CallResult) :
    ¬ StopsAtMismatch (history ++ [.returned id call result]) := by
  intro stops
  obtain ⟨_, _, across⟩ := List.pairwise_append.mp stops
  exact across .mismatch missed _ (List.mem_singleton_self _) rfl id call result rfl

namespace State

/-- What the program does next. -/
def nextAction (program : Program) (s : State) : Option Action :=
  if s.config.runtimeReady then
    s.sched.running.map fun (_, u) => program u.startFn u.ctx.replies
  else some (program none s.host.replies)

/-- A wrapped function is called only while the runtime is ready and the next event of the
log is of this call. -/
def FindsItsEvent (program : Program) (s : State) (input : Input) : Prop :=
  ∀ answer call, input = .act answer → s.nextAction program = some (.call call) →
    s.config.runtimeReady = true ∧
      ∃ reader event, s.reader.rrReplayNextSyscall call.wrapper.nr s.sched.currentId =
        (reader, .ok event)

/-- The runtime did not start: the log does not begin as it should. -/
structure Unready (s : State) : Prop where
  unready : s.config.runtimeReady = false
  outside : s.sched.control ≠ .scheduler
  missed : .mismatch ∈ s.history

variable {program : Program} {s t : State} {input : Input}

/-- What a process does whose runtime is not ready. -/
theorem Unready.cases (inv : s.Unready) (taken : Librr.step program s input = some t) :
    (∃ answer call, input = .act answer ∧ s.nextAction program = some (.call call) ∧
      t.history = s.history ++ [.returned 0 call (call.wrapper.plain answer.real)] ∧
      t.config = s.config ∧ t.sched = s.sched) ∨
    ((∀ answer call, input = .act answer → s.nextAction program ≠ some (.call call)) ∧
      (t.history = s.history ∨ ∃ serial res, t.history = s.history ++ [.completed serial res]) ∧
      t.config = s.config ∧ (t.sched.control = s.sched.control ∨ t.sched.control = .exited)) := by
  cases input with
  | act answer =>
      simp only [Librr.step, act, inv.unready, Bool.false_eq_true, if_false,
        Option.ite_none_right_eq_some, Option.some.injEq] at taken
      obtain ⟨_, rfl⟩ := taken
      have next : s.nextAction program = some (program none s.host.replies) := by
        simp [nextAction, inv.unready]
      cases asked : program none s.host.replies with
      | call call =>
          rw [asked] at next
          exact .inl ⟨answer, call, rfl, next, rfl, rfl, rfl⟩
      | create fn => exact .inr ⟨fun _ _ _ => by simp [next, asked], .inl rfl, rfl, .inl rfl⟩
      | yield => exact .inr ⟨fun _ _ _ => by simp [next, asked], .inl rfl, rfl, .inl rfl⟩
      | join id out => exact .inr ⟨fun _ _ _ => by simp [next, asked], .inl rfl, rfl, .inl rfl⟩
      | exit value => exact .inr ⟨fun _ _ _ => by simp [next, asked], .inl rfl, rfl, .inr rfl⟩
      | ret => exact .inr ⟨fun _ _ _ => by simp [next, asked], .inl rfl, rfl, .inr rfl⟩
  | loop answer =>
      simp only [Librr.step, Option.ite_none_right_eq_some] at taken
      exact absurd taken.1 inv.outside
  | post index res data =>
      simp only [Librr.step, Option.ite_none_right_eq_some, Option.map_eq_some_iff] at taken
      obtain ⟨_, sqe, _, rfl⟩ := taken
      exact .inr ⟨fun _ _ acts => (by cases acts), .inr ⟨sqe.serial, res, rfl⟩, rfl, .inl rfl⟩

theorem Unready.step (inv : s.Unready) (taken : Librr.step program s input = some t) :
    t.Unready := by
  have missed : .mismatch ∈ t.history := (step_grows taken).subset inv.missed
  rcases inv.cases taken with ⟨answer, call, _, _, _, config, sched⟩ | ⟨_, _, config, control⟩
  · exact ⟨config ▸ inv.unready, sched ▸ inv.outside, missed⟩
  · refine ⟨config ▸ inv.unready, ?_, missed⟩
    rcases control with same | exited
    · rw [same]
      exact inv.outside
    · simp [exited]

/-- A replaying process either works on its log or never became ready. -/
theorem replay_of_exec {stackSize : Nat} {virtualTime : Bool} {file : Option Bytes}
    {inputs : List Input}
    (reached : exec (Librr.step program) (replayStart stackSize virtualTime file) inputs = some s) :
    s.Replaying ∨ s.Unready := by
  have kept : ∀ before input after, Librr.step program before input = some after →
      before.Replaying ∨ before.Unready → after.Replaying ∨ after.Unready := by
    rintro before input after taken (replaying | unready)
    · exact .inl (replaying.step taken).2
    · exact .inr (unready.step taken)
  have start : (replayStart stackSize virtualTime file).Replaying ∨
      (replayStart stackSize virtualTime file).Unready := by
    rcases replayStart_cases stackSize virtualTime file with
      ⟨unready, history, control⟩ | ⟨_, reader, _, _, same⟩
    · exact .inr ⟨unready, by simp [control], by simp [history]⟩
    · rw [same]
      exact .inl (fresh_replaying stackSize virtualTime reader)
  exact @exec_invariant _ _ _ (fun r : State => r.Replaying ∨ r.Unready) _ _ _ kept start reached

/-- A call that does not find its event returns behind a mismatch. -/
theorem findsItsEvent_of_stops (inv : s.Replaying ∨ s.Unready)
    (taken : Librr.step program s input = some t) (stops : StopsAtMismatch t.history) :
    s.FindsItsEvent program input := by
  intro answer call acts next
  rcases inv with replaying | unready
  · refine ⟨replaying.replays.ready, ?_⟩
    obtain ⟨kind, _⟩ := replaying.step taken
    subst acts
    have own : ∀ ut u, s.sched.running = some (ut, u) →
        program u.startFn u.ctx.replies = .call call := by
      intro ut u running
      rw [nextAction, if_pos replaying.replays.ready, running] at next
      exact Option.some.inj next
    cases kind with
    | perform _ ut u sched user running performed =>
        rw [own ut u running] at performed
        cases performed
    | answered _ ut u other reader event user running asked matched =>
        obtain rfl := Action.call.inj ((own ut u running).symm.trans asked)
        exact ⟨reader, event, matched⟩
    | refused _ ut u other reader errno user running asked missed =>
        exact absurd stops (not_stops_of_returned (by simp) _ _ _)
  · rcases unready.cases taken with ⟨_, other, _, _, history, _⟩ | ⟨apart, _⟩
    · rw [history] at stops
      exact absurd stops (not_stops_of_returned unready.missed _ _ _)
    · exact absurd next (apart answer call acts)

theorem switchTo_matched {popped : Sched} {next : Ptr} {u : Uthread}
    (resumes : u.ctx.frame.Resumes) (matched : .mismatch ∉ s.history) :
    .mismatch ∉ (s.switchTo popped next u).history := by
  have seen : .mismatch ∉ s.switchSeen next u.id := by
    unfold switchSeen
    split
    · simp
    · split <;> simp
  rcases s.switchTo_cases popped next resumes with
    ⟨_, same⟩ | ⟨_, same⟩ | ⟨_, _, _, _, same⟩ | ⟨call, serial, finish, _, _, _, same⟩
  · rw [same]
    simp [arrive, matched, seen]
  · rw [same]
    simp [arrive, matched, seen]
  · rw [same]
    simp [arrive, matched, seen]
  · rw [same, loggedReturn_history]
    simp [arrive, observe, matched, seen]

theorem Unready.stops (inv : s.Unready) (taken : Librr.step program s input = some t)
    (finds : s.FindsItsEvent program input) (stops : StopsAtMismatch s.history) :
    StopsAtMismatch t.history := by
  rcases inv.cases taken with ⟨answer, call, acts, next, _⟩ | ⟨_, same | ⟨_, _, posted⟩, _⟩
  · have ready := (finds answer call acts next).1
    rw [inv.unready] at ready
    cases ready
  · rw [same]
    exact stops
  · rw [posted]
    exact stops.snoc (by simp)

/-- Behind a mismatch nothing happens any more. -/
structure Halted (s : State) : Prop where
  replaying : s.Replaying
  stops : StopsAtMismatch s.history
  ended : .mismatch ∈ s.history → s.sched.control = .aborted

theorem halted_of_matched (replaying : s.Replaying) (matched : .mismatch ∉ s.history) :
    s.Halted :=
  ⟨replaying, stopsAtMismatch_of_matched matched, fun missed => absurd missed matched⟩

theorem Halted.step (inv : s.Halted) (taken : Librr.step program s input = some t)
    (finds : s.FindsItsEvent program input) : t.Halted := by
  obtain ⟨kind, replaying⟩ := inv.replaying.step taken
  -- A process that has missed something is aborted and takes no step.
  have matched : .mismatch ∉ s.history := by
    intro missed
    have aborted := inv.ended missed
    cases kind <;> simp_all
  cases kind with
  | perform answer ut u sched user running performed => exact halted_of_matched replaying matched
  | answered answer ut u call reader event user running next found =>
      exact halted_of_matched replaying (by simp [returnCall, matched])
  | refused answer ut u call reader errno user running next missed =>
      have asked : s.nextAction program = some (.call call) := by
        rw [nextAction, if_pos inv.replaying.replays.ready, running]
        exact congrArg some next
      obtain ⟨_, other, event, found⟩ := finds answer call rfl asked
      rw [missed] at found
      cases found
  | idle answer idle empty => exact inv
  | again answer next u idle head found runnable same =>
      exact halted_of_matched replaying
        (switchTo_matched (head_resumes inv.replaying.framed found runnable) matched)
  | switch answer next u reader idle head found runnable apart expected =>
      exact halted_of_matched replaying (switchTo_matched (s := { s with reader := reader })
        (head_resumes inv.replaying.framed found runnable) matched)
  | abort answer next u reader errno idle head found runnable apart unexpected =>
      exact ⟨replaying, (stopsAtMismatch_of_matched matched).snoc (by simp), fun _ => rfl⟩

/-- Replay stops at the first mismatch exactly if no wrapped function is called in vain:
a switch that is not in the log aborts the process, but a call that is not returns -1, and
where the log does not begin as it should every call is one of libc. -/
theorem deviation_stops_iff (program : Program) (stackSize : Nat) (virtualTime : Bool)
    (file : Option Bytes) (inputs : List Input) (s : State)
    (reached : exec (Librr.step program) (replayStart stackSize virtualTime file) inputs =
      some s) :
    StopsAtMismatch s.history ↔
      Along (Librr.step program) (fun before input _ => before.FindsItsEvent program input)
        (replayStart stackSize virtualTime file) inputs := by
  constructor
  · intro stops
    refine along_of_splits fun front input back before after split start taken => ?_
    subst split
    obtain ⟨middle, first, rest⟩ := exec_append.mp reached
    obtain ⟨next, again, later⟩ := exec_cons.mp rest
    obtain rfl : middle = before := Option.some.inj (first.symm.trans start)
    obtain rfl : next = after := Option.some.inj (again.symm.trans taken)
    exact findsItsEvent_of_stops (replay_of_exec start) taken (stops.front (exec_grows later))
  · intro finds
    have halts : ∀ before input after, Librr.step program before input = some after →
        before.FindsItsEvent program input → before.Halted → after.Halted :=
      fun _ _ _ taken finds inv => inv.step taken finds
    have stays : ∀ before input after, Librr.step program before input = some after →
        before.FindsItsEvent program input → before.Unready ∧ StopsAtMismatch before.history →
        after.Unready ∧ StopsAtMismatch after.history :=
      fun _ _ _ taken finds inv => ⟨inv.1.step taken, inv.1.stops taken finds inv.2⟩
    rcases replayStart_cases stackSize virtualTime file with
      ⟨unready, history, control⟩ | ⟨_, reader, _, _, same⟩
    · refine (finds.invariant stays ⟨⟨unready, ?_, ?_⟩, ?_⟩ reached).2
      · simp [control]
      · simp [history]
      · rw [history]
        exact List.pairwise_singleton _ _
    · rw [same] at finds reached
      exact (finds.invariant halts (halted_of_matched (fresh_replaying stackSize virtualTime reader)
        (by simp [fresh])) reached).stops

/-- The main thread creates a uthread and yields to it. -/
def createThenYield : Program
  | none, [] => .create (some 0)
  | none, [_] => .yield
  | none, _ => .ret
  | some _, _ => .exit 0

theorem createThenYield_calls_nothing (fn : Option Fn) (replies : List Reply) (call : Call) :
    createThenYield fn replies ≠ .call call := by
  unfold createThenYield
  split <;> simp

/-- The log ends where the first switch is due. -/
theorem missing_switch_stops :
    ∃ s, exec (Librr.step createThenYield) (replayStart 8192 true
        (some (flushedLog 7 42 [⟨1, 1, .sched 0 1⟩]))) [.act .calm, .act .calm, .loop .calm] =
        some s ∧
      .mismatch ∈ s.history ∧ s.sched.control = .aborted ∧ StopsAtMismatch s.history := by
  have ran : (exec (Librr.step createThenYield) (replayStart 8192 true
      (some (flushedLog 7 42 [⟨1, 1, .sched 0 1⟩]))) [.act .calm, .act .calm, .loop .calm]).map
      (fun s => (s.history, s.sched.control)) = some ([.mismatch], .aborted) := by decide +kernel
  obtain ⟨s, reached, facts⟩ := Option.map_eq_some_iff.mp ran
  obtain ⟨history, control⟩ := Prod.mk.inj facts
  refine ⟨s, reached, by simp [history], control, ?_⟩
  refine (deviation_stops_iff createThenYield 8192 true _ _ s reached).mpr ?_
  refine along_of_forall (fun before input after _ answer call _ next => ?_) _ _
  unfold nextAction at next
  split at next
  · obtain ⟨⟨ut, u⟩, _, same⟩ := Option.map_eq_some_iff.mp next
    exact absurd same (createThenYield_calls_nothing _ _ call)
  · exact absurd (Option.some.inj next) (createThenYield_calls_nothing _ _ call)

/-- The main thread asks for its user twice. -/
def getuidTwice : Program
  | none, [] => .call .getuid
  | none, [_] => .call .getuid
  | _, _ => .ret

/-- The first call finds the event of another one and fails; the second one returns the
value of the event behind it. -/
theorem wrong_syscall_goes_on :
    ∃ s, exec (Librr.step getuidTwice) (replayStart 8192 true (some (flushedLog 7 42
        [⟨1, 1, .sched 0 1⟩, ⟨2, 1, .syscall Nr.getpid 5 0 (.ofBytes []) 0⟩,
          ⟨3, 1, .syscall Nr.getuid 1000 0 (.ofBytes []) 0⟩]))) [.act .calm, .act .calm] =
        some s ∧
      s.history = [.mismatch, .returned 1 .getuid ⟨2 ^ 32 - 1, some Errno.EPROTO, none, none⟩,
        .returned 1 .getuid ⟨1000, none, none, none⟩] ∧
      ¬ StopsAtMismatch s.history := by
  have ran : (exec (Librr.step getuidTwice) (replayStart 8192 true (some (flushedLog 7 42
      [⟨1, 1, .sched 0 1⟩, ⟨2, 1, .syscall Nr.getpid 5 0 (.ofBytes []) 0⟩,
        ⟨3, 1, .syscall Nr.getuid 1000 0 (.ofBytes []) 0⟩]))) [.act .calm, .act .calm]).map
      (fun s => s.history) =
      some [.mismatch, .returned 1 .getuid ⟨2 ^ 32 - 1, some Errno.EPROTO, none, none⟩,
        .returned 1 .getuid ⟨1000, none, none, none⟩] := by decide +kernel
  obtain ⟨s, reached, history⟩ := Option.map_eq_some_iff.mp ran
  refine ⟨s, reached, history, ?_⟩
  rw [history]
  have missed : Observation.mismatch ∈
      [.mismatch, .returned 1 .getuid ⟨2 ^ 32 - 1, some Errno.EPROTO, none, none⟩] := by simp
  exact not_stops_of_returned missed 1 .getuid _

end State

end Librr
