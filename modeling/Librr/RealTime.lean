import Librr.Levels

set_option autoImplicit false

namespace Librr

open Transition

/-- The calls that ask the real clock in real-time replay. -/
def Call.asksClock : Call → Bool
  | .clockGettime _ _ | .gettimeofday _ _ => true
  | _ => false

/-- What is left of a finished action without the time it was told. -/
def timeless : Action × Reply → Action × Reply
  | (.call call, .returned result) =>
    (.call call, .returned (if call.asksClock then ⟨0, none, none, none⟩ else result))
  | other => other

theorem timeless_plain : Plain timeless := by
  intro action reply other
  cases reply with
  | returned result => exact absurd rfl (other result)
  | created id => cases action <;> rfl
  | yielded => cases action <;> rfl
  | joined rc errno value => cases action <;> rfl

/-- The two ways to replay the time agree on every other call. -/
theorem Call.replay_timeless (call : Call) (mode other : Bool) (mine theirs : Real)
    (event : ReplayEvent) :
    timeless (.call call, .returned (call.wrapper.replay mode mine event)) =
      timeless (.call call, .returned (call.wrapper.replay other theirs event)) := by
  cases call <;> rfl

namespace State

/-- Two replays that differ in the time their uthreads were told. -/
structure Alongside (p q : State) : Prop where
  level : Sched.Level timeless p.sched q.sched
  reader : q.reader = p.reader
  matched : .mismatch ∈ q.history ↔ .mismatch ∈ p.history
  mine : p.Replaying ∧ p.NoCall
  theirs : q.Replaying ∧ q.NoCall

section Alongside

variable {program : Program} {p p' q : State} {choice other : Answer × WaitAnswer}

theorem Replaying.after (inv : p.Replaying) (clear : p.NoCall) {input : Input}
    (taken : Librr.step program p input = some p') : p'.Replaying ∧ p'.NoCall :=
  ⟨(inv.step taken).2, clear.step inv taken⟩

theorem Alongside.act (beside : Alongside p q) (succeeds : choice.1.create.Succeeds)
    (succeeds' : other.1.create.Succeeds) (mine : p.Indifferent program timeless)
    (theirs : q.Indifferent program timeless) (user : p.sched.control = .user)
    (taken : Librr.step program p (.act choice.1) = some p') :
    ∃ q', q.advance program other = some q' ∧ Alongside p' q' := by
  have user' := beside.level.control.trans user
  have inactive : q.config.rrActive = false := by
    simp [Config.rrActive, beside.theirs.1.replays.modeRecord]
  have active : q.config.rrReplayActive = true := by
    simp [Config.rrReplayActive, beside.theirs.1.replays.modeReplay,
      beside.theirs.1.replays.ready]
  have id' := beside.level.currentId
  cases (beside.mine.1.step taken).1 with
  | perform _ ut u sched _ running performed =>
      obtain ⟨v, running', same⟩ := beside.level.running running
      have next := mine.same theirs (Sched.of_running running).2 (Sched.of_running running').2 same
      obtain ⟨sched', performed', result⟩ :=
        perform_local running' other.1 (next ▸ performed.no_call)
      have moved : q.advance program other = _ := advance_act beside.theirs.1 user' running' other
      rw [result] at moved
      rw [next] at performed'
      refine ⟨_, moved, ?_, beside.reader, beside.matched,
        beside.mine.1.after beside.mine.2 taken, ?_⟩
      · exact beside.level.performed timeless_plain succeeds succeeds' running running'
          (level_parts same).1 performed performed'
      · exact beside.theirs.1.after beside.theirs.2 (step_of_advance user' moved)
  | answered _ ut u call reader event _ running next found =>
      obtain ⟨v, running', same⟩ := beside.level.running running
      have next' := (mine.same theirs (Sched.of_running running).2 (Sched.of_running running').2
        same).trans next
      rw [← beside.reader, ← id'] at found
      have result : q.perform ut v other.1 (.call call) =
          { q with reader := reader }.returnCall ut call
            (call.wrapper.replay q.config.replayTimeVirtual other.1.real event) := by
        simp only [State.perform, wrappedCall, inactive, active, Bool.false_eq_true, ↓reduceIte,
          found]
      have moved : q.advance program other = _ := advance_act beside.theirs.1 user' running' other
      rw [next', result] at moved
      refine ⟨_, moved, beside.level.reply (call.replay_timeless _ _ _ _ event), rfl, ?_,
        beside.mine.1.after beside.mine.2 taken,
        beside.theirs.1.after beside.theirs.2 (step_of_advance user' moved)⟩
      simp [returnCall, beside.matched]
  | refused _ ut u call reader errno _ running next missed =>
      obtain ⟨v, running', same⟩ := beside.level.running running
      have next' := (mine.same theirs (Sched.of_running running).2 (Sched.of_running running').2
        same).trans next
      rw [← beside.reader, ← id'] at missed
      have result : q.perform ut v other.1 (.call call) =
          ({ q with reader := reader }.observe [.mismatch]).returnCall ut call
            (call.wrapper.refused errno) := by
        simp only [State.perform, wrappedCall, inactive, active, Bool.false_eq_true, ↓reduceIte,
          missed]
      have moved : q.advance program other = _ := advance_act beside.theirs.1 user' running' other
      rw [next', result] at moved
      refine ⟨_, moved, beside.level.reply rfl, rfl, ?_,
        beside.mine.1.after beside.mine.2 taken,
        beside.theirs.1.after beside.theirs.2 (step_of_advance user' moved)⟩
      simp [returnCall, observe]

theorem switchSeen_matched (s : State) (next : Ptr) (toId : UInt64) :
    .mismatch ∉ s.switchSeen next toId := by
  intro member
  obtain ⟨_, _, _, wrong⟩ := mem_switchSeen member
  cases wrong

/-- A switch that both are allowed, from a state in which only the reader has moved on. -/
theorem Alongside.switch (beside : Alongside p q) {next : Ptr} {u : Uthread}
    (idle : p.sched.control = .scheduler)
    (found : p.sched.runqPopFront.2.heap next = some u) {v : Uthread}
    (same : v.erased timeless = u.erased timeless) (reader : Reader)
    (taken : Librr.step program p (.loop choice.2) =
      some ({ p with reader := reader }.switchTo p.sched.runqPopFront.2 next u))
    (taken' : Librr.step program q (.loop other.2) =
      some ({ q with reader := reader }.switchTo q.sched.runqPopFront.2 next v)) :
    ∃ q', q.advance program other = some q' ∧
      Alongside ({ p with reader := reader }.switchTo p.sched.runqPopFront.2 next u) q' := by
  have moved := (advance_loop (beside.level.control.trans idle) other).trans taken'
  have outside := beside.mine.2.outside found
  have frame := (level_parts same).2.2.2.1
  refine ⟨_, moved, ?_, ?_, ?_, beside.mine.1.after beside.mine.2 taken,
    beside.theirs.1.after beside.theirs.2 taken'⟩
  · rw [switchTo_outside _ _ _ outside, switchTo_outside _ _ _ (frame ▸ outside), frame]
    exact (beside.level.popFront.dispatch next).resumed timeless_plain next _
  · rw [switchTo_outside _ _ _ outside, switchTo_outside _ _ _ (frame ▸ outside)]
  · rw [switchTo_outside _ _ _ outside, switchTo_outside _ _ _ (frame ▸ outside)]
    simp only [List.mem_append, switchSeen_matched, or_false]
    exact beside.matched

/-- A switch that the log does not hold. -/
theorem replay_aborts (inv : q.Replaying) (idle : q.sched.control = .scheduler) {next : Ptr}
    {v : Uthread} (head : q.sched.runqHead = some next)
    (found : q.sched.runqPopFront.2.heap next = some v) (runnable : v.state = .runnable)
    (apart : q.sched.currentId ≠ v.id) {reader : Reader} {errno : Int32}
    (unexpected : q.reader.rrReplayExpectSched q.sched.currentId v.id = (reader, .error errno))
    (answer : WaitAnswer) :
    Librr.step program q (.loop answer) =
      some ({ q with reader := reader, sched := { q.sched with control := .aborted } }.observe
        [.mismatch]) := by
  have popped : q.sched.runqPopFront = (some next, q.sched.runqPopFront.2) :=
    Prod.ext (Sched.runqPopFront_links head).1 rfl
  have active : q.config.rrReplayActive = true := by
    simp [Config.rrReplayActive, inv.replays.modeReplay, inv.replays.ready]
  rw [Librr.step, if_pos idle, schedulerLoop, popped]
  simp [found, runnable, apart, active, unexpected]

theorem Alongside.loop (beside : Alongside p q) (idle : p.sched.control = .scheduler)
    (taken : Librr.step program p (.loop choice.2) = some p') :
    ∃ q', q.advance program other = some q' ∧ Alongside p' q' := by
  have idle' := beside.level.control.trans idle
  have arrive : q.advance program other = Librr.step program q (.loop other.2) :=
    advance_loop idle' other
  have here := beside.level.currentId
  cases (beside.mine.1.step taken).1 with
  | idle _ _ empty =>
      have empty' := beside.level.runqHead.trans empty
      refine ⟨q, arrive.trans ?_, beside⟩
      simp [Librr.step, idle', schedulerLoop, Sched.runqPopFront, empty', rrIoWait,
        beside.theirs.1.replays.ring]
  | again _ next u _ head found runnable same =>
      have head' := beside.level.runqHead.trans head
      obtain ⟨v, found', alike⟩ := beside.level.popFront.found found
      obtain ⟨_, number, state, _, _⟩ := level_parts alike
      have unread : { q with reader := p.reader } = q := by rw [← beside.reader]
      refine beside.switch idle found alike p.reader taken ?_
      rw [unread]
      exact (replay_loop beside.theirs.1 idle' head' found' (state.trans runnable) other.2).1
        (by rw [here, number, same])
  | switch _ next u reader _ head found runnable apart expected =>
      have head' := beside.level.runqHead.trans head
      obtain ⟨v, found', alike⟩ := beside.level.popFront.found found
      obtain ⟨_, number, state, _, _⟩ := level_parts alike
      rw [← beside.reader, ← here, ← number] at expected
      rw [← here, ← number] at apart
      refine beside.switch idle found alike reader taken ?_
      exact (replay_loop beside.theirs.1 idle' head' found' (state.trans runnable) other.2).2
        reader apart expected
  | abort _ next u reader errno _ head found runnable apart unexpected =>
      have head' := beside.level.runqHead.trans head
      obtain ⟨v, found', alike⟩ := beside.level.popFront.found found
      obtain ⟨_, number, state, _, _⟩ := level_parts alike
      rw [← beside.reader, ← here, ← number] at unexpected
      rw [← here, ← number] at apart
      have moved : Librr.step program q (.loop other.2) = _ := replay_aborts beside.theirs.1 idle'
        head' found' (state.trans runnable) apart unexpected other.2
      refine ⟨_, arrive.trans moved, ?_, rfl, ?_, beside.mine.1.after beside.mine.2 taken,
        beside.theirs.1.after beside.theirs.2 moved⟩
      · have both : p.sched.erased timeless = q.sched.erased timeless := beside.level
        exact congrArg (fun s : Sched => { s with control := .aborted }) both
      · simp [observe]

theorem Alongside.advance (beside : Alongside p q) (succeeds : choice.1.create.Succeeds)
    (succeeds' : other.1.create.Succeeds) (mine : p.Indifferent program timeless)
    (theirs : q.Indifferent program timeless) (taken : p.advance program choice = some p') :
    ∃ q', q.advance program other = some q' ∧ Alongside p' q' := by
  cases control : p.sched.control with
  | user =>
      exact beside.act succeeds succeeds' mine theirs control (step_of_advance control taken)
  | scheduler =>
      rw [advance_loop control] at taken
      exact beside.loop control taken
  | exited => simp [State.advance, Librr.step, control] at taken
  | aborted => simp [State.advance, Librr.step, control] at taken

end Alongside

/-- The two replays seen from outside. -/
structure SameCourse (program : Program) (p q : State) : Prop where
  current : q.sched.current = p.sched.current
  queue : q.sched.links = p.sched.links
  next : ∀ ut, q.sched.nextAction program ut = p.sched.nextAction program ut
  finished : ∀ ut, (q.sched.traceAt ut).map (List.map timeless) =
    (p.sched.traceAt ut).map (List.map timeless)
  reader : q.reader = p.reader
  matched : .mismatch ∈ q.history ↔ .mismatch ∈ p.history

theorem Alongside.course {program : Program} {p q : State} (beside : Alongside p q)
    (mine : p.Indifferent program timeless) (theirs : q.Indifferent program timeless) :
    SameCourse program p q :=
  ⟨beside.level.current, beside.level.links, mine.next theirs beside.level, beside.level.traces,
    beside.reader, beside.matched⟩

theorem replayStart_alongside {stackSize : Nat} {virtualTime : Bool} {file : Option Bytes}
    (ready : (replayStart stackSize virtualTime file).config.runtimeReady = true)
    (otherStack : Nat) (otherTime : Bool) :
    Alongside (replayStart stackSize virtualTime file) (replayStart otherStack otherTime file) := by
  have clear : ∀ size time reader,
      NoCall { fresh ⟨false, true, time, true, size⟩ with reader := reader } := by
    intro size time reader
    exact ⟨afterInit_frameAt, by simp [fresh]⟩
  rcases replayStart_cases stackSize virtualTime file with
    ⟨unready, _⟩ | ⟨reader, started, opened, expected, equal⟩
  · rw [unready] at ready
    cases ready
  · have other : replayStart otherStack otherTime file =
        { fresh ⟨false, true, otherTime, true, otherStack⟩ with reader := started } := by
      simp only [replayStart, opened, expected, markRuntimeReady, fresh]
    rw [equal, other]
    exact ⟨rfl, rfl, Iff.rfl, ⟨fresh_replaying _ _ _, clear _ _ _⟩,
      ⟨fresh_replaying _ _ _, clear _ _ _⟩⟩

/-- Replay takes the same course in virtual and in real time, from any log and whatever the
clock and the world show meanwhile, as long as creations succeed and no uthread goes by what the
time functions tell it: also where it stops at a mismatch. -/
theorem time_mode_keeps_course (program : Program) (stackSize otherStack : Nat)
    (virtualTime otherTime : Bool) (file : Option Bytes)
    (ready : (replayStart stackSize virtualTime file).config.runtimeReady = true)
    (choices others : Nat → Answer × WaitAnswer)
    (created : ∀ n, (choices n).1.create.Succeeds) (created' : ∀ n, (others n).1.create.Succeeds)
    (indifferent : ∀ n s, exec (advance program) (replayStart stackSize virtualTime file)
      ((List.range n).map choices) = some s → s.Indifferent program timeless)
    (indifferent' : ∀ n s, exec (advance program) (replayStart otherStack otherTime file)
      ((List.range n).map others) = some s → s.Indifferent program timeless)
    (n : Nat) (p : State)
    (reached : exec (advance program) (replayStart stackSize virtualTime file)
      ((List.range n).map choices) = some p) :
    ∃ q, exec (advance program) (replayStart otherStack otherTime file)
        ((List.range n).map others) = some q ∧ SameCourse program p q := by
  have runs : ∀ n p, exec (advance program) (replayStart stackSize virtualTime file)
        ((List.range n).map choices) = some p →
      ∃ q, exec (advance program) (replayStart otherStack otherTime file)
        ((List.range n).map others) = some q ∧ Alongside p q := by
    intro n
    induction n with
    | zero =>
        intro p reached
        cases reached
        exact ⟨_, rfl, replayStart_alongside ready otherStack otherTime⟩
    | succ n ih =>
        intro p' reached
        rw [List.range_succ, List.map_append] at reached ⊢
        obtain ⟨p, before, last⟩ := exec_append.mp reached
        obtain ⟨next, taken, done⟩ := exec_cons.mp last
        cases done
        obtain ⟨q, there, beside⟩ := ih p before
        obtain ⟨q', moved, after⟩ := beside.advance (created n) (created' n)
          (indifferent n p before) (indifferent' n q there) taken
        exact ⟨q', exec_append.mpr ⟨q, there, exec_single moved⟩, after⟩
  obtain ⟨q, there, beside⟩ := runs n p reached
  exact ⟨q, there, beside.course (indifferent n p reached) (indifferent' n q there)⟩

/-- A program that asks for the time and for its number, and goes by neither. -/
def timeThenPid : Program
  | none, [] => .call (.clockGettime 0 (List.replicate 16 0))
  | none, [_] => .call .getpid
  | none, _ => .ret
  | some _, _ => .exit 0

def timeThenPidLog : Bytes :=
  flushedLog 0 7 [⟨1, 1, .sched 0 1⟩,
    ⟨2, 1, .syscall Nr.clockGettime 0 0 (.ofBytes (List.replicate 16 7)) 16⟩,
    ⟨3, 1, .syscall Nr.getpid 42 0 (.ofBytes []) 0⟩]

theorem timeThenPid_indifferent (s : State) : s.Indifferent timeThenPid timeless := by
  intro ut u _
  cases u.startFn with
  | some fn => rfl
  | none =>
      rw [Context.viewed, Context.replies]
      rcases u.ctx.trace with _ | ⟨_, _ | ⟨_, rest⟩⟩ <;> rfl

theorem timeThenPid_runs :
    ∃ p, exec (advance timeThenPid) (replayStart 8192 true (some timeThenPidLog))
        ((List.range 3).map fun _ => (.calm, .calm)) = some p ∧
      p.sched.traceAt 0 = some [(.call (.clockGettime 0 (List.replicate 16 0)),
          .returned ⟨0, none, some (List.replicate 16 7), none⟩),
        (.call .getpid, .returned ⟨42, none, none, none⟩)] := by
  have ran : (exec (advance timeThenPid) (replayStart 8192 true (some timeThenPidLog))
      ((List.range 3).map fun _ => (.calm, .calm))).map (fun p => p.sched.traceAt 0) =
      some (some [(.call (.clockGettime 0 (List.replicate 16 0)),
          .returned ⟨0, none, some (List.replicate 16 7), none⟩),
        (.call .getpid, .returned ⟨42, none, none, none⟩)]) := by
    decide +kernel
  exact Option.map_eq_some_iff.mp ran

/-- The recorded time against one that the clock shows now. -/
theorem timeThenPid_same_course :
    ∃ p, exec (advance timeThenPid) (replayStart 8192 true (some timeThenPidLog))
        ((List.range 3).map fun _ => (.calm, .calm)) = some p ∧
      p.sched.traceAt 0 = some [(.call (.clockGettime 0 (List.replicate 16 0)),
          .returned ⟨0, none, some (List.replicate 16 7), none⟩),
        (.call .getpid, .returned ⟨42, none, none, none⟩)] ∧
      ∃ q, exec (advance timeThenPid) (replayStart 8192 false (some timeThenPidLog))
          ((List.range 3).map fun _ =>
            ({ Answer.calm with real := ⟨0, 0, List.replicate 16 9, []⟩ }, .calm)) = some q ∧
        SameCourse timeThenPid p q := by
  obtain ⟨p, reached, told⟩ := timeThenPid_runs
  have ready : (replayStart 8192 true (some timeThenPidLog)).config.runtimeReady = true := by
    decide +kernel
  refine ⟨p, reached, told, ?_⟩
  exact time_mode_keeps_course timeThenPid 8192 8192 true false (some timeThenPidLog) ready _ _
    (fun _ => (by decide : Answer.calm.create.Succeeds))
    (fun _ => (by decide : Answer.calm.create.Succeeds)) (fun _ s _ => timeThenPid_indifferent s)
    (fun _ s _ => timeThenPid_indifferent s) 3 p reached

end State

end Librr
