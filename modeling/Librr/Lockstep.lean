import Librr.Logging
import Librr.Numbering
import Librr.Overlap
import Librr.ReplayFacts

set_option autoImplicit false

namespace Librr

open Transition IntrusiveQueue

/-- The replies a uthread has received, as `view` shows them. -/
def Context.viewed (ctx : Context) (view : Action × Reply → Action × Reply) : List Reply :=
  (ctx.trace.map view).map Prod.snd

namespace Sched

/-- The scheduler of a recording process seen through `view` is that of a replaying
one, up to what erasure hides. -/
def Alike (view : Action × Reply → Action × Reply) (s t : Sched) : Prop :=
  s.erased view = t.erased id

section Alike

variable {view : Action × Reply → Action × Reply} {s t : Sched}

theorem Alike.control (alike : Alike view s t) : t.control = s.control :=
  (congrArg Sched.control alike).symm

theorem Alike.current (alike : Alike view s t) : t.current = s.current :=
  (congrArg Sched.current alike).symm

theorem Alike.runqHead (alike : Alike view s t) : t.runqHead = s.runqHead :=
  (congrArg Sched.runqHead alike).symm

theorem Alike.currentId (alike : Alike view s t) : t.currentId = s.currentId := by
  rw [← erased_currentId view s, ← erased_currentId id t, alike]

theorem Alike.heap (alike : Alike view s t) (ut : Ptr) :
    (t.heap ut).map (Uthread.erased id) = (s.heap ut).map (Uthread.erased view) :=
  (congrFun (congrArg Sched.heap alike) ut).symm

theorem Alike.found (alike : Alike view s t) {ut : Ptr} {u : Uthread}
    (found : s.heap ut = some u) : ∃ v, t.heap ut = some v ∧ v.erased id = u.erased view := by
  have both := alike.heap ut
  rw [found] at both
  exact Option.map_eq_some_iff.mp both

theorem Alike.running (alike : Alike view s t) {ut : Ptr} {u : Uthread}
    (running : s.running = some (ut, u)) :
    ∃ v, t.running = some (ut, v) ∧ v.erased id = u.erased view := by
  obtain ⟨current, present⟩ := of_running running
  obtain ⟨v, found, same⟩ := alike.found present
  exact ⟨v, running_eq (alike.current.trans current) found, same⟩

theorem Alike.links (alike : Alike view s t) : t.links = s.links := by
  have head := alike.runqHead
  have tail : t.runqTail = s.runqTail := (congrArg Sched.runqTail alike).symm
  simp only [Sched.links, head, tail, Links.mk.injEq, true_and]
  funext ut
  have both := alike.heap ut
  cases here : s.heap ut with
  | none =>
      rw [here] at both
      rw [Option.map_eq_none_iff.mp both]
  | some u =>
      obtain ⟨v, found, same⟩ := alike.found here
      have link : (v.erased id).next = (u.erased view).next := by rw [same]
      rw [found]
      exact link

theorem Alike.frameAt (alike : Alike view s t) (ut : Ptr) : t.frameAt ut = s.frameAt ut := by
  have both := congrArg (Option.map fun u : Uthread => u.ctx.frame) (alike.heap ut)
  simp only [Option.map_map] at both
  simp only [Sched.frameAt, core, Option.map_map]
  exact both

theorem Alike.popFront (alike : Alike view s t) :
    Alike view s.runqPopFront.2 t.runqPopFront.2 := by
  have both := erased_popFront view s
  have other := erased_popFront id t
  rw [show s.erased view = t.erased id from alike] at both
  exact congrArg Prod.snd (both.symm.trans other)

theorem Alike.dispatch (alike : Alike view s t) (next : Ptr) :
    Alike view (s.dispatch next) (t.dispatch next) := by
  rw [Alike, erased_dispatch, erased_dispatch, show s.erased view = t.erased id from alike]

theorem plain_id : Plain id := fun _ _ _ => rfl

theorem Alike.resumed (alike : Alike view s t) (plain : Plain view) (next : Ptr) (frame : Frame) :
    Alike view (s.resumed next frame) (t.resumed next frame) := by
  rw [Alike, erased_resumed plain, erased_resumed plain_id,
    show s.erased view = t.erased id from alike]

/-- A reply that `view` shows as the one of the other run. -/
theorem Alike.reply (alike : Alike view s t) {ut : Ptr} {action : Action} {reply other : Reply}
    (seen : view (action, reply) = (action, other)) :
    Alike view (s.reply ut action reply) (t.reply ut action other) := by
  rw [Alike, erased_reply, erased_reply, seen, show s.erased view = t.erased id from alike]
  rfl

theorem Alike.performed (alike : Alike view s t) (plain : Plain view) {stackSize size : Nat}
    {ut : Ptr} {u v : Uthread} {answer other : CreateAnswer} {action : Action} {s' t' : Sched}
    (succeeds : answer.Succeeds) (succeeds' : other.Succeeds) (running : s.running = some (ut, u))
    (running' : t.running = some (ut, v)) (start : v.startFn = u.startFn)
    (performed : s.Local stackSize ut u answer action s')
    (performed' : t.Local size ut v other action t') : Alike view s' t' := by
  rw [Alike, performed.erased plain succeeds running, performed'.erased plain_id succeeds' running',
    start, show s.erased view = t.erased id from alike]

end Alike

end Sched

/-- A record of the replaying process against the one of the recording process. -/
theorem erased_parts {view : Action × Reply → Action × Reply} {u v : Uthread}
    (same : v.erased id = u.erased view) :
    v.startFn = u.startFn ∧ v.id = u.id ∧ v.state = u.state ∧ v.ctx.frame = u.ctx.frame ∧
      v.ctx.trace = u.ctx.trace.map view ∧ v.ctx.replies = u.ctx.viewed view := by
  have trace : v.ctx.trace = u.ctx.trace.map view := by
    have both := congrArg (fun w => w.ctx.trace) same
    simpa [Uthread.erased] using both
  have start : (v.erased id).startFn = (u.erased view).startFn := by rw [same]
  have number : (v.erased id).id = (u.erased view).id := by rw [same]
  have state : (v.erased id).state = (u.erased view).state := by rw [same]
  have frame : (v.erased id).ctx.frame = (u.erased view).ctx.frame := by rw [same]
  refine ⟨start, number, state, frame, trace, ?_⟩
  rw [Context.replies, trace]
  rfl

namespace State

/-- The next step of a replaying process, whose input is only what the world answers:
the context that runs decides between an action and an iteration of the loop. -/
def advance (program : Program) (s : State) (choice : Answer × WaitAnswer) : Option State :=
  step program s (if s.sched.control = .user then .act choice.1 else .loop choice.2)

theorem advance_act {program : Program} {p : State} (replaying : p.Replaying)
    (user : p.sched.control = .user) {ut : Ptr} {v : Uthread}
    (running : p.sched.running = some (ut, v)) (choice : Answer × WaitAnswer) :
    p.advance program choice =
      some (p.perform ut v choice.1 (program v.startFn v.ctx.replies)) := by
  simp [advance, step, user, act, replaying.replays.ready, running]

theorem step_of_advance {program : Program} {p p' : State} {choice : Answer × WaitAnswer}
    (user : p.sched.control = .user) (taken : p.advance program choice = some p') :
    step program p (.act choice.1) = some p' := by
  simpa [advance, user] using taken

theorem advance_loop {program : Program} {p : State} (idle : p.sched.control = .scheduler)
    (choice : Answer × WaitAnswer) :
    p.advance program choice = step program p (.loop choice.2) := by
  simp [advance, idle]

/-- A replaying process in front of a queued uthread. -/
theorem replay_loop {program : Program} {p : State} (replaying : p.Replaying)
    (idle : p.sched.control = .scheduler) {next : Ptr} (head : p.sched.runqHead = some next)
    {v : Uthread} (found : p.sched.runqPopFront.2.heap next = some v)
    (runnable : v.state = .runnable) (answer : WaitAnswer) :
    (p.sched.currentId = v.id → step program p (.loop answer) =
      some (p.switchTo p.sched.runqPopFront.2 next v)) ∧
    (∀ reader, p.sched.currentId ≠ v.id →
      p.reader.rrReplayExpectSched p.sched.currentId v.id = (reader, .ok ()) →
      step program p (.loop answer) =
        some ({ p with reader := reader }.switchTo p.sched.runqPopFront.2 next v)) := by
  have popped : p.sched.runqPopFront = (some next, p.sched.runqPopFront.2) :=
    Prod.ext (Sched.runqPopFront_links head).1 rfl
  have active : p.config.rrReplayActive = true := by
    simp [Config.rrReplayActive, replaying.replays.modeReplay, replaying.replays.ready]
  refine ⟨?_, ?_⟩
  · intro same
    simp only [step, idle, ↓reduceIte, schedulerLoop]
    rw [popped]
    simp [found, runnable, same]
  · intro reader apart expected
    simp only [step, idle, ↓reduceIte, schedulerLoop]
    rw [popped]
    simp [found, runnable, apart, active, expected]

/-- A replaying process against the scheduler `s` of a recording one that has logged
`logged`, up to the number `seq`, of what will be `log` in the end. -/
structure Aligned (view : Action × Reply → Action × Reply) (log : List Event) (s : Sched)
    (logged : List Event) (seq : UInt64) (p : State) : Prop where
  alike : Sched.Alike view s p.sched
  cursor : ∃ rest, log = logged ++ rest ∧ p.reader = .before rest (seq + 1)
  replaying : p.Replaying
  virtual : p.config.replayTimeVirtual = true
  clear : p.NoCall
  matched : .mismatch ∉ p.history

section Aligned

variable {program : Program} {view : Action × Reply → Action × Reply} {log logged : List Event}
  {s : Sched} {seq : UInt64} {p : State} (choice : Answer × WaitAnswer)

theorem Aligned.perform (aligned : Aligned view log s logged seq p) (plain : Plain view)
    (succeeds : choice.1.create.Succeeds) (user : s.control = .user) {ut : Ptr} {u : Uthread}
    (running : s.running = some (ut, u))
    (same : program u.startFn (u.ctx.viewed view) = program u.startFn u.ctx.replies)
    {stackSize : Nat} {answer : CreateAnswer} (created : answer.Succeeds) {t : Sched}
    (performed : s.Local stackSize ut u answer (program u.startFn u.ctx.replies) t) :
    ∃ p', p.advance program choice = some p' ∧ Aligned view log t logged seq p' := by
  obtain ⟨v, running', erased⟩ := aligned.alike.running running
  obtain ⟨start, _, _, _, _, replies⟩ := erased_parts erased
  have next : program v.startFn v.ctx.replies = program u.startFn u.ctx.replies := by
    rw [start, replies, same]
  have apart : ∀ call, program u.startFn u.ctx.replies ≠ .call call := by
    intro call isCall
    rw [isCall] at performed
    cases performed
  obtain ⟨sched, performed', result⟩ := perform_local running' choice.1 (next ▸ apart)
  have user' := aligned.alike.control.trans user
  have taken : p.advance program choice = _ :=
    advance_act aligned.replaying user' running' choice
  rw [result] at taken
  refine ⟨_, taken, ?_⟩
  have stepped := step_of_advance user' taken
  rw [next] at performed'
  exact ⟨aligned.alike.performed plain created succeeds running running' start performed performed',
    aligned.cursor, (aligned.replaying.step stepped).2, aligned.virtual,
    aligned.clear.step aligned.replaying stepped, aligned.matched⟩

/-- A wrapped call is answered from its own event. -/
theorem Aligned.call (aligned : Aligned view log s logged seq p) (user : s.control = .user)
    {ut : Ptr} {u : Uthread} (running : s.running = some (ut, u)) {call : Call}
    (next : program u.startFn (u.ctx.viewed view) = .call call) {result : CallResult}
    (seen : view (.call call, .returned result) = (.call call, .returned (call.replayed result)))
    (front : logged ++ [⟨seq + 1, s.currentId, (call.logged result).payload⟩] <+: log) :
    ∃ p', p.advance program choice = some p' ∧
      Aligned view log (s.reply ut (.call call) (.returned result))
        (logged ++ [⟨seq + 1, s.currentId, (call.logged result).payload⟩]) (seq + 1) p' := by
  obtain ⟨v, running', erased⟩ := aligned.alike.running running
  obtain ⟨start, _, _, _, _, replies⟩ := erased_parts erased
  have user' := aligned.alike.control.trans user
  have next' : program v.startFn v.ctx.replies = .call call := by rw [start, replies, next]
  obtain ⟨rest, whole, reader⟩ := aligned.cursor
  obtain ⟨after, grown⟩ := front
  have ahead : rest = ⟨seq + 1, s.currentId, (call.logged result).payload⟩ :: after := by
    rw [whole, List.append_assoc] at grown
    exact (List.append_cancel_left grown).symm
  have matched : p.reader.rrReplayNextSyscall call.wrapper.nr p.sched.currentId =
      (.before after (seq + 1 + 1), .ok ((call.logged result).event (seq + 1))) := by
    rw [reader, ahead, aligned.alike.currentId, call.number_eq]
    exact Reader.rrReplayNextSyscall_before (call.logged result) _ _ _
  have inactive : p.config.rrActive = false := by
    simp [Config.rrActive, aligned.replaying.replays.modeRecord]
  have active : p.config.rrReplayActive = true := by
    simp [Config.rrReplayActive, aligned.replaying.replays.modeReplay,
      aligned.replaying.replays.ready]
  have answered : p.perform ut v choice.1 (.call call) =
      { p with reader := .before after (seq + 1 + 1) }.returnCall ut call
        (call.replayed result) := by
    simp only [State.perform, wrappedCall, inactive, active, Bool.false_eq_true, ↓reduceIte,
      matched, aligned.virtual, call.replay_logged]
  have taken : p.advance program choice = _ :=
    advance_act aligned.replaying user' running' choice
  rw [next', answered] at taken
  have stepped := step_of_advance user' taken
  refine ⟨_, taken, aligned.alike.reply seen, ⟨after, ?_, rfl⟩, (aligned.replaying.step stepped).2,
    aligned.virtual, aligned.clear.step aligned.replaying stepped, ?_⟩
  · rw [whole, ahead]
    simp
  · simpa [returnCall] using aligned.matched

/-- Where the two stand at the same point, no queued uthread is inside a call. -/
theorem Aligned.outside (aligned : Aligned view log s logged seq p) {next : Ptr} {u : Uthread}
    (found : s.runqPopFront.2.heap next = some u) (call : Call) (serial : Nat) :
    u.ctx.frame ≠ .io call serial := by
  intro inside
  apply aligned.clear.frames next call serial
  rw [aligned.alike.frameAt, ← Sched.frameAt_congr (Sched.runqPopFront_core s), Sched.frameAt,
    Sched.core_some found]
  exact congrArg some inside

/-- A switch is found in the log, or not asked for. -/
theorem Aligned.switch {r : State} (aligned : Aligned view log r.sched r.log r.seq p)
    (plain : Plain view) (idle : r.sched.control = .scheduler) {next : Ptr} {u : Uthread}
    (head : r.sched.runqHead = some next) (found : r.sched.runqPopFront.2.heap next = some u)
    (runnable : u.state = .runnable) (front : r.log ++ r.switchEvents u.id <+: log) :
    ∃ p', p.advance program choice = some p' ∧
      Aligned view log ((r.sched.runqPopFront.2.dispatch next).resumed next u.ctx.frame)
        (r.log ++ r.switchEvents u.id)
        (if r.sched.currentId = u.id then r.seq else r.seq + 1) p' := by
  obtain ⟨v, found', erased⟩ := aligned.alike.popFront.found found
  obtain ⟨_, number, state, frame, _, _⟩ := erased_parts erased
  have idle' := aligned.alike.control.trans idle
  have head' := aligned.alike.runqHead.trans head
  have outside : ∀ call serial, v.ctx.frame ≠ .io call serial := fun call serial inside =>
    aligned.outside found call serial (frame.symm.trans inside)
  -- Whichever way the switch is permitted, the same state is reached but for the reader.
  have arrives : ∀ base : State, step program p (.loop choice.2) =
        some (base.switchTo p.sched.runqPopFront.2 next v) →
      base.config = p.config → base.history = p.history →
      (∃ rest, log = r.log ++ r.switchEvents u.id ++ rest ∧ base.reader = .before rest
        ((if r.sched.currentId = u.id then r.seq else r.seq + 1) + 1)) →
      ∃ p', p.advance program choice = some p' ∧
        Aligned view log ((r.sched.runqPopFront.2.dispatch next).resumed next u.ctx.frame)
          (r.log ++ r.switchEvents u.id)
          (if r.sched.currentId = u.id then r.seq else r.seq + 1) p' := by
    intro base stepped config history cursor
    have reached := switchTo_outside base p.sched.runqPopFront.2 next outside
    refine ⟨_, (advance_loop idle' choice).trans stepped, ?_, ?_,
      (aligned.replaying.step stepped).2, ?_, aligned.clear.step aligned.replaying stepped, ?_⟩
    · rw [reached, frame]
      exact (aligned.alike.popFront.dispatch next).resumed plain next _
    · rw [reached]
      exact cursor
    · rw [reached, ← aligned.virtual, ← config]
    · rw [reached]
      simp only [history, List.mem_append, not_or]
      refine ⟨aligned.matched, ?_⟩
      unfold switchSeen
      split
      · simp
      · split <;> simp
  obtain ⟨again, switched⟩ : _ ∧ _ := replay_loop aligned.replaying idle' head' found'
    (state.trans runnable) choice.2
  obtain ⟨rest, whole, reader⟩ := aligned.cursor
  have here := aligned.alike.currentId
  by_cases same : r.sched.currentId = u.id
  · refine arrives p (again ?_) rfl rfl ⟨rest, ?_, ?_⟩
    · rw [here, number, same]
    · simp [switchEvents, same, whole]
    · rw [if_pos same, reader]
  · obtain ⟨after, grown⟩ := front
    have ahead : rest = ⟨r.seq + 1, u.id, .sched r.sched.currentId u.id⟩ :: after := by
      rw [switchEvents, if_neg same, whole, List.append_assoc] at grown
      exact (List.append_cancel_left grown).symm
    have expected : p.reader.rrReplayExpectSched p.sched.currentId v.id =
        (.before after (r.seq + 1 + 1), .ok ()) := by
      rw [reader, ahead, here, number]
      exact Reader.rrReplayExpectSched_before _ _ _ _
    have apart : p.sched.currentId ≠ v.id := by
      rw [here, number]
      exact same
    refine arrives _ (switched _ apart expected) rfl rfl ⟨after, grown.symm, ?_⟩
    rw [if_neg same]

end Aligned

end State

end Librr
