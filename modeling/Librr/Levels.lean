import Librr.LossyReplay

set_option autoImplicit false

namespace Librr

namespace Sched

/-- Two schedulers that are the same seen through `view`, up to what erasure hides. -/
def Level (view : Action × Reply → Action × Reply) (s t : Sched) : Prop :=
  s.erased view = t.erased view

section Level

variable {view : Action × Reply → Action × Reply} {s t : Sched}

theorem Level.control (level : Level view s t) : t.control = s.control :=
  (congrArg Sched.control level).symm

theorem Level.runqHead (level : Level view s t) : t.runqHead = s.runqHead :=
  (congrArg Sched.runqHead level).symm

theorem Level.current (level : Level view s t) : t.current = s.current :=
  (congrArg Sched.current level).symm

theorem Level.currentId (level : Level view s t) : t.currentId = s.currentId := by
  rw [← erased_currentId view s, ← erased_currentId view t, level]

theorem Level.heap (level : Level view s t) (ut : Ptr) :
    (t.heap ut).map (Uthread.erased view) = (s.heap ut).map (Uthread.erased view) :=
  (congrFun (congrArg Sched.heap level) ut).symm

theorem Level.found (level : Level view s t) {ut : Ptr} {u : Uthread} (found : s.heap ut = some u) :
    ∃ v, t.heap ut = some v ∧ v.erased view = u.erased view := by
  have both := level.heap ut
  rw [found] at both
  exact Option.map_eq_some_iff.mp both

theorem Level.running (level : Level view s t) {ut : Ptr} {u : Uthread}
    (running : s.running = some (ut, u)) :
    ∃ v, t.running = some (ut, v) ∧ v.erased view = u.erased view := by
  obtain ⟨current, present⟩ := of_running running
  obtain ⟨v, found, same⟩ := level.found present
  exact ⟨v, running_eq (level.current.trans current) found, same⟩

theorem Level.popFront (level : Level view s t) :
    Level view s.runqPopFront.2 t.runqPopFront.2 := by
  have both := erased_popFront view s
  have other := erased_popFront view t
  rw [show s.erased view = t.erased view from level] at both
  exact congrArg Prod.snd (both.symm.trans other)

theorem Level.dispatch (level : Level view s t) (next : Ptr) :
    Level view (s.dispatch next) (t.dispatch next) := by
  rw [Level, erased_dispatch, erased_dispatch, show s.erased view = t.erased view from level]

theorem Level.resumed (level : Level view s t) (plain : Plain view) (next : Ptr) (frame : Frame) :
    Level view (s.resumed next frame) (t.resumed next frame) := by
  rw [Level, erased_resumed plain, erased_resumed plain,
    show s.erased view = t.erased view from level]

theorem Level.reply (level : Level view s t) {ut : Ptr} {action : Action} {mine theirs : Reply}
    (same : view (action, mine) = view (action, theirs)) :
    Level view (s.reply ut action mine) (t.reply ut action theirs) := by
  rw [Level, erased_reply, erased_reply, same, show s.erased view = t.erased view from level]

theorem Level.performed (level : Level view s t) (plain : Plain view) {stackSize size : Nat}
    {ut : Ptr} {u v : Uthread} {answer other : CreateAnswer} {action : Action} {s' t' : Sched}
    (succeeds : answer.Succeeds) (succeeds' : other.Succeeds) (running : s.running = some (ut, u))
    (running' : t.running = some (ut, v)) (start : v.startFn = u.startFn)
    (performed : s.Local stackSize ut u answer action s')
    (performed' : t.Local size ut v other action t') : Level view s' t' := by
  rw [Level, performed.erased plain succeeds running, performed'.erased plain succeeds' running',
    start, show s.erased view = t.erased view from level]

theorem erased_links (view : Action × Reply → Action × Reply) (s : Sched) :
    (s.erased view).links = s.links := by
  have next : (fun ut => ((s.erased view).heap ut).bind Uthread.next) =
      fun ut => (s.heap ut).bind Uthread.next := by
    funext ut
    simp only [erased]
    cases s.heap ut <;> rfl
  unfold links
  rw [next]
  rfl

theorem Level.links (level : Level view s t) : t.links = s.links := by
  rw [← erased_links view s, ← erased_links view t, level]

theorem Level.traces (level : Level view s t) (ut : Ptr) :
    (t.traceAt ut).map (List.map view) = (s.traceAt ut).map (List.map view) := by
  have seen : ∀ sched : Sched, (sched.traceAt ut).map (List.map view) =
      ((sched.erased view).heap ut).map fun u => u.ctx.trace := by
    intro sched
    simp only [traceAt, erased, Option.map_map]
    rfl
  rw [seen, seen, level]

end Level

end Sched

theorem level_parts {view : Action × Reply → Action × Reply} {u v : Uthread}
    (same : v.erased view = u.erased view) :
    v.startFn = u.startFn ∧ v.id = u.id ∧ v.state = u.state ∧ v.ctx.frame = u.ctx.frame ∧
      v.ctx.trace.map view = u.ctx.trace.map view := by
  have start : (v.erased view).startFn = (u.erased view).startFn := by rw [same]
  have number : (v.erased view).id = (u.erased view).id := by rw [same]
  have state : (v.erased view).state = (u.erased view).state := by rw [same]
  have frame : (v.erased view).ctx.frame = (u.erased view).ctx.frame := by rw [same]
  have trace : (v.erased view).ctx.trace = (u.erased view).ctx.trace := by rw [same]
  exact ⟨start, number, state, frame, trace⟩

theorem Sched.Level.frameAt {view : Action × Reply → Action × Reply} {s t : Sched}
    (level : Sched.Level view s t) (ut : Ptr) : t.frameAt ut = s.frameAt ut := by
  have seen : ∀ sched : Sched, sched.frameAt ut =
      ((sched.erased view).heap ut).map fun u => u.ctx.frame := by
    intro sched
    simp only [Sched.frameAt, Sched.core, Sched.erased, Option.map_map]
    rfl
  rw [seen, seen, level]

namespace State

/-- What the two are about to do. -/
theorem Indifferent.same {program : Program} {p q : State}
    {view : Action × Reply → Action × Reply} {ut : Ptr} {u v : Uthread}
    (mine : p.Indifferent program view) (theirs : q.Indifferent program view)
    (found : p.sched.heap ut = some u) (found' : q.sched.heap ut = some v)
    (same : v.erased view = u.erased view) :
    program v.startFn v.ctx.replies = program u.startFn u.ctx.replies := by
  obtain ⟨start, _, _, _, trace⟩ := level_parts same
  rw [← mine ut u found, ← theirs ut v found', Context.viewed, Context.viewed, trace, start]

theorem Indifferent.next {program : Program} {p q : State}
    {view : Action × Reply → Action × Reply} (mine : p.Indifferent program view)
    (theirs : q.Indifferent program view) (level : Sched.Level view p.sched q.sched) (ut : Ptr) :
    q.sched.nextAction program ut = p.sched.nextAction program ut := by
  unfold Sched.nextAction
  cases here : p.sched.heap ut with
  | none =>
      have both := level.heap ut
      rw [here] at both
      rw [Option.map_eq_none_iff.mp both]
  | some u =>
      obtain ⟨v, found, same⟩ := level.found here
      rw [found, Option.map_some, Option.map_some, mine.same theirs here found same,
        (level_parts same).2.2.2.1]

/-- A switch is seen as nothing but a switch. -/
theorem mem_switchSeen {s : State} {next : Ptr} {toId : UInt64} {x : Observation}
    (member : x ∈ s.switchSeen next toId) :
    ∃ fromId done action, x = .switched fromId toId done action := by
  unfold switchSeen at member
  split at member
  · cases member
  · split at member
    · cases member
    · exact ⟨_, _, _, List.mem_singleton.mp member⟩

theorem indifferent_id (program : Program) (s : State) : s.Indifferent program id := by
  intro ut u _
  rw [Context.viewed, List.map_id]
  rfl

end State

end Librr
