import Librr.Submissions

set_option autoImplicit false

namespace Librr

open Lifecycle Transition

/-- The phase of every operation, as it was observed. -/
def Tracked (history : List Observation) (phase : Nat → Phase Int32) : Prop :=
  ∀ serial, phaseOf (milestones history serial) = some (phase serial)

theorem Tracked.saw {history seen : List Observation} {phase phase' : Nat → Phase Int32}
    (tracked : Tracked history phase)
    (moved : ∀ serial, (milestones seen serial).foldlM Phase.reach (phase serial) =
      some (phase' serial)) : Tracked (history ++ seen) phase' := by
  intro serial
  rw [milestones_append, phaseOf_append, tracked serial, Option.bind_some, moved serial]

/-- Observations that concern no operation. -/
theorem Tracked.aside {history seen : List Observation} {phase : Nat → Phase Int32}
    (tracked : Tracked history phase) (none : ∀ serial, milestones seen serial = []) :
    Tracked (history ++ seen) phase :=
  tracked.saw fun serial => by rw [none serial]; rfl

/-- One observation about one operation. -/
theorem Tracked.one {history : List Observation} {phase : Nat → Phase Int32}
    (tracked : Tracked history phase) {seen : Observation} {serial : Nat}
    (passed : Milestone Int32) {next : Phase Int32}
    (about : ∀ other, seen.milestone other = if other = serial then some passed else none)
    (reached : (phase serial).reach passed = some next) :
    Tracked (history ++ [seen]) (Function.update phase serial next) := by
  refine tracked.saw fun other => ?_
  by_cases own : other = serial
  · subst own
    simp [milestones, about, reached]
  · simp [milestones, about, own]

/-- The entries of a queue are issued together. -/
theorem Tracked.issued {history : List Observation} {phase : Nat → Phase Int32}
    (tracked : Tracked history phase) {serials : List Nat} (distinct : serials.Nodup)
    (prepared : ∀ serial ∈ serials, phase serial = .prepared) :
    Tracked (history ++ serials.map .issued)
      (fun serial => if serial ∈ serials then .flying else phase serial) := by
  refine tracked.saw fun serial => ?_
  have life : milestones (serials.map .issued) serial =
      if serial ∈ serials then [.issued] else [] := by
    clear prepared
    induction serials with
    | nil => rfl
    | cons first rest ih =>
        obtain ⟨apart, others⟩ := List.nodup_cons.mp distinct
        have tail := ih others
        simp only [milestones, List.map_cons, List.filterMap_cons, Observation.milestone] at tail ⊢
        by_cases own : first = serial
        · subst own
          simp [tail, apart]
        · simp [tail, own, Ne.symm own]
  rw [life]
  by_cases member : serial ∈ serials
  · simp [member, prepared serial member, Phase.reach]
  · simp [member]

namespace Ring

/-- Where the operations of the ring are, by their phases. -/
structure InPhase (ring : Ring) (phase : Nat → Phase Int32) : Prop where
  unused : ∀ serial, ring.fresh ≤ serial → phase serial = .prepared
  queued : ∀ sqe ∈ ring.sq, sqe.userData = rrSignalSentinel → phase sqe.serial = .prepared
  flying : ∀ sqe ∈ ring.inflight, phase sqe.serial = .flying
  landed : ∀ cqe ∈ ring.cq, phase cqe.serial = .landed cqe.res

/-- The serials of everything the ring holds. -/
theorem Serials.distinct {ring : Ring} (serials : ring.Serials) :
    (ring.sq.map Sqe.serial ++ (ring.inflight.map Sqe.serial ++ ring.cq.map Cqe.serial)).Nodup := by
  have nodup := serials.nodup
  simp only [entries, List.map_append, List.map_map] at nodup
  exact nodup

theorem Serials.sqe_below {ring : Ring} (serials : ring.Serials) {sqe : Sqe}
    (member : sqe ∈ ring.sq ++ ring.inflight) : sqe.serial < ring.fresh := by
  refine serials.below sqe.key ?_
  rw [entries, ← List.append_assoc, ← List.map_append]
  exact List.mem_append_left _ (List.mem_map_of_mem member)

theorem Serials.cqe_below {ring : Ring} (serials : ring.Serials) {cqe : Cqe}
    (member : cqe ∈ ring.cq) : cqe.serial < ring.fresh :=
  serials.below cqe.key (by simp [entries, List.mem_map_of_mem member])

section

variable {ring : Ring} {phase : Nat → Phase Int32}

theorem update_elsewhere {serial other : Nat} (differs : phase other ≠ phase serial)
    (next : Phase Int32) : Function.update phase serial next other = phase other :=
  Function.update_of_ne (fun same => differs (by rw [same])) _ _

/-- An operation that the ring does not hold any more may go on. -/
theorem InPhase.gone (within : ring.InPhase phase) {serial : Nat} {res : Int32}
    (delivered : phase serial = .delivered res) (next : Phase Int32) :
    ring.InPhase (Function.update phase serial next) := by
  refine ⟨?_, ?_, ?_, ?_⟩
  · intro other above
    have here := within.unused other above
    rw [update_elsewhere (by simp [here, delivered]), here]
  · intro sqe member signal
    have here := within.queued sqe member signal
    rw [update_elsewhere (by simp [here, delivered]), here]
  · intro sqe member
    have here := within.flying sqe member
    rw [update_elsewhere (by simp [here, delivered]), here]
  · intro cqe member
    have here := within.landed cqe member
    rw [update_elsewhere (by simp [here, delivered]), here]

/-- A signal read is prepared. -/
theorem InPhase.signal (within : ring.InPhase phase) (op : IoOp) :
    (ring.push op rrSignalSentinel).InPhase phase := by
  refine ⟨?_, ?_, within.flying, within.landed⟩
  · intro serial above
    exact within.unused serial (Nat.le_of_succ_le above)
  · intro sqe member signal
    rcases List.mem_append.mp member with old | new
    · exact within.queued sqe old signal
    · cases List.mem_singleton.mp new
      exact within.unused ring.fresh (Nat.le_refl _)

/-- The entry of a call is prepared, and cannot be submitted. -/
theorem InPhase.left (within : ring.InPhase phase) (serials : ring.Serials) (op : IoOp)
    {tag : UInt64} (tagged : tag ≠ rrSignalSentinel) :
    (ring.push op tag).InPhase (Function.update phase ring.fresh .failed) := by
  have below : ∀ serial, serial < ring.fresh →
      Function.update phase ring.fresh .failed serial = phase serial :=
    fun serial lower => Function.update_of_ne (Nat.ne_of_lt lower) _ _
  refine ⟨?_, ?_, ?_, ?_⟩
  · intro serial above
    have higher : ring.fresh + 1 ≤ serial := above
    rw [Function.update_of_ne (by omega)]
    exact within.unused serial (by omega)
  · intro sqe member signal
    rcases List.mem_append.mp member with old | new
    · rw [below _ (serials.sqe_below (List.mem_append_left _ old))]
      exact within.queued sqe old signal
    · cases List.mem_singleton.mp new
      exact absurd signal tagged
  · intro sqe member
    rw [below _ (serials.sqe_below (List.mem_append_right _ member))]
    exact within.flying sqe member
  · intro cqe member
    rw [below _ (serials.cqe_below member)]
    exact within.landed cqe member

/-- What is in the queue when a call or a signal read is submitted without a stale entry. -/
theorem InPhase.prepared (within : ring.InPhase phase) (clean : ¬ ring.Stale) (op : IoOp)
    (tag : UInt64) :
    ∀ serial ∈ (ring.push op tag).sq.map Sqe.serial, phase serial = .prepared := by
  intro serial member
  obtain ⟨sqe, inside, rfl⟩ := List.mem_map.mp member
  rcases List.mem_append.mp inside with old | new
  · refine within.queued sqe old ?_
    by_contra tagged
    exact clean ⟨sqe, old, tagged⟩
  · cases List.mem_singleton.mp new
    exact within.unused ring.fresh (Nat.le_refl _)

theorem InPhase.submitted (within : ring.InPhase phase) (serials : ring.Serials)
    (clean : ¬ ring.Stale) (op : IoOp) (tag : UInt64) :
    (ring.push op tag).submit.InPhase fun serial =>
      if serial ∈ (ring.push op tag).sq.map Sqe.serial then .flying else phase serial := by
  have prepared := within.prepared clean op tag
  refine ⟨?_, ?_, ?_, ?_⟩
  · intro serial above
    have higher : ring.fresh + 1 ≤ serial := above
    rw [if_neg, within.unused serial (by omega)]
    intro member
    obtain ⟨sqe, inside, rfl⟩ := List.mem_map.mp member
    rcases List.mem_append.mp inside with old | new
    · have lower := serials.sqe_below (List.mem_append_left ring.inflight old)
      omega
    · cases List.mem_singleton.mp new
      exact Nat.lt_irrefl _ higher
  · intro sqe member
    cases member
  · intro sqe member
    rcases List.mem_append.mp member with old | handed
    · split
      · rfl
      · exact within.flying sqe old
    · rw [if_pos (List.mem_map_of_mem handed)]
  · intro cqe member
    have here := within.landed cqe member
    rw [if_neg, here]
    intro inside
    rw [prepared _ inside] at here
    cases here

theorem InPhase.completed (within : ring.InPhase phase) (serials : ring.Serials) {index : Nat}
    {sqe : Sqe} (flying : ring.inflight[index]? = some sqe) (res : Int32) (data : Bytes) :
    (ring.complete index sqe res data).InPhase
      (Function.update phase sqe.serial (.landed res)) := by
  have air := within.flying sqe (List.mem_of_getElem? flying)
  refine ⟨?_, ?_, ?_, ?_⟩
  · intro serial above
    have here := within.unused serial above
    rw [update_elsewhere (by simp [here, air]), here]
  · intro entry member signal
    have here := within.queued entry member signal
    rw [update_elsewhere (by simp [here, air]), here]
  · intro entry member
    have apart : entry.serial ≠ sqe.serial := by
      obtain ⟨inside, same⟩ := List.getElem?_eq_some_iff.mp flying
      have whole := List.getElem_cons_eraseIdx_perm inside
      rw [same] at whole
      have nodup := (whole.map Sqe.serial).nodup_iff.mpr
        serials.distinct.of_append_right.of_append_left
      intro equal
      exact (List.nodup_cons.mp nodup).1 (equal ▸ List.mem_map_of_mem member)
    rw [Function.update_of_ne apart]
    exact within.flying entry (List.mem_of_mem_eraseIdx member)
  · intro cqe member
    rcases List.mem_append.mp member with old | new
    · have here := within.landed cqe old
      rw [update_elsewhere (by simp [here, air]), here]
    · cases List.mem_singleton.mp new
      exact Function.update_self _ _ _

/-- The first completion is consumed, and whoever waits for it is resumed. -/
theorem InPhase.consumed (within : ring.InPhase phase) (serials : ring.Serials) {cqe : Cqe}
    {rest : List Cqe} (first : ring.cq = cqe :: rest) :
    ring.cqeSeen.InPhase (Function.update phase cqe.serial (.delivered cqe.res)) := by
  have down := within.landed cqe (by simp [first])
  have tail : ring.cqeSeen.cq = rest := by simp [cqeSeen, first]
  refine ⟨?_, ?_, ?_, ?_⟩
  · intro serial above
    have here := within.unused serial above
    rw [update_elsewhere (by simp [here, down]), here]
  · intro entry member signal
    have here := within.queued entry member signal
    rw [update_elsewhere (by simp [here, down]), here]
  · intro entry member
    have here := within.flying entry member
    rw [update_elsewhere (by simp [here, down]), here]
  · intro other member
    rw [tail] at member
    have apart : other.serial ≠ cqe.serial := by
      have nodup := serials.distinct.of_append_right.of_append_right
      rw [first, List.map_cons] at nodup
      intro equal
      exact (List.nodup_cons.mp nodup).1 (equal ▸ List.mem_map_of_mem member)
    rw [Function.update_of_ne apart]
    exact within.landed other (by simp [first, member])

theorem InPhase.seen (within : ring.InPhase phase) : ring.cqeSeen.InPhase phase :=
  ⟨within.unused, within.queued, within.flying,
    fun cqe member => within.landed cqe (List.mem_of_mem_tail member)⟩

end

end Ring

namespace Sched

/-- Who has been resumed in a call, by the phase of its operation. -/
structure InPhase (s : Sched) (phase : Nat → Phase Int32) : Prop where
  woken : ∀ ut u serial, s.CallAt ut u serial → u.state = .runnable →
    phase serial = .delivered u.ioResult
  apart : ∀ ut other u v serial, s.CallAt ut u serial → s.CallAt other v serial →
    u.state = .runnable → v.state = .runnable → ut = other

/-- Whoever is resumed in a call was so before, with the same result. -/
def KeepsWoken (s t : Sched) : Prop :=
  ∀ ut u serial, t.CallAt ut u serial → u.state = .runnable →
    ∃ v, s.CallAt ut v serial ∧ v.state = .runnable ∧ v.ioResult = u.ioResult

theorem KeepsCalls.woken {s t : Sched} (calls : s.KeepsCalls t) : s.KeepsWoken t := by
  intro ut u serial inside runnable
  obtain ⟨v, there, _, state, result⟩ := calls ut u serial inside
  exact ⟨v, there, state.trans runnable, result⟩

/-- A uthread that blocks is not resumed. -/
theorem keepsWoken_blocked {s t : Sched} {cur : Ptr} {frame : Frame}
    (core : t.core = s.core.modify cur (suspend .blocked frame)) : s.KeepsWoken t := by
  rintro ut u serial ⟨found, call, inside⟩ runnable
  rw [core, Heap.modify_apply] at found
  split at found
  · obtain ⟨w, _, rfl⟩ := Option.map_eq_some_iff.mp found
    cases runnable
  · exact ⟨u, ⟨found, call, inside⟩, runnable, rfl⟩

theorem InPhase.kept {s t : Sched} {phase phase' : Nat → Phase Int32} (within : s.InPhase phase)
    (calls : s.KeepsWoken t)
    (same : ∀ serial res, phase serial = .delivered res → phase' serial = .delivered res) :
    t.InPhase phase' := by
  refine ⟨?_, ?_⟩
  · intro ut u serial inside runnable
    obtain ⟨v, there, ready, result⟩ := calls ut u serial inside runnable
    rw [← result]
    exact same serial _ (within.woken ut v serial there ready)
  · intro ut other u v serial inside inside' runnable runnable'
    obtain ⟨u', there, ready, _⟩ := calls ut u serial inside runnable
    obtain ⟨v', there', ready', _⟩ := calls other v serial inside' runnable'
    exact within.apart ut other u' v' serial there there' ready ready'

/-- The uthread blocked in the call is resumed with the result. -/
theorem InPhase.wake {s t : Sched} {phase : Nat → Phase Int32} {cur : Ptr} {u : Uthread}
    {serial : Nat} {res : Int32} {data : Bytes} (within : s.InPhase phase)
    (landed : phase serial = .landed res) (here : s.CallAt cur u serial)
    (blocked : u.state = .blocked)
    (core : t.core = s.core.modify cur (wakeRecord (completed res data))) :
    t.InPhase (Function.update phase serial (.delivered res)) := by
  -- Who is resumed afterwards: this one, or somebody in the call of another operation.
  have split : ∀ ut v other, t.CallAt ut v other → v.state = .runnable →
      ut = cur ∧ other = serial ∧ v.ioResult = res ∨
        s.CallAt ut v other ∧ other ≠ serial := by
    rintro ut v other ⟨found, call, inside⟩ runnable
    rw [core, Heap.modify_apply] at found
    by_cases own : ut = cur
    · subst own
      rw [if_pos rfl, here.1, Option.map_some, wakeRecord, if_pos blocked] at found
      cases found
      obtain ⟨call', inside'⟩ := here.2
      have same : (Frame.io call' serial) = .io call other := inside'.symm.trans inside
      cases same
      exact .inl ⟨rfl, rfl, rfl⟩
    · rw [if_neg own] at found
      refine .inr ⟨⟨found, call, inside⟩, ?_⟩
      rintro rfl
      have ready := within.woken ut v other ⟨found, call, inside⟩ runnable
      rw [landed] at ready
      cases ready
  refine ⟨?_, ?_⟩
  · intro ut v other inside runnable
    rcases split ut v other inside runnable with ⟨_, rfl, result⟩ | ⟨there, apart⟩
    · rw [Function.update_self, result]
    · rw [Function.update_of_ne apart]
      exact within.woken ut v other there runnable
  · intro ut ut' v w other inside inside' runnable runnable'
    rcases split ut v other inside runnable with ⟨rfl, rfl, _⟩ | ⟨there, apart⟩
    · rcases split ut' w other inside' runnable' with ⟨rfl, _⟩ | ⟨_, apart'⟩
      · rfl
      · exact absurd rfl apart'
    · rcases split ut' w other inside' runnable' with ⟨_, rfl, _⟩ | ⟨there', _⟩
      · exact absurd rfl apart
      · exact within.apart ut ut' v w other there there' runnable runnable'

/-- The resumed uthread leaves the call. -/
theorem InPhase.left {s t : Sched} {phase : Nat → Phase Int32} {cur : Ptr} {u : Uthread}
    {serial : Nat} {change : Uthread → Uthread} (within : s.InPhase phase)
    (here : s.CallAt cur u serial) (runnable : u.state = .runnable)
    (core : t.core = s.core.modify cur change)
    (outside : ∀ v call other, (change v).ctx.frame ≠ .io call other) (next : Phase Int32) :
    t.InPhase (Function.update phase serial next) := by
  have kept : ∀ ut v other, t.CallAt ut v other → v.state = .runnable →
      s.CallAt ut v other ∧ other ≠ serial := by
    rintro ut v other ⟨found, call, inside⟩ ready
    rw [core, Heap.modify_apply] at found
    by_cases own : ut = cur
    · rw [if_pos own] at found
      obtain ⟨w, _, rfl⟩ := Option.map_eq_some_iff.mp found
      exact absurd inside (outside w call other)
    · rw [if_neg own] at found
      refine ⟨⟨found, call, inside⟩, ?_⟩
      rintro rfl
      exact own (within.apart ut cur v u other ⟨found, call, inside⟩ here ready runnable)
  refine ⟨?_, ?_⟩
  · intro ut v other inside ready
    obtain ⟨there, apart⟩ := kept ut v other inside ready
    rw [Function.update_of_ne apart]
    exact within.woken ut v other there ready
  · intro ut ut' v w other inside inside' ready ready'
    exact within.apart ut ut' v w other (kept ut v other inside ready).1
      (kept ut' w other inside' ready').1 ready ready'

end Sched

namespace State

/-- Everything observed so far is in order, and the ring and the uthreads are where the
phases of the operations say. -/
structure Orderly (s : State) (phase : Nat → Phase Int32) : Prop where
  tracked : Tracked s.history phase
  ring : s.ring.InPhase phase
  calls : s.sched.InPhase phase

/-- A submission without a stale entry. -/
theorem Orderly.issued {s t : State} {phase : Nat → Phase Int32} (orderly : s.Orderly phase)
    (serials : s.ring.Serials) (clean : ¬ s.ring.Stale) (op : IoOp) (tag : UInt64)
    (history : t.history = s.history ++
      (s.ring.push op tag).sq.map fun sqe => .issued sqe.serial)
    (ring : t.ring = (s.ring.push op tag).submit) (calls : s.sched.KeepsWoken t.sched) :
    ∃ phase', t.Orderly phase' := by
  have prepared := orderly.ring.prepared clean op tag
  refine ⟨_, ?_, ring ▸ orderly.ring.submitted serials clean op tag, ?_⟩
  · have distinct := (serials.push op tag).distinct.of_append_left
    have tracked := orderly.tracked.issued distinct prepared
    rw [List.map_map] at tracked
    rw [history]
    exact tracked
  · refine orderly.calls.kept calls fun serial res delivered => ?_
    rw [if_neg, delivered]
    intro member
    rw [prepared serial member] at delivered
    cases delivered

/-- The signal read is submitted again, or left in the queue. -/
theorem Orderly.rearmed {s base : State} {phase : Nat → Phase Int32} (orderly : s.Orderly phase)
    (serials : s.ring.Serials) (same : SameButLog s base) {submitted : Bool}
    (clean : submitted = true → s.ring.sq.length ≠ ringEntries → s.ring.signalFd ≠ none →
      ¬ s.ring.Stale) :
    ∃ phase', (base.rearmSignalRead submitted).cqeSeen.Orderly phase' := by
  suffices rearmed : ∃ phase', (base.rearmSignalRead submitted).Orderly phase' by
    obtain ⟨phase', tracked, ring, calls⟩ := rearmed
    exact ⟨phase', tracked, ring.seen, calls⟩
  have before : base.Orderly phase := by
    refine ⟨?_, ?_, ?_⟩
    · rw [same.history]
      exact orderly.tracked
    · rw [same.ring]
      exact orderly.ring
    · rw [same.sched]
      exact orderly.calls
  rw [← same.ring] at serials clean
  have calls : ∀ other : State, other.sched = base.sched → base.sched.KeepsWoken other.sched :=
    fun other equal => Sched.KeepsCalls.woken (Sched.keepsCalls_of_core (by rw [equal]))
  rcases base.rearmSignalRead_cases submitted with ⟨_, unchanged⟩ | ⟨fd, armed, room, done⟩
  · rw [unchanged]
    exact ⟨phase, before⟩
  · rw [done]
    cases submitted with
    | true =>
        exact before.issued serials (clean rfl room (by simp [armed])) (.read fd 128 0)
          rrSignalSentinel rfl rfl (calls _ rfl)
    | false => exact ⟨phase, before.tracked, before.ring.signal _, before.calls⟩

/-- A call whose entry cannot be submitted returns its error. -/
theorem Orderly.refused {s : State} {phase : Nat → Phase Int32} (orderly : s.Orderly phase)
    (serials : s.ring.Serials) (tagged : s.sched.currentId ≠ rrSignalSentinel) (op : IoOp)
    (args : LogArgs) (ut : Ptr) (call : Call) (result : CallResult) :
    ∃ phase', (((s.leave op).rrLogSyscall args).returnCall ut call result).Orderly phase' := by
  have unused := orderly.ring.unused s.ring.fresh (Nat.le_refl _)
  refine ⟨Function.update phase s.ring.fresh .failed, ?_, ?_, ?_⟩
  · rw [loggedReturn_history]
    refine Tracked.aside ?_ (by simp [milestones, Observation.milestone])
    refine orderly.tracked.one .failed ?_ (by rw [unused]; rfl)
    intro other
    simp only [Observation.milestone, eq_comm]
  · rw [loggedReturn_ring]
    exact orderly.ring.left serials op tagged
  · rw [loggedReturn_sched]
    refine orderly.calls.kept (Sched.keepsCalls_reply _ _ _ _).woken fun serial res delivered => ?_
    rw [Ring.update_elsewhere (by simp [delivered, unused]), delivered]

/-- A completion resumes the uthread whose call it completes. -/
theorem Orderly.woken {s : State} {phase : Nat → Phase Int32} (orderly : s.Orderly phase)
    (paired : s.Paired) {cqe : Cqe} {rest : List Cqe} (first : s.ring.cq = cqe :: rest)
    (tagged : cqe.userData ≠ rrSignalSentinel) :
    ∃ phase', Orderly { s with
      sched := s.sched.rrSchedulerWakeById cqe.userData cqe.res none 0
      ring := s.ring.cqeSeen
      history := s.history ++ if s.wakes cqe then [.resumed cqe.serial] else [] } phase' := by
  obtain ⟨ut, u, _, hit, blocked, inside⟩ := paired.owner first tagged
  have landed := orderly.ring.landed cqe (by simp [first])
  have core := s.sched.rrSchedulerWakeById_core cqe.userData cqe.res none 0
  simp only [hit] at core
  refine ⟨Function.update phase cqe.serial (.delivered cqe.res), ?_,
    orderly.ring.consumed paired.serials first, orderly.calls.wake landed inside blocked core⟩
  rw [if_pos (by simp [wakes, hit, blocked])]
  refine orderly.tracked.one .resumed ?_ (by rw [landed]; rfl)
  intro other
  simp only [Observation.milestone, eq_comm]

theorem switchSeen_aside (s : State) (next : Ptr) (toId : UInt64) (serial : Nat) :
    milestones (s.switchSeen next toId) serial = [] := by
  unfold switchSeen
  split
  · rfl
  · split <;> rfl

/-- Whoever is switched to goes on; out of a call, with the result of its operation. -/
theorem Orderly.dispatched {s base : State} {phase : Nat → Phase Int32} (orderly : s.Orderly phase)
    (same : SameButLog s base) {next : Ptr} {u : Uthread} (resumes : u.ctx.frame.Resumes)
    (found : s.sched.runqPopFront.2.heap next = some u) (runnable : u.state = .runnable) :
    ∃ phase', (base.switchTo s.sched.runqPopFront.2 next u).Orderly phase' := by
  obtain ⟨trace, core⟩ := switchTo_core (t := base) resumes found
  have known : s.sched.core next = some u.core := by
    rw [← Sched.runqPopFront_core, Sched.core_some found]
  have ring : (base.switchTo s.sched.runqPopFront.2 next u).ring.InPhase phase := by
    rw [switchTo_eq, (resume_kept _ next u).2.1, arrive, same.ring]
    exact orderly.ring
  have calls : (base.switchTo s.sched.runqPopFront.2 next u).sched.InPhase phase :=
    orderly.calls.kept (Sched.keepsCalls_of_modify core (by simp)).woken fun _ _ equal => equal
  have arrived : Tracked (base.arrive s.sched.runqPopFront.2 next u.id).history phase := by
    rw [arrive, same.history]
    exact orderly.tracked.aside (base.switchSeen_aside next u.id)
  rcases base.switchTo_cases s.sched.runqPopFront.2 next resumes with
    ⟨_, moved⟩ | ⟨_, moved⟩ | ⟨id, out, target, _, moved⟩ |
    ⟨call, serial, finish, inside, _, _, moved⟩
  · exact ⟨phase, by rw [moved]; exact arrived, ring, calls⟩
  · exact ⟨phase, by rw [moved]; exact arrived, ring, calls⟩
  · exact ⟨phase, by rw [moved]; exact arrived, ring, calls⟩
  · have delivered := orderly.calls.woken next u.core serial ⟨known, call, inside⟩ runnable
    have result : u.core.ioResult = u.ioResult := rfl
    rw [result] at delivered
    refine ⟨Function.update phase serial (.answered u.ioResult), ?_, ring.gone delivered _,
      orderly.calls.left ⟨known, call, inside⟩ runnable core (by simp) _⟩
    rw [moved, loggedReturn_history, observe_history]
    refine Tracked.aside ?_ (by simp [milestones, Observation.milestone])
    refine arrived.one (.answered u.ioResult) ?_ (by rw [delivered]; simp [Phase.reach])
    intro other
    simp only [Observation.milestone, eq_comm]

theorem Orderly.posted {s : State} {phase : Nat → Phase Int32} (orderly : s.Orderly phase)
    (serials : s.ring.Serials) {index : Nat} {sqe : Sqe}
    (flying : s.ring.inflight[index]? = some sqe) (res : Int32) (data : Bytes) :
    ∃ phase', Orderly { s with
      ring := s.ring.complete index sqe res data
      history := s.history ++ [.completed sqe.serial res] } phase' := by
  have air := orderly.ring.flying sqe (List.mem_of_getElem? flying)
  refine ⟨Function.update phase sqe.serial (.landed res), ?_,
    orderly.ring.completed serials flying res data, ?_⟩
  · refine orderly.tracked.one (.completed res) ?_ (by rw [air]; rfl)
    intro other
    simp only [Observation.milestone, eq_comm]
  · refine orderly.calls.kept (Sched.keepsCalls_of_core rfl).woken fun serial other delivered => ?_
    rw [Ring.update_elsewhere (by simp [delivered, air]), delivered]

theorem Orderly.step {program : Program} {s t : State} {input : Input} {phase : Nat → Phase Int32}
    (orderly : s.Orderly phase) (paired : s.Paired)
    (taken : Librr.step program s input = some t) (own : s.HandsOverOwn program input) :
    ∃ phase', t.Orderly phase' := by
  obtain ⟨kind, _⟩ := paired.recording.step taken
  have queue := paired.recording.queue
  -- A call that returns at once.
  have returned : ∀ (args : LogArgs) (ut : Ptr) (call : Call) (result : CallResult),
      ((s.rrLogSyscall args).returnCall ut call result).Orderly phase := by
    intro args ut call result
    refine ⟨?_, ?_, ?_⟩
    · rw [loggedReturn_history]
      exact orderly.tracked.aside (by simp [milestones, Observation.milestone])
    · rw [loggedReturn_ring]
      exact orderly.ring
    · rw [loggedReturn_sched]
      exact orderly.calls.kept (Sched.keepsCalls_reply _ _ _ _).woken fun _ _ equal => equal
  cases kind with
  | perform answer ut u sched user running performed =>
      have calls := Sched.KeepsCalls.performed paired.wakers queue user running performed
      exact ⟨phase, orderly.tracked, orderly.ring,
        orderly.calls.kept calls.woken fun _ _ equal => equal⟩
  | immediate answer ut u call result args user running next done => exact ⟨phase, returned ..⟩
  | full answer ut u call op finish user running next submits half filled =>
      exact ⟨phase, returned ..⟩
  | refused answer ut u call op finish user running next submits half room failed =>
      obtain ⟨_, present⟩ := Sched.of_running running
      have tag : s.sched.currentId = u.id := by simp [Sched.currentId, running]
      exact orderly.refused paired.serials (tag ▸ paired.named.id_ne_sentinel present) ..
  | submitted answer ut u call op finish user running next submits half room accepted =>
      have clean := own ⟨accepted, room, ut, u, call, op, running, next, submits⟩
      obtain ⟨current, _⟩ := Sched.of_running running
      exact orderly.issued paired.serials clean op s.sched.currentId rfl rfl
        (Sched.keepsWoken_blocked (Sched.rrSchedulerBlockCurrent_core current queue.on _))
  | interrupted answer idle empty broken => exact ⟨phase, orderly⟩
  | killed answer cqe rest idle empty first sentinel full fatal =>
      have same := rrLogSignal_same s s.ring.ssiSigno s.sched.currentId.toUInt32
      refine ⟨phase, ?_, ?_, ?_⟩
      · rw [same.history]
        exact orderly.tracked
      · rw [same.ring]
        exact orderly.ring
      · exact orderly.calls.kept (Sched.keepsCalls_of_core rfl).woken fun _ _ equal => equal
  | signal answer cqe rest idle empty first sentinel full harmless =>
      have same := rrLogSignal_same s s.ring.ssiSigno s.sched.currentId.toUInt32
      refine orderly.rearmed paired.serials same fun submitted room armed => ?_
      refine own (submitsNow_of_rearm taken idle empty first sentinel (fun fatal =>
        harmless fatal.2) ?_ submitted room armed)
      exact rearmed_cq (by rw [same.ring, first]) answer.submit
  | short answer cqe rest idle empty first sentinel short =>
      refine orderly.rearmed paired.serials ⟨rfl, rfl, rfl, rfl, rfl, rfl⟩
        fun submitted room armed => ?_
      exact own (submitsNow_of_rearm taken idle empty first sentinel (fun fatal => short fatal.1)
        (rearmed_cq first answer.submit) submitted room armed)
  | wake answer cqe rest idle empty first tagged => exact orderly.woken paired first tagged
  | dispatch answer next u idle head found runnable =>
      exact orderly.dispatched (logSwitch_same s u.id)
        (head_resumes paired.recording.framed found runnable) found runnable
  | post index res data sqe live flying => exact orderly.posted paired.serials flying res data

theorem recordStart_paired (stackSize : Nat) (signalFd : Int32) :
    (recordStart stackSize signalFd).Paired := by
  have watched := recordStart_watched stackSize signalFd
  refine ⟨watched.recording, watched.named, recordStart_serials stackSize signalFd, ?_, ?_⟩
  · have wakers := watched.wakers
    rw [recordStart_eq] at wakers ⊢
    exact wakers
  · intro entry member
    rw [recordStart_eq] at member
    cases member

theorem recordStart_orderly (stackSize : Nat) (signalFd : Int32) :
    ∃ phase, (recordStart stackSize signalFd).Orderly phase := by
  refine ⟨Function.update (fun _ => .prepared) 0 .flying, ?_, ?_, ?_⟩
  · have start : Tracked [] (fun _ => Phase.prepared) := fun _ => rfl
    rw [recordStart_eq]
    refine start.one .issued ?_ rfl
    intro other
    simp only [Observation.milestone, eq_comm]
  · rw [recordStart_eq]
    refine ⟨?_, by simp [Ring.absent], by simp, by simp [Ring.absent]⟩
    intro serial above
    have higher : 1 ≤ serial := above
    exact Function.update_of_ne (by omega) _ _
  · have outside : ∀ ut u serial, ¬ Sched.afterInit.CallAt ut u serial := by
      rintro ut u serial ⟨found, call, inside⟩
      by_cases main : ut = 0
      · subst main
        cases found
        cases inside
      · simp [Sched.core, Sched.afterInit, Heap.set_other _ _ main] at found
    refine ⟨?_, ?_⟩
    · intro ut u serial inside
      exact absurd inside (outside ut u serial)
    · intro ut other u v serial inside
      exact absurd inside (outside ut u serial)

/-- In every recording run, up to the wrap of the ids: a failed submission leaves nothing
behind exactly if no successful one ever hands over the entry of a failed call. -/
theorem failed_submission_gone_iff (program : Program) (stackSize : Nat) (signalFd : Int32)
    (inputs : List Input) (s : State)
    (reached : exec (step program) (recordStart stackSize signalFd) inputs = some s)
    (unwrapped : s.sched.nextId < 2 ^ 64) :
    NothingLeftBehind s.history ↔
      Along (step program) (fun before input _ => before.HandsOverOwn program input)
        (recordStart stackSize signalFd) inputs := by
  constructor
  · intro clean
    refine along_of_splits ?_
    rintro front input back before after rfl got taken now ⟨sqe, member, tagged⟩
    obtain ⟨kind, _⟩ := (recording_of_exec got).step taken
    obtain ⟨middle, got', rest⟩ := exec_append.mp reached
    obtain rfl : middle = before := Option.some.inj (got'.symm.trans got)
    obtain ⟨next, taken', rest⟩ := exec_cons.mp rest
    obtain rfl : next = after := Option.some.inj (taken'.symm.trans taken)
    have failed := (step_grows taken).subset (stale_failed_of_exec got member tagged)
    have later := (exec_grows rest).subset
    exact clean.refused sqe.serial (later failed) (later (kind.issues now member))
  · intro own
    have kept : ∀ (before : State) (input : Input) (after : State),
        step program before input = some after → before.HandsOverOwn program input →
        before.Recording ∧ (before.sched.nextId < 2 ^ 64 →
          before.Paired ∧ ∃ phase, before.Orderly phase) →
        after.Recording ∧ (after.sched.nextId < 2 ^ 64 →
          after.Paired ∧ ∃ phase, after.Orderly phase) := by
      intro before input after taken hands ⟨recording, earlier⟩
      obtain ⟨kind, recording'⟩ := recording.step taken
      refine ⟨recording', fun below => ?_⟩
      have counted := kind.nextId_le
      obtain ⟨paired, phase, orderly⟩ := earlier (by omega)
      exact ⟨paired.step taken hands below, orderly.step paired taken hands⟩
    obtain ⟨_, phase, orderly⟩ := (own.invariant kept ⟨recordStart_recording stackSize signalFd,
      fun _ => ⟨recordStart_paired stackSize signalFd, recordStart_orderly stackSize signalFd⟩⟩
      reached).2 unwrapped
    exact nothingLeftBehind_of_orderly fun serial => by rw [orderly.tracked serial]; rfl

/-- A world in which submission fails. -/
def refusing : Answer := { Answer.calm with submit := false }

/-- The main thread reads, and then writes for ever. -/
def readThenWrite : Program
  | none, [] => .call (.read 3 (some [0]) 1)
  | _, _ => .call (.write 4 [0])

theorem refusedRead_gone :
    ∃ s, exec (step readThenWrite) (recordStart 8192 5) [.act refusing, .act refusing] = some s ∧
      .failed 1 ∈ s.history ∧ .failed 2 ∈ s.history ∧ NothingLeftBehind s.history := by
  have ran : (exec (step readThenWrite) (recordStart 8192 5) [.act refusing, .act refusing]).map
      (fun s => (decide (s.sched.nextId < 2 ^ 64), decide (.failed 1 ∈ s.history),
        decide (.failed 2 ∈ s.history))) = some (true, true, true) := by decide +kernel
  obtain ⟨s, reached, facts⟩ := Option.map_eq_some_iff.mp ran
  simp only [Prod.mk.injEq, decide_eq_true_eq] at facts
  refine ⟨s, reached, facts.2.1, facts.2.2, ?_⟩
  refine (failed_submission_gone_iff readThenWrite 8192 5 _ s reached facts.1).mpr ?_
  have failing : ∀ input ∈ [Input.act refusing, .act refusing],
      ∀ before : State, before.HandsOverOwn readThenWrite input := by
    intro input member before
    simp only [List.mem_cons, List.not_mem_nil, or_false, or_self] at member
    subst member
    rintro ⟨submits, _⟩
    cases submits
  exact (along_of_inputs failing).mono fun before _ _ own => own before

/-- The read fails to be submitted and is issued together with the write; its completion
resumes the main thread in the write, which returns the result of the read. -/
theorem refusedRead_answers_write :
    ∃ s, exec (step readThenWrite) (recordStart 8192 5)
        [.act refusing, .act .calm, .post 1 7 [], .loop .calm, .loop .calm] = some s ∧
      .failed 1 ∈ s.history ∧ .issued 1 ∈ s.history ∧ .resumed 1 ∈ s.history ∧
      .answered 2 7 ∈ s.history ∧ .completed 2 7 ∉ s.history ∧ ¬ NothingLeftBehind s.history := by
  have ran : (exec (step readThenWrite) (recordStart 8192 5)
      [.act refusing, .act .calm, .post 1 7 [], .loop .calm, .loop .calm]).map
      (fun s => decide (.failed 1 ∈ s.history ∧ .issued 1 ∈ s.history ∧ .resumed 1 ∈ s.history ∧
        .answered 2 7 ∈ s.history ∧ .completed 2 7 ∉ s.history)) = some true := by decide +kernel
  obtain ⟨s, reached, facts⟩ := Option.map_eq_some_iff.mp ran
  obtain ⟨failed, issued, resumed, answered, uncompleted⟩ := of_decide_eq_true facts
  exact ⟨s, reached, failed, issued, resumed, answered, uncompleted,
    fun clean => clean.refused 1 failed issued⟩

end State

end Librr
