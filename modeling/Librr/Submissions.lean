import Librr.Base.Lifecycle
import Librr.History
import Librr.OneWaker
import Librr.RingMoves

set_option autoImplicit false

namespace Librr

open Lifecycle Transition

/-- What an observation says about the operation `serial`. -/
def Observation.milestone (serial : Nat) : Observation → Option (Milestone Int32)
  | .failed other => if other = serial then some .failed else none
  | .issued other => if other = serial then some .issued else none
  | .completed other res => if other = serial then some (.completed res) else none
  | .resumed other => if other = serial then some .resumed else none
  | .answered other raw => if other = serial then some (.answered raw) else none
  | .switched _ _ _ _ => none
  | .returned _ _ _ => none
  | .mismatch => none

/-- The life of one operation as it was observed. -/
def milestones (history : List Observation) (serial : Nat) : List (Milestone Int32) :=
  history.filterMap (Observation.milestone serial)

theorem milestones_append (front back : List Observation) (serial : Nat) :
    milestones (front ++ back) serial = milestones front serial ++ milestones back serial :=
  List.filterMap_append

section

variable {history : List Observation} {serial : Nat} {res : Int32}

theorem failed_mem (seen : .failed serial ∈ history) : .failed ∈ milestones history serial :=
  List.mem_filterMap.mpr ⟨_, seen, by simp [Observation.milestone]⟩

theorem issued_mem (seen : .issued serial ∈ history) : .issued ∈ milestones history serial :=
  List.mem_filterMap.mpr ⟨_, seen, by simp [Observation.milestone]⟩

theorem answered_mem (seen : .answered serial res ∈ history) :
    .answered res ∈ milestones history serial :=
  List.mem_filterMap.mpr ⟨_, seen, by simp [Observation.milestone]⟩

theorem completed_seen (passed : .completed res ∈ milestones history serial) :
    .completed serial res ∈ history := by
  obtain ⟨x, seen, same⟩ := List.mem_filterMap.mp passed
  cases x <;> simp [Observation.milestone] at same
  obtain ⟨rfl, rfl⟩ := same
  exact seen

end

/-- A call whose submission failed has no operation that is issued later, every other call
returns the result of the operation it prepared, and no completion of an operation whose
call has returned resumes anybody. -/
structure NothingLeftBehind (history : List Observation) : Prop where
  refused : ∀ serial, .failed serial ∈ history → .issued serial ∉ history
  answered : ∀ serial raw, .answered serial raw ∈ history → .completed serial raw ∈ history
  resumed : ∀ front serial back, history = front ++ .resumed serial :: back →
    .failed serial ∉ front ∧ ∀ raw, .answered serial raw ∉ front

/-- It is enough that every operation lives its life in order. -/
theorem nothingLeftBehind_of_orderly {history : List Observation}
    (orderly : ∀ serial, (phaseOf (milestones history serial)).isSome) :
    NothingLeftBehind history := by
  refine ⟨?_, ?_, ?_⟩
  · intro serial failed issued
    exact not_issued_of_failed (orderly serial) (failed_mem failed) (issued_mem issued)
  · intro serial raw answered
    exact completed_seen (completed_of_answered (orderly serial) (answered_mem answered))
  · rintro front serial back rfl
    have order := orderly serial
    rw [milestones_append, show milestones (.resumed serial :: back) serial =
      .resumed :: milestones back serial by simp [milestones, Observation.milestone]] at order
    obtain ⟨unfailed, unanswered⟩ := unanswered_of_resumed order
    exact ⟨fun failed => unfailed (failed_mem failed),
      fun raw answered => unanswered raw (answered_mem answered)⟩

namespace Ring

/-- The operations of the uthreads that the kernel has taken and whose completion has not
been consumed. -/
def live (ring : Ring) : List (UInt64 × Nat) :=
  (ring.inflight.map Sqe.key ++ ring.cq.map Cqe.key).filter fun entry =>
    entry.1 ≠ rrSignalSentinel

/-- The queue holds the entry of a call that could not submit it. -/
def Stale (ring : Ring) : Prop := ∃ sqe ∈ ring.sq, sqe.userData ≠ rrSignalSentinel

instance (ring : Ring) : Decidable ring.Stale := List.decidableBEx _ _

theorem live_complete {ring : Ring} {index : Nat} {sqe : Sqe}
    (flying : ring.inflight[index]? = some sqe) (res : Int32) (data : Bytes) :
    (ring.complete index sqe res data).live.Perm ring.live := by
  have kept := entries_complete flying res data
  unfold entries at kept
  exact ((List.perm_append_left_iff (ring.sq.map Sqe.key)).mp kept).filter _

theorem live_cqeSeen {ring : Ring} {cqe : Cqe} {rest : List Cqe} (first : ring.cq = cqe :: rest)
    (tagged : cqe.userData ≠ rrSignalSentinel) :
    ring.live.Perm (cqe.key :: ring.cqeSeen.live) := by
  have moved : (ring.inflight.map Sqe.key ++ ring.cq.map Cqe.key).Perm
      (cqe.key :: (ring.cqeSeen.inflight.map Sqe.key ++ ring.cqeSeen.cq.map Cqe.key)) := by
    simp only [cqeSeen, first, List.map_cons, List.tail_cons]
    exact List.perm_middle
  have kept := moved.filter fun entry => entry.1 ≠ rrSignalSentinel
  rwa [List.filter_cons_of_pos (by simp [Cqe.key, tagged])] at kept

theorem live_cqeSeen_signal {ring : Ring} {cqe : Cqe} {rest : List Cqe}
    (first : ring.cq = cqe :: rest) (sentinel : cqe.userData = rrSignalSentinel) :
    ring.cqeSeen.live = ring.live := by
  simp [live, cqeSeen, first, Cqe.key, sentinel]

/-- Without a stale entry a submission hands over signal reads and the new entry. -/
theorem live_submit {ring : Ring} (clean : ¬ ring.Stale) (op : IoOp) (tag : UInt64) :
    (ring.push op tag).submit.live.Perm
      ((if tag = rrSignalSentinel then [] else [(tag, ring.fresh)]) ++ ring.live) := by
  have signals : (ring.sq.map Sqe.key).filter (fun entry => entry.1 ≠ rrSignalSentinel) = [] := by
    rw [List.filter_eq_nil_iff]
    rintro entry member apart
    obtain ⟨sqe, inside, rfl⟩ := List.mem_map.mp member
    exact clean ⟨sqe, inside, of_decide_eq_true apart⟩
  have added : [(⟨op, tag, ring.fresh⟩ : Sqe).key].filter (fun entry =>
      entry.1 ≠ rrSignalSentinel) =
      if tag = rrSignalSentinel then [] else [(tag, ring.fresh)] := by
    by_cases signal : tag = rrSignalSentinel <;> simp [Sqe.key, signal]
  simp only [live, push, submit, List.map_append, List.filter_append, signals, List.nil_append,
    List.map_cons, List.map_nil, added, List.append_assoc]
  exact List.perm_append_comm_assoc _ _ _

end Ring

namespace Sched

/-- The uthread is in the asynchronous call that prepared the operation `serial`. -/
def CallAt (s : Sched) (ut : Ptr) (u : Uthread) (serial : Nat) : Prop :=
  s.core ut = some u ∧ ∃ call, u.ctx.frame = .io call serial

/-- Whoever is in a call was in it before, in the same state and with the same result. -/
def KeepsCalls (s t : Sched) : Prop :=
  ∀ ut u serial, t.CallAt ut u serial →
    ∃ v, s.CallAt ut v serial ∧ v.id = u.id ∧ v.state = u.state ∧ v.ioResult = u.ioResult

section

variable {s t : Sched} {cur : Ptr}

theorem keepsCalls_of_core (core : t.core = s.core) : s.KeepsCalls t := by
  rintro ut u serial ⟨found, inside⟩
  exact ⟨u, ⟨by rw [← core]; exact found, inside⟩, rfl, rfl, rfl⟩

theorem KeepsCalls.trans {r : Sched} (first : r.KeepsCalls s) (second : s.KeepsCalls t) :
    r.KeepsCalls t := by
  intro ut u serial inside
  obtain ⟨v, there, id, state, result⟩ := second ut u serial inside
  obtain ⟨w, here, id', state', result'⟩ := first ut v serial there
  exact ⟨w, here, id'.trans id, state'.trans state, result'.trans result⟩

/-- One record changes, and it is in no call afterwards. -/
theorem keepsCalls_of_modify {change : Uthread → Uthread}
    (core : t.core = s.core.modify cur change)
    (outside : ∀ u call serial, (change u).ctx.frame ≠ .io call serial) : s.KeepsCalls t := by
  rintro ut u serial ⟨found, call, inside⟩
  rw [core, Heap.modify_apply] at found
  split at found
  · obtain ⟨w, _, rfl⟩ := Option.map_eq_some_iff.mp found
    exact absurd inside (outside w call serial)
  · exact ⟨u, ⟨found, call, inside⟩, rfl, rfl, rfl⟩

theorem keepsCalls_reply (s : Sched) (cur : Ptr) (action : Action) (reply : Reply) :
    s.KeepsCalls (s.reply cur action reply) :=
  keepsCalls_of_modify (reply_core s cur action reply) (by simp [Context.finish])

theorem keepsCalls_awaited (s : Sched) (target self : Ptr) :
    s.KeepsCalls (s.modify target (awaitedBy self)) := by
  rintro ut u serial ⟨found, call, inside⟩
  rw [awaitedBy_core, Heap.modify_apply] at found
  split at found
  · obtain ⟨w, there, rfl⟩ := Option.map_eq_some_iff.mp found
    exact ⟨w, ⟨there, call, inside⟩, rfl, rfl, rfl⟩
  · exact ⟨u, ⟨found, call, inside⟩, rfl, rfl, rfl⟩

theorem keepsCalls_created {fresh : Ptr} {record : Uthread}
    (core : t.core = s.core.set fresh record) (outside : record.ctx.frame = .user) :
    s.KeepsCalls t := by
  rintro ut u serial ⟨found, call, inside⟩
  rw [core, Heap.set_apply] at found
  split at found
  · cases found
    rw [outside] at inside
    cases inside
  · exact ⟨u, ⟨found, call, inside⟩, rfl, rfl, rfl⟩

/-- The one that an exit wakes is in a join. -/
theorem keepsCalls_exit {tags : List UInt64} {u : Uthread} (wakers : s.Wakers tags)
    (current : s.current = some cur) (on : s.schedRunning = true) (found : s.core cur = some u)
    (runs : u.state = .running) (value : UInt64) :
    s.KeepsCalls (s.rrSchedulerExitCurrent value) := by
  rintro ut v serial ⟨present, call, inside⟩
  rw [rrSchedulerExitCurrent_core current on, found, Option.bind_some] at present
  obtain ⟨w, there, rfl⟩ := Option.map_eq_some_iff.mp present
  by_cases own : ut = cur
  · rw [if_pos own] at inside
    cases inside
  rw [if_neg own] at inside ⊢
  by_cases joined : u.joinWaiter = some ut
  · obtain ⟨w', here, blocked, id, out, frame⟩ :=
      (wakers.joins cur ut).mp ⟨u, found, by simp [runs], joined⟩
    rw [there] at here
    cases here
    rw [if_pos joined, wakeRecord, if_pos blocked] at inside
    rw [show w.ctx.frame = .io call serial from inside] at frame
    cases frame
  · rw [if_neg joined] at inside ⊢
    exact ⟨w, ⟨there, call, inside⟩, rfl, rfl, rfl⟩

theorem KeepsCalls.performed {stackSize : Nat} {tags : List UInt64} {u : Uthread}
    {answer : CreateAnswer} {action : Action} (wakers : s.Wakers tags) (inv : s.QueueInvariant)
    (user : s.control = .user) (running : s.running = some (cur, u))
    (performed : s.Local stackSize cur u answer action t) : s.KeepsCalls t := by
  obtain ⟨current, found, runs⟩ := inv.running_at user running
  cases performed with
  | create fn =>
      refine KeepsCalls.trans ?_ (keepsCalls_reply _ _ _ _)
      rcases s.uthreadCreate_effect stackSize fn answer with
        ⟨core, _⟩ | ⟨start, mem, _, core, _⟩
      · exact keepsCalls_of_core core
      · exact keepsCalls_created core rfl
  | yield =>
      exact keepsCalls_of_modify (rrSchedulerYieldCurrent_core current inv.on) (by simp [suspend])
  | joinNow id out reply answered => exact keepsCalls_reply _ _ _ _
  | joinWait id out target record hit other live free =>
      have still : (s.modify target (awaitedBy cur)).current = some cur := current
      have core := rrSchedulerBlockCurrent_core still inv.on (.joining id out target)
      exact (keepsCalls_awaited s target cur).trans (keepsCalls_of_modify core (by simp [suspend]))
  | exit value => exact keepsCalls_exit wakers current inv.on found runs value
  | ret fn started => exact keepsCalls_exit wakers current inv.on found runs 0
  | stop main => exact keepsCalls_of_core rfl

end

end Sched

namespace State

/-- The step calls `io_uring_submit`, which succeeds. -/
def SubmitsNow (program : Program) (s : State) : Input → Prop
  | .act answer => answer.submit = true ∧ s.ring.sq.length ≠ ringEntries ∧
    ∃ ut u call op, s.sched.running = some (ut, u) ∧
      program u.startFn u.ctx.replies = .call call ∧ call.wrapper.issue answer = .submit op
  | .loop answer => answer.submit = true ∧ s.ring.sq.length ≠ ringEntries ∧
    answer.interrupted = false ∧ s.sched.runqHead = none ∧ s.ring.signalFd ≠ none ∧
    ∃ cqe rest, s.ring.cq = cqe :: rest ∧ cqe.userData = rrSignalSentinel ∧
      ¬ (sizeofSiginfo ≤ cqe.res ∧ (s.ring.ssiSigno = SIGINT ∨ s.ring.ssiSigno = SIGTERM))
  | .post _ _ _ => False

/-- No entry that a failed call left behind is handed over by the step. -/
def HandsOverOwn (program : Program) (s : State) (input : Input) : Prop :=
  s.SubmitsNow program input → ¬ s.ring.Stale

/-- The operations the kernel has are those of the uthreads that wait for just them. -/
structure Paired (s : State) : Prop where
  recording : s.Recording
  named : s.sched.Named
  serials : s.ring.Serials
  wakers : s.sched.Wakers (rrSignalSentinel :: s.ring.live.map Prod.fst)
  matched : ∀ entry ∈ s.ring.live, ∀ ut u serial, s.sched.CallAt ut u serial →
    u.state = .blocked → u.id = entry.1 → serial = entry.2

/-- A consumed completion finds the uthread whose call it completes. -/
theorem Paired.owner {s : State} (inv : s.Paired) {cqe : Cqe} {rest : List Cqe}
    (first : s.ring.cq = cqe :: rest) (tagged : cqe.userData ≠ rrSignalSentinel) :
    ∃ ut u, s.sched.heap ut = some u ∧ s.sched.rrSchedulerFind cqe.userData = some (ut, u) ∧
      u.state = .blocked ∧ s.sched.CallAt ut u.core cqe.serial := by
  have live : cqe.key ∈ s.ring.live := (Ring.live_cqeSeen first tagged).mem_iff.mpr (by simp)
  obtain ⟨ut, u, found, named, blocked, call, serial, inside⟩ :=
    inv.wakers.owner cqe.userData (by
      exact List.mem_cons_of_mem _ (List.mem_map.mpr ⟨cqe.key, live, rfl⟩)) tagged
  obtain ⟨v, here, rfl⟩ := Sched.of_core_some found
  have hit := inv.named.find_eq here
  rw [show v.id = cqe.userData from named] at hit
  have same := inv.matched cqe.key live ut v.core serial ⟨found, call, inside⟩ blocked named
  rw [same] at inside
  exact ⟨ut, v, here, hit, blocked, found, call, inside⟩

/-- The ring holds the same operations, and nobody enters a call. -/
theorem Paired.kept {s t : State} (inv : s.Paired) (live : t.ring.live.Perm s.ring.live)
    (calls : s.sched.KeepsCalls t.sched)
    (wakers : t.sched.Wakers (rrSignalSentinel :: s.ring.live.map Prod.fst)) :
    t.sched.Wakers (rrSignalSentinel :: t.ring.live.map Prod.fst) ∧
      ∀ entry ∈ t.ring.live, ∀ ut u serial, t.sched.CallAt ut u serial → u.state = .blocked →
        u.id = entry.1 → serial = entry.2 := by
  refine ⟨wakers.perm ((live.map Prod.fst).cons _), ?_⟩
  intro entry member ut u serial inside blocked named
  obtain ⟨v, there, id, state, _⟩ := calls ut u serial inside
  exact inv.matched entry (live.mem_iff.mp member) ut v serial there (state.trans blocked)
    (id.trans named)

/-- Nothing that the kernel has carries the id of a running uthread. -/
theorem Paired.running_unpaired {s : State} (inv : s.Paired) {cur : Ptr} {u : Uthread}
    (found : s.sched.heap cur = some u) (runs : u.state = .running) :
    ∀ entry ∈ s.ring.live, entry.1 ≠ u.id := by
  intro entry member same
  have tagged : entry.1 ≠ rrSignalSentinel := of_decide_eq_true (List.mem_filter.mp member).2
  obtain ⟨owner, v, here, named, blocked, _⟩ := inv.wakers.owner entry.1
    (List.mem_cons_of_mem _ (List.mem_map_of_mem member)) tagged
  obtain rfl := inv.named.core_inj here (Sched.core_some found) (named.trans same)
  rw [Sched.core_some found] at here
  cases here
  rw [show u.core.state = .running from runs] at blocked
  cases blocked

/-- An interrupted wait consumes nothing. -/
theorem loop_interrupted {program : Program} {s t : State} {answer : WaitAnswer}
    (idle : s.sched.control = .scheduler) (empty : s.sched.runqHead = none)
    (broken : answer.interrupted = true) (taken : step program s (.loop answer) = some t) :
    t = s := by
  simp only [step, if_pos idle, schedulerLoop, Sched.runqPopFront, empty, rrIoWait, broken,
    Bool.or_true, ↓reduceIte, Option.some.injEq] at taken
  exact taken.symm

/-- The signal read that is consumed and submitted again is no uthread's. -/
theorem live_rearmed {s : State} {cqe : Cqe} {rest : List Cqe} {submitted : Bool}
    (first : s.ring.cq = cqe :: rest) (sentinel : cqe.userData = rrSignalSentinel)
    (clean : submitted = true → s.ring.sq.length ≠ ringEntries → s.ring.signalFd ≠ none →
      ¬ s.ring.Stale) :
    (s.rearmSignalRead submitted).cqeSeen.ring.live.Perm s.ring.live := by
  have kept : (s.rearmSignalRead submitted).ring.cq = cqe :: rest := by
    rw [(rearmSignalRead_ring s submitted).1, first]
  rw [cqeSeen, Ring.live_cqeSeen_signal kept sentinel]
  rcases s.rearmSignalRead_cases submitted with ⟨_, same⟩ | ⟨fd, armed, room, same⟩
  · rw [same]
  · rw [same]
    cases submitted with
    | true =>
        have unstale := clean rfl room (by simp [armed])
        have handed := Ring.live_submit unstale (.read fd 128 0) rrSignalSentinel
        rwa [if_pos rfl, List.nil_append] at handed
    | false => exact .refl _

/-- The wait that consumes a signal read is not interrupted. -/
theorem submitsNow_of_rearm {program : Program} {s : State} {answer : WaitAnswer} {t : State}
    {cqe : Cqe} {rest : List Cqe} (taken : step program s (.loop answer) = some t)
    (idle : s.sched.control = .scheduler) (empty : s.sched.runqHead = none)
    (first : s.ring.cq = cqe :: rest) (sentinel : cqe.userData = rrSignalSentinel)
    (goesOn : ¬ (sizeofSiginfo ≤ cqe.res ∧
      (s.ring.ssiSigno = SIGINT ∨ s.ring.ssiSigno = SIGTERM)))
    (consumed : t.ring.cq = rest) (submitted : answer.submit = true)
    (room : s.ring.sq.length ≠ ringEntries) (armed : s.ring.signalFd ≠ none) :
    s.SubmitsNow program (.loop answer) := by
  refine ⟨submitted, room, ?_, empty, armed, cqe, rest, first, sentinel, goesOn⟩
  rw [← Bool.not_eq_true]
  intro broken
  rw [loop_interrupted idle empty broken taken, first] at consumed
  exact List.cons_ne_self cqe rest consumed

theorem rearmed_cq {s : State} {cqe : Cqe} {rest : List Cqe} (first : s.ring.cq = cqe :: rest)
    (submitted : Bool) : (s.rearmSignalRead submitted).cqeSeen.ring.cq = rest := by
  rw [cqeSeen, Ring.cqeSeen, (rearmSignalRead_ring s submitted).1, first]
  rfl

theorem Paired.handed {s : State} {ut : Ptr} {u : Uthread} (inv : s.Paired)
    (user : s.sched.control = .user) (running : s.sched.running = some (ut, u))
    (clean : ¬ s.ring.Stale) (op : IoOp) (call : Call) :
    (s.hand op call).sched.Wakers (rrSignalSentinel :: (s.hand op call).ring.live.map Prod.fst) ∧
      ∀ entry ∈ (s.hand op call).ring.live, ∀ ut u serial,
        (s.hand op call).sched.CallAt ut u serial → u.state = .blocked → u.id = entry.1 →
          serial = entry.2 := by
  obtain ⟨current, found, runs⟩ := inv.recording.queue.running_at user running
  have present := (Sched.of_running running).2
  have tag : s.sched.currentId = u.id := by simp [Sched.currentId, running]
  have tagged := inv.named.id_ne_sentinel present
  have core := Sched.rrSchedulerBlockCurrent_core current inv.recording.queue.on
    (.io call s.ring.fresh)
  have live := Ring.live_submit clean op s.sched.currentId
  rw [tag, if_neg tagged, List.singleton_append] at live
  have wakers := inv.wakers.submitted found runs
    (fun other w here same => inv.named.core_inj here found same) tagged core
  have ring : (s.hand op call).ring = (s.ring.push op u.id).submit := by rw [hand, tag]
  rw [ring]
  refine ⟨wakers.perm (((live.map Prod.fst).cons _).trans (.swap _ _ _)), ?_⟩
  rintro entry member other w serial ⟨here, call', inside⟩ blocked named
  rw [hand, core, Heap.modify_apply] at here
  by_cases own : other = ut
  · subst own
    rw [if_pos rfl, found] at here
    cases here
    cases inside
    rcases List.mem_cons.mp (live.mem_iff.mp member) with rfl | old
    · rfl
    · exact absurd named.symm (inv.running_unpaired present runs entry old)
  · rw [if_neg own] at here
    rcases List.mem_cons.mp (live.mem_iff.mp member) with rfl | old
    · exact absurd (inv.named.core_inj here found named) own
    · exact inv.matched entry old other w serial ⟨here, call', inside⟩ blocked named

/-- A completion is consumed, and the uthread is no longer blocked in the call. -/
theorem Paired.woken {s : State} (inv : s.Paired) {cqe : Cqe} {rest : List Cqe}
    (first : s.ring.cq = cqe :: rest) (tagged : cqe.userData ≠ rrSignalSentinel) :
    (s.sched.rrSchedulerWakeById cqe.userData cqe.res none 0).Wakers
        (rrSignalSentinel :: s.ring.cqeSeen.live.map Prod.fst) ∧
      ∀ entry ∈ s.ring.cqeSeen.live, ∀ ut u serial,
        (s.sched.rrSchedulerWakeById cqe.userData cqe.res none 0).CallAt ut u serial →
          u.state = .blocked → u.id = entry.1 → serial = entry.2 := by
  obtain ⟨ut, v, here, hit, blocked, _⟩ := inv.owner first tagged
  have core := s.sched.rrSchedulerWakeById_core cqe.userData cqe.res none 0
  simp only [hit] at core
  have live := Ring.live_cqeSeen first tagged
  have wakers := inv.wakers.perm (((live.map Prod.fst).cons _).trans (.swap _ _ _)).symm
  refine ⟨wakers.wake tagged ?_ (Sched.core_some here) (Sched.rrSchedulerFind_some hit).2.2 ?_
    core, ?_⟩
  · intro _ _ _ _ one other same
    exact inv.named.core_inj one other same
  · exact fun _ => rfl
  · rintro entry member other w serial ⟨there, call, inside⟩ waits named
    rw [core, Heap.modify_apply] at there
    by_cases own : other = ut
    · subst own
      rw [if_pos rfl, Sched.core_some here] at there
      cases there
      rw [Sched.wakeRecord, if_pos (show v.core.state = .blocked from blocked)] at waits
      cases waits
    · rw [if_neg own] at there
      exact inv.matched entry (live.mem_iff.mpr (List.mem_cons_of_mem _ member)) other w serial
        ⟨there, call, inside⟩ waits named

theorem Paired.returned {s : State} {ut : Ptr} {u : Uthread} (inv : s.Paired) (base : State)
    (user : s.sched.control = .user) (running : s.sched.running = some (ut, u))
    (same : base.sched = s.sched) (args : LogArgs) (call : Call) (result : CallResult) :
    s.sched.KeepsCalls ((base.rrLogSyscall args).returnCall ut call result).sched ∧
      ((base.rrLogSyscall args).returnCall ut call result).sched.Wakers
        (rrSignalSentinel :: s.ring.live.map Prod.fst) := by
  obtain ⟨_, found, runs⟩ := inv.recording.queue.running_at user running
  rw [loggedReturn_sched, same]
  exact ⟨Sched.keepsCalls_reply _ _ _ _, inv.wakers.reply found runs _ _⟩

theorem Paired.rearmed {s base : State} (inv : s.Paired) (ring : base.ring = s.ring)
    (sched : base.sched = s.sched) {cqe : Cqe} {rest : List Cqe} {submitted : Bool}
    (first : s.ring.cq = cqe :: rest) (sentinel : cqe.userData = rrSignalSentinel)
    (clean : submitted = true → s.ring.sq.length ≠ ringEntries → s.ring.signalFd ≠ none →
      ¬ s.ring.Stale) :
    (base.rearmSignalRead submitted).cqeSeen.sched.Wakers (rrSignalSentinel ::
        (base.rearmSignalRead submitted).cqeSeen.ring.live.map Prod.fst) ∧
      ∀ entry ∈ (base.rearmSignalRead submitted).cqeSeen.ring.live, ∀ ut u serial,
        (base.rearmSignalRead submitted).cqeSeen.sched.CallAt ut u serial → u.state = .blocked →
          u.id = entry.1 → serial = entry.2 := by
  have kept : (base.rearmSignalRead submitted).cqeSeen.sched = s.sched := by
    rw [cqeSeen, (rearmSignalRead_kept _ _).1, sched]
  rw [← ring] at first clean
  have live := live_rearmed first sentinel clean
  rw [ring] at live
  exact inv.kept live (Sched.keepsCalls_of_core (by rw [kept])) (by rw [kept]; exact inv.wakers)

theorem Paired.step {program : Program} {s t : State} {input : Input} (inv : s.Paired)
    (taken : Librr.step program s input = some t) (own : s.HandsOverOwn program input)
    (bounded : t.sched.nextId < 2 ^ 64) : t.Paired := by
  obtain ⟨kind, recording⟩ := inv.recording.step taken
  have named := kind.named bounded inv.named
  have serials := Ring.moves_keep (fun _ _ move => Ring.Serials.move move) kind.moves inv.serials
  suffices pairs : t.sched.Wakers (rrSignalSentinel :: t.ring.live.map Prod.fst) ∧
      ∀ entry ∈ t.ring.live, ∀ ut u serial, t.sched.CallAt ut u serial → u.state = .blocked →
        u.id = entry.1 → serial = entry.2 from ⟨recording, named, serials, pairs.1, pairs.2⟩
  cases kind with
  | perform answer ut u sched user running performed =>
      exact inv.kept (.refl _) (.performed inv.wakers inv.recording.queue user running performed)
        (inv.wakers.performed inv.recording.queue user running performed)
  | immediate answer ut u call result args user running next done =>
      obtain ⟨calls, wakers⟩ := inv.returned s user running rfl args call result
      exact inv.kept (by rw [loggedReturn_ring]) calls wakers
  | full answer ut u call op finish user running next submits half filled =>
      obtain ⟨calls, wakers⟩ := inv.returned s user running rfl (finish (-1) []).2 call
        (finish (-1) []).1
      exact inv.kept (by rw [loggedReturn_ring]) calls wakers
  | refused answer ut u call op finish user running next submits half room failed =>
      obtain ⟨calls, wakers⟩ := inv.returned (s.leave op) user running rfl
        (finish (-1) []).2 call (finish (-1) []).1
      exact inv.kept (by rw [loggedReturn_ring]; exact .refl _) calls wakers
  | submitted answer ut u call op finish user running next submits half room accepted =>
      have clean := own ⟨accepted, room, ut, u, call, op, running, next, submits⟩
      exact inv.handed user running clean op call
  | interrupted answer idle empty broken => exact ⟨inv.wakers, inv.matched⟩
  | killed answer cqe rest idle empty first sentinel full fatal =>
      exact inv.kept (by rw [(rrLogSignal_same s _ _).ring]) (Sched.keepsCalls_of_core rfl)
        (inv.wakers.of_core rfl)
  | signal answer cqe rest idle empty first sentinel full harmless =>
      have same := rrLogSignal_same s s.ring.ssiSigno s.sched.currentId.toUInt32
      refine inv.rearmed same.ring same.sched first sentinel fun submitted room armed => ?_
      refine own (submitsNow_of_rearm taken idle empty first sentinel (fun fatal =>
        harmless fatal.2) ?_ submitted room armed)
      exact rearmed_cq (by rw [same.ring, first]) answer.submit
  | short answer cqe rest idle empty first sentinel short =>
      refine inv.rearmed rfl rfl first sentinel fun submitted room armed => ?_
      exact own (submitsNow_of_rearm taken idle empty first sentinel (fun fatal => short fatal.1)
        (rearmed_cq first answer.submit) submitted room armed)
  | wake answer cqe rest idle empty first tagged => exact inv.woken first tagged
  | dispatch answer next u idle head found runnable =>
      obtain ⟨trace, core⟩ := switchTo_core (t := s.logSwitch u.id)
        (head_resumes inv.recording.framed found runnable) found
      have known : s.sched.core next = some u.core := by
        rw [← Sched.runqPopFront_core, Sched.core_some found]
      have ready : u.core.state = .runnable := runnable
      have ring : ((s.logSwitch u.id).switchTo s.sched.runqPopFront.2 next u).ring = s.ring := by
        rw [switchTo_eq, (resume_kept _ next u).2.1, arrive, (logSwitch_same s u.id).ring]
      exact inv.kept (by rw [ring]) (Sched.keepsCalls_of_modify core (by simp))
        (inv.wakers.awake core known (by simp [ready]) (by simp) rfl)
  | post index res data sqe live flying =>
      exact inv.kept (Ring.live_complete flying res data) (Sched.keepsCalls_of_core rfl) inv.wakers

end State

namespace State

/-- Whatever waits in the queue was there, is a signal read, or has just been left by a
call that failed. -/
theorem RecordStep.sq_cases {program : Program} {s t : State} {input : Input}
    (kind : RecordStep program s input t) {sqe : Sqe} (member : sqe ∈ t.ring.sq) :
    sqe ∈ s.ring.sq ∨ sqe.userData = rrSignalSentinel ∨ .failed sqe.serial ∈ t.history := by
  -- Rearming the signal read adds at most a signal read.
  have rearmed : ∀ (base : State) (submitted : Bool), base.ring = s.ring →
      sqe ∈ (base.rearmSignalRead submitted).ring.sq →
      sqe ∈ s.ring.sq ∨ sqe.userData = rrSignalSentinel := by
    intro base submitted same inside
    rw [← same]
    rcases base.rearmSignalRead_cases submitted with ⟨_, unchanged⟩ | ⟨fd, _, _, done⟩
    · rw [unchanged] at inside
      exact .inl inside
    · rw [done] at inside
      cases submitted with
      | true => cases inside
      | false =>
          rcases List.mem_append.mp inside with old | new
          · exact .inl old
          · cases List.mem_singleton.mp new
            exact .inr rfl
  cases kind with
  | perform answer ut u sched user running performed => exact .inl member
  | immediate answer ut u call result args user running next done =>
      rw [loggedReturn_ring] at member
      exact .inl member
  | full answer ut u call op finish user running next submits half filled =>
      rw [loggedReturn_ring] at member
      exact .inl member
  | refused answer ut u call op finish user running next submits half room failed =>
      rw [loggedReturn_ring] at member
      rw [loggedReturn_history]
      rcases List.mem_append.mp member with old | new
      · exact .inl old
      · cases List.mem_singleton.mp new
        exact .inr (.inr (by simp [leave]))
  | submitted answer ut u call op finish user running next submits half room accepted =>
      cases member
  | interrupted answer idle empty broken => exact .inl member
  | killed answer cqe rest idle empty first sentinel full fatal =>
      rw [(rrLogSignal_same s _ _).ring] at member
      exact .inl member
  | signal answer cqe rest idle empty first sentinel full harmless =>
      have same := (rrLogSignal_same s s.ring.ssiSigno s.sched.currentId.toUInt32).ring
      exact (rearmed _ answer.submit same member).imp_right .inl
  | short answer cqe rest idle empty first sentinel short =>
      exact (rearmed s answer.submit rfl member).imp_right .inl
  | wake answer cqe rest idle empty first tagged => exact .inl member
  | dispatch answer next u idle head found runnable =>
      rw [switchTo_eq, (resume_kept _ next u).2.1, arrive, (logSwitch_same s u.id).ring] at member
      exact .inl member
  | post index res data sqe' live flying => exact .inl member

/-- In every recording run, what a stale entry is. -/
theorem stale_failed_of_exec {program : Program} {stackSize : Nat} {signalFd : Int32}
    {inputs : List Input} {s : State}
    (reached : exec (step program) (recordStart stackSize signalFd) inputs = some s) {sqe : Sqe}
    (member : sqe ∈ s.ring.sq) (tagged : sqe.userData ≠ rrSignalSentinel) :
    .failed sqe.serial ∈ s.history := by
  have kept : ∀ before input after, step program before input = some after →
      (before.Recording ∧ ∀ sqe ∈ before.ring.sq, sqe.userData ≠ rrSignalSentinel →
        .failed sqe.serial ∈ before.history) →
      after.Recording ∧ ∀ sqe ∈ after.ring.sq, sqe.userData ≠ rrSignalSentinel →
        .failed sqe.serial ∈ after.history := by
    rintro before input after taken ⟨recording, failed⟩
    obtain ⟨kind, next⟩ := recording.step taken
    refine ⟨next, fun sqe member tagged => ?_⟩
    rcases kind.sq_cases member with old | signal | new
    · exact (step_grows taken).subset (failed sqe old tagged)
    · exact absurd signal tagged
    · exact new
  refine (exec_invariant kept ⟨recordStart_recording stackSize signalFd, ?_⟩ reached).2 sqe member
    tagged
  intro sqe member
  cases member

/-- A successful submission hands over the whole queue. -/
theorem RecordStep.issues {program : Program} {s t : State} {input : Input}
    (kind : RecordStep program s input t) (now : s.SubmitsNow program input) {sqe : Sqe}
    (member : sqe ∈ s.ring.sq) : .issued sqe.serial ∈ t.history := by
  have handed : ∀ (op : IoOp) (tag : UInt64) (history : List Observation), .issued sqe.serial ∈
      history ++ (s.ring.push op tag).sq.map fun sqe => .issued sqe.serial := by
    intro op tag history
    refine List.mem_append_right _ (List.mem_map.mpr ⟨sqe, ?_, rfl⟩)
    exact List.mem_append_left _ member
  have rearmed : ∀ base : State, base.ring = s.ring → s.ring.sq.length ≠ ringEntries →
      s.ring.signalFd ≠ none → .issued sqe.serial ∈ (base.rearmSignalRead true).history := by
    intro base same room armed
    rw [← same] at room armed handed
    rcases base.rearmSignalRead_cases true with ⟨none | full, _⟩ | ⟨fd, _, _, done⟩
    · exact absurd none armed
    · exact absurd full room
    · rw [done, if_pos rfl]
      exact handed _ _ _
  cases kind with
  | perform answer ut u sched user running performed =>
      obtain ⟨_, _, ut', u', call, op, running', next, _⟩ := now
      rw [running] at running'
      cases running'
      rw [next] at performed
      cases performed
  | immediate answer ut u call result args user running next done =>
      obtain ⟨_, _, ut', u', call', op, running', next', submits⟩ := now
      rw [running] at running'
      cases running'
      rw [next] at next'
      cases next'
      rw [done] at submits
      cases submits
  | full answer ut u call op finish user running next submits half filled =>
      exact absurd filled now.2.1
  | refused answer ut u call op finish user running next submits half room failed =>
      rw [now.1] at failed
      cases failed
  | submitted answer ut u call op finish user running next submits half room accepted =>
      exact handed _ _ _
  | interrupted answer idle empty broken =>
      rw [now.2.2.1] at broken
      cases broken
  | killed answer cqe rest idle empty first sentinel full fatal =>
      obtain ⟨_, _, _, _, _, cqe', rest', first', _, goesOn⟩ := now
      rw [first] at first'
      cases first'
      exact absurd ⟨full, fatal⟩ goesOn
  | signal answer cqe rest idle empty first sentinel full harmless =>
      have same := (rrLogSignal_same s s.ring.ssiSigno s.sched.currentId.toUInt32).ring
      rw [now.1]
      exact rearmed _ same now.2.1 now.2.2.2.2.1
  | short answer cqe rest idle empty first sentinel short =>
      rw [now.1]
      exact rearmed s rfl now.2.1 now.2.2.2.2.1
  | wake answer cqe rest idle empty first tagged =>
      obtain ⟨_, _, _, _, _, cqe', rest', first', sentinel, _⟩ := now
      rw [first] at first'
      cases first'
      exact absurd sentinel tagged
  | dispatch answer next u idle head found runnable =>
      rw [now.2.2.2.1] at head
      cases head
  | post index res data sqe' live flying => exact now.elim

end State

end Librr
