import Librr.Logging
import Librr.Numbering

set_option autoImplicit false

namespace Librr

open Transition

/-- Blocked inside an asynchronous call. -/
def Uthread.WaitsForIo (u : Uthread) : Prop :=
  u.state = .blocked ∧ ∃ call serial, u.ctx.frame = .io call serial

/-- Blocked inside a join of `target`. -/
def Uthread.WaitsForJoin (u : Uthread) (target : Ptr) : Prop :=
  u.state = .blocked ∧ ∃ id out, u.ctx.frame = .joining id out target

theorem Uthread.WaitsForIo.not_join {u : Uthread} (waits : u.WaitsForIo) (target : Ptr) :
    ¬ u.WaitsForJoin target := by
  obtain ⟨_, call, serial, frame⟩ := waits
  rintro ⟨_, id, out, other⟩
  rw [frame] at other
  cases other

theorem Uthread.WaitsForJoin.not_io {u : Uthread} {target : Ptr} (waits : u.WaitsForJoin target) :
    ¬ u.WaitsForIo := fun io => io.not_join target waits

theorem Uthread.WaitsForJoin.target_inj {u : Uthread} {target other : Ptr}
    (one : u.WaitsForJoin target) (two : u.WaitsForJoin other) : target = other := by
  obtain ⟨_, id, out, frame⟩ := one
  obtain ⟨_, id', out', frame'⟩ := two
  rw [frame] at frame'
  cases frame'
  rfl

/-- Whoever is not blocked waits for nothing. -/
theorem Uthread.idle {u : Uthread} (awake : u.state ≠ .blocked) :
    ¬ u.WaitsForIo ∧ ∀ target, ¬ u.WaitsForJoin target :=
  ⟨fun waits => awake waits.1, fun _ waits => awake waits.1⟩

namespace Sched

theorem wakeRecord_alive (change : Uthread → Uthread)
    (kept : ∀ v, (change v).joinWaiter = v.joinWaiter) (u : Uthread) :
    ((wakeRecord change u).state ≠ .done ↔ u.state ≠ .done) ∧
      (wakeRecord change u).joinWaiter = u.joinWaiter := by
  unfold wakeRecord
  split
  · rename_i blocked
    simp [blocked, kept]
  · simp

theorem wakeRecord_idle {u : Uthread} (blocked : u.state = .blocked)
    (change : Uthread → Uthread) :
    ¬ (wakeRecord change u).WaitsForIo ∧ ∀ target, ¬ (wakeRecord change u).WaitsForJoin target :=
  Uthread.idle (by simp [wakeRecord, blocked])

/-- The uthread `v` is not done and `ut` is its `join_waiter`. -/
def Awaits (s : Sched) (v ut : Ptr) : Prop :=
  ∃ w, s.core v = some w ∧ w.state ≠ .done ∧ w.joinWaiter = some ut

/-- The uthread `ut` is blocked in a join of `v`. -/
def JoinsAt (s : Sched) (ut v : Ptr) : Prop := ∃ u, s.core ut = some u ∧ u.WaitsForJoin v

/-- The uthread `ut` has the id `tag` and is blocked in an asynchronous call. -/
def IoAt (s : Sched) (ut : Ptr) (tag : UInt64) : Prop :=
  ∃ u, s.core ut = some u ∧ u.id = tag ∧ u.WaitsForIo

/-- Who is going to wake whom, `tags` being the `user_data` of the outstanding
operations: the join waiters are the uthreads blocked in a join, and the tags are those
of the uthreads blocked in a call, each once, and of the one signal read. -/
structure Wakers (s : Sched) (tags : List UInt64) : Prop where
  joins : ∀ v ut, s.Awaits v ut ↔ s.JoinsAt ut v
  owner : ∀ tag ∈ tags, tag ≠ rrSignalSentinel → ∃ ut, s.IoAt ut tag
  single : ∀ ut tag, s.IoAt ut tag → tags.count tag = 1
  signal : tags.count rrSignalSentinel = 1

section Records

variable {s t : Sched} {change : Ptr → Uthread → Uthread}

theorem awaits_map (core : ∀ ut, t.core ut = (s.core ut).map (change ut)) (v ut : Ptr) :
    t.Awaits v ut ↔ ∃ w, s.core v = some w ∧ (change v w).state ≠ .done ∧
      (change v w).joinWaiter = some ut := by
  simp [Awaits, core]

theorem joinsAt_map (core : ∀ ut, t.core ut = (s.core ut).map (change ut)) (ut v : Ptr) :
    t.JoinsAt ut v ↔ ∃ u, s.core ut = some u ∧ (change ut u).WaitsForJoin v := by
  simp [JoinsAt, core]

theorem ioAt_map (core : ∀ ut, t.core ut = (s.core ut).map (change ut)) (ut : Ptr)
    (tag : UInt64) :
    t.IoAt ut tag ↔ ∃ u, s.core ut = some u ∧ (change ut u).id = tag ∧
      (change ut u).WaitsForIo := by
  simp [IoAt, core]

end Records

section Steps

variable {s t : Sched} {tags : List UInt64}

theorem Wakers.perm (wakers : s.Wakers tags) {other : List UInt64} (same : other.Perm tags) :
    s.Wakers other := by
  refine ⟨wakers.joins, ?_, ?_, ?_⟩
  · intro tag member
    exact wakers.owner tag (same.mem_iff.mp member)
  · intro ut tag waits
    rw [same.count_eq]
    exact wakers.single ut tag waits
  · rw [same.count_eq]
    exact wakers.signal

/-- Only the waits of the scheduler matter. -/
theorem Wakers.congr (wakers : s.Wakers tags) (joins : ∀ v ut, t.Awaits v ut ↔ t.JoinsAt ut v)
    (io : ∀ ut tag, t.IoAt ut tag ↔ s.IoAt ut tag) : t.Wakers tags := by
  refine ⟨joins, ?_, ?_, wakers.signal⟩
  · intro tag member tagged
    obtain ⟨ut, waits⟩ := wakers.owner tag member tagged
    exact ⟨ut, (io ut tag).mpr waits⟩
  · intro ut tag waits
    exact wakers.single ut tag ((io ut tag).mp waits)

/-- One record that is awake before and after. -/
theorem Wakers.awake {cur : Ptr} {u : Uthread} {change : Uthread → Uthread}
    (wakers : s.Wakers tags) (core : t.core = s.core.modify cur change)
    (found : s.core cur = some u) (before : u.state ≠ .blocked ∧ u.state ≠ .done)
    (after : (change u).state ≠ .blocked ∧ (change u).state ≠ .done)
    (waiter : (change u).joinWaiter = u.joinWaiter) : t.Wakers tags := by
  have records : ∀ ut, t.core ut = (s.core ut).map fun v => if ut = cur then change v else v :=
    fun ut => by rw [core, Heap.modify_eq_map]
  obtain ⟨noIo, noJoin⟩ := Uthread.idle before.1
  obtain ⟨noIo', noJoin'⟩ := Uthread.idle after.1
  have awaits : ∀ v ut, t.Awaits v ut ↔ s.Awaits v ut := by
    intro v ut
    rw [awaits_map records]
    by_cases own : v = cur
    · simp [Awaits, own, found, before.2, after.2, waiter]
    · simp [Awaits, own]
  have joins : ∀ ut v, t.JoinsAt ut v ↔ s.JoinsAt ut v := by
    intro ut v
    rw [joinsAt_map records]
    by_cases own : ut = cur
    · simp [JoinsAt, own, found, noJoin, noJoin']
    · simp [JoinsAt, own]
  apply wakers.congr
  · intro v ut
    rw [awaits, joins, wakers.joins]
  · intro ut tag
    rw [ioAt_map records]
    by_cases own : ut = cur
    · simp [IoAt, own, found, noIo, noIo']
    · simp [IoAt, own]

theorem Wakers.reply {cur : Ptr} {u : Uthread} (wakers : s.Wakers tags)
    (found : s.core cur = some u) (runs : u.state = .running) (action : Action) (reply : Reply) :
    (s.reply cur action reply).Wakers tags :=
  wakers.awake (reply_core s cur action reply) found (by simp [runs]) (by simp [runs]) rfl

/-- A fresh record neither waits nor is waited for. -/
theorem Wakers.created {fresh : Ptr} {record : Uthread} (wakers : s.Wakers tags)
    (core : t.core = s.core.set fresh record) (vacant : s.core fresh = none)
    (awake : record.state ≠ .blocked) (unwaited : record.joinWaiter = none) : t.Wakers tags := by
  obtain ⟨noIo, noJoin⟩ := Uthread.idle awake
  have awaits : ∀ v ut, t.Awaits v ut ↔ s.Awaits v ut := by
    intro v ut
    by_cases own : v = fresh
    · simp [Awaits, core, own, vacant, unwaited]
    · simp [Awaits, core, Heap.set_other _ _ own]
  have joins : ∀ ut v, t.JoinsAt ut v ↔ s.JoinsAt ut v := by
    intro ut v
    by_cases own : ut = fresh
    · simp [JoinsAt, core, own, vacant, noJoin]
    · simp [JoinsAt, core, Heap.set_other _ _ own]
  apply wakers.congr
  · intro v ut
    rw [awaits, joins, wakers.joins]
  · intro ut tag
    by_cases own : ut = fresh
    · simp [IoAt, core, own, vacant, noIo]
    · simp [IoAt, core, Heap.set_other _ _ own]

end Steps

/-! The running uthread registers with a live target nobody waits for, and blocks. -/
section Join

variable {s t : Sched} {tags : List UInt64} {cur target : Ptr} {u record : Uthread}
  {id : UInt64} {out : Bool}

theorem registered_records (apart : cur ≠ target)
    (core : t.core = (s.core.modify target (awaitedBy cur)).modify cur
      (suspend .blocked (.joining id out target))) (ut : Ptr) :
    t.core ut = (s.core ut).map fun v =>
      if ut = cur then suspend .blocked (.joining id out target) v
      else if ut = target then awaitedBy cur v else v := by
  rw [core, Heap.modify_eq_map, Heap.modify_eq_map, Option.map_map]
  congr 1
  funext v
  by_cases own : ut = cur
  · simp [own, apart]
  · simp [own]

/-- Nobody has a running uthread as its waiter. -/
theorem Wakers.unawaited (wakers : s.Wakers tags) (found : s.core cur = some u)
    (runs : u.state = .running) (v : Ptr) : ¬ s.Awaits v cur := by
  intro waited
  obtain ⟨w, here, waits⟩ := (wakers.joins v cur).mp waited
  rw [found] at here
  cases here
  exact (Uthread.idle (by simp [runs])).2 v waits

theorem Wakers.joinWait (wakers : s.Wakers tags) (found : s.core cur = some u)
    (runs : u.state = .running) (hit : s.core target = some record) (apart : cur ≠ target)
    (live : record.state ≠ .done)
    (free : record.joinWaiter = none ∨ record.joinWaiter = some cur)
    (core : t.core = (s.core.modify target (awaitedBy cur)).modify cur
      (suspend .blocked (.joining id out target))) : t.Wakers tags := by
  have records := registered_records apart core
  obtain ⟨noIo, noJoin⟩ := Uthread.idle (u := u) (by simp [runs])
  have vacant : record.joinWaiter = none :=
    free.resolve_right fun waiter =>
      wakers.unawaited found runs target ⟨record, hit, live, waiter⟩
  have awaits : ∀ v ut, t.Awaits v ut ↔ s.Awaits v ut ∨ (v = target ∧ ut = cur) := by
    intro v ut
    rw [awaits_map records]
    by_cases own : v = cur
    · simp [Awaits, own, found, suspend, runs, apart]
    · by_cases its : v = target
      · simp [Awaits, its, apart.symm, hit, awaitedBy, live, vacant, eq_comm (a := cur)]
      · simp [Awaits, own, its]
  have joins : ∀ ut v, t.JoinsAt ut v ↔ s.JoinsAt ut v ∨ (v = target ∧ ut = cur) := by
    intro ut v
    rw [joinsAt_map records]
    by_cases own : ut = cur
    · simp only [JoinsAt, own, found, Option.some.injEq, exists_eq_left', noJoin]
      simp [suspend, Uthread.WaitsForJoin, eq_comm (b := v)]
    · by_cases its : ut = target
      · simp [JoinsAt, its, apart.symm, hit, awaitedBy, Uthread.WaitsForJoin]
      · simp [JoinsAt, own, its]
  apply wakers.congr
  · intro v ut
    rw [awaits, joins, wakers.joins]
  · intro ut tag
    rw [ioAt_map records]
    by_cases own : ut = cur
    · simp only [IoAt, own, found, Option.some.injEq, exists_eq_left', noIo]
      simp [suspend, Uthread.WaitsForIo]
    · by_cases its : ut = target
      · simp [IoAt, its, apart.symm, hit, awaitedBy, Uthread.WaitsForIo]
      · simp [IoAt, own, its]

end Join

/-! The running uthread is done, and its joiner is woken with that. -/
section Exit

variable {s : Sched} {tags : List UInt64} {cur : Ptr} {u : Uthread}

theorem joinWaiter_iff (found : s.core cur = some u) (runs : u.state = .running) (ut : Ptr) :
    (s.core cur).bind Uthread.joinWaiter = some ut ↔ s.Awaits cur ut := by
  simp [Awaits, found, runs]

theorem awaits_exit (current : s.current = some cur) (on : s.schedRunning = true) (value : UInt64)
    (v ut : Ptr) : (s.rrSchedulerExitCurrent value).Awaits v ut ↔ s.Awaits v ut ∧ v ≠ cur := by
  rw [awaits_map (rrSchedulerExitCurrent_core current on value)]
  by_cases own : v = cur
  · simp [own, markDone]
  · simp only [own, ↓reduceIte, Awaits, ne_eq, not_false_eq_true, and_true]
    refine exists_congr fun w => and_congr_right fun _ => ?_
    split
    · obtain ⟨alive, waiter⟩ := wakeRecord_alive id (fun _ => rfl) w
      exact and_congr alive (by rw [waiter])
    · rfl

theorem Wakers.joinsAt_exit (wakers : s.Wakers tags) (current : s.current = some cur)
    (on : s.schedRunning = true) (found : s.core cur = some u) (runs : u.state = .running)
    (value : UInt64) (ut v : Ptr) :
    (s.rrSchedulerExitCurrent value).JoinsAt ut v ↔ s.JoinsAt ut v ∧ v ≠ cur := by
  obtain ⟨_, noJoin⟩ := Uthread.idle (u := u) (by simp [runs])
  rw [joinsAt_map (rrSchedulerExitCurrent_core current on value)]
  by_cases own : ut = cur
  · simp only [JoinsAt, own, found, Option.some.injEq, exists_eq_left', noJoin]
    simp [Uthread.WaitsForJoin, markDone]
  · by_cases woken : (s.core cur).bind Uthread.joinWaiter = some ut
    · obtain ⟨w, here, waits⟩ := (wakers.joins cur ut).mp ((joinWaiter_iff found runs ut).mp woken)
      simp only [own, woken, ↓reduceIte, JoinsAt, here, Option.some.injEq, exists_eq_left']
      refine iff_of_false ((wakeRecord_idle waits.1 id).2 v) ?_
      rintro ⟨elsewhere, apart⟩
      exact apart (waits.target_inj elsewhere).symm
    · have apart : s.JoinsAt ut v → v ≠ cur := by
        rintro waits rfl
        exact woken ((joinWaiter_iff found runs ut).mpr ((wakers.joins v ut).mpr waits))
      simp only [own, woken, ↓reduceIte]
      exact (and_iff_left_of_imp apart).symm

theorem Wakers.ioAt_exit (wakers : s.Wakers tags) (current : s.current = some cur)
    (on : s.schedRunning = true) (found : s.core cur = some u) (runs : u.state = .running)
    (value : UInt64) (ut : Ptr) (tag : UInt64) :
    (s.rrSchedulerExitCurrent value).IoAt ut tag ↔ s.IoAt ut tag := by
  obtain ⟨noIo, _⟩ := Uthread.idle (u := u) (by simp [runs])
  rw [ioAt_map (rrSchedulerExitCurrent_core current on value)]
  by_cases own : ut = cur
  · simp only [IoAt, own, found, Option.some.injEq, exists_eq_left', noIo]
    simp [Uthread.WaitsForIo, markDone]
  · by_cases woken : (s.core cur).bind Uthread.joinWaiter = some ut
    · obtain ⟨w, here, waits⟩ := (wakers.joins cur ut).mp ((joinWaiter_iff found runs ut).mp woken)
      simp [IoAt, own, woken, here, waits.not_io, (wakeRecord_idle waits.1 id).1]
    · simp [IoAt, own, woken]

theorem Wakers.exit (wakers : s.Wakers tags) (current : s.current = some cur)
    (on : s.schedRunning = true) (found : s.core cur = some u) (runs : u.state = .running)
    (value : UInt64) : (s.rrSchedulerExitCurrent value).Wakers tags := by
  apply wakers.congr
  · intro v ut
    rw [awaits_exit current on, wakers.joinsAt_exit current on found runs, wakers.joins]
  · exact wakers.ioAt_exit current on found runs value

end Exit

/-! An operation of the running uthread is submitted, and one is consumed. -/
section Io

variable {s t : Sched} {tags : List UInt64} {cur : Ptr} {u : Uthread} {tag : UInt64}

/-- One more operation, tagged with the id of the uthread that blocks in it. -/
theorem Wakers.submitted (wakers : s.Wakers tags) (found : s.core cur = some u)
    (runs : u.state = .running) (unique : ∀ ut v, s.core ut = some v → v.id = u.id → ut = cur)
    (tagged : u.id ≠ rrSignalSentinel) {call : Call} {serial : Nat}
    (core : t.core = s.core.modify cur (suspend .blocked (.io call serial))) :
    t.Wakers (u.id :: tags) := by
  have records : ∀ ut, t.core ut = (s.core ut).map fun v =>
      if ut = cur then suspend .blocked (.io call serial) v else v :=
    fun ut => by rw [core, Heap.modify_eq_map]
  obtain ⟨noIo, noJoin⟩ := Uthread.idle (u := u) (by simp [runs])
  have io : ∀ ut tag, t.IoAt ut tag ↔ s.IoAt ut tag ∨ (ut = cur ∧ tag = u.id) := by
    intro ut tag
    rw [ioAt_map records]
    by_cases own : ut = cur
    · simp only [IoAt, own, found, Option.some.injEq, exists_eq_left', noIo]
      simp [suspend, Uthread.WaitsForIo, eq_comm (b := tag)]
    · simp [IoAt, own]
  have joins : ∀ ut v, t.JoinsAt ut v ↔ s.JoinsAt ut v := by
    intro ut v
    rw [joinsAt_map records]
    by_cases own : ut = cur
    · simp only [JoinsAt, own, found, Option.some.injEq, exists_eq_left', noJoin]
      simp [suspend, Uthread.WaitsForJoin]
    · simp [JoinsAt, own]
  have others : ∀ ut tag, s.IoAt ut tag → tag ≠ u.id := by
    rintro ut tag ⟨v, here, named, waits⟩ rfl
    obtain rfl := unique ut v here named
    rw [found] at here
    cases here
    exact noIo waits
  have fresh : u.id ∉ tags := by
    intro member
    obtain ⟨ut, waits⟩ := wakers.owner u.id member tagged
    exact others ut u.id waits rfl
  refine ⟨?_, ?_, ?_, ?_⟩
  · intro v ut
    rw [joins, ← wakers.joins, awaits_map records]
    by_cases own : v = cur
    · simp [Awaits, own, found, suspend, runs]
    · simp [Awaits, own]
  · intro tag member apart
    rcases List.mem_cons.mp member with rfl | member
    · exact ⟨cur, (io cur u.id).mpr (Or.inr ⟨rfl, rfl⟩)⟩
    · obtain ⟨ut, waits⟩ := wakers.owner tag member apart
      exact ⟨ut, (io ut tag).mpr (Or.inl waits)⟩
  · intro ut tag waits
    rcases (io ut tag).mp waits with before | ⟨_, rfl⟩
    · rw [List.count_cons_of_ne (others ut tag before).symm]
      exact wakers.single ut tag before
    · rw [List.count_cons_self, List.count_eq_zero_of_not_mem fresh]
  · rw [List.count_cons_of_ne tagged]
    exact wakers.signal

/-- The first outstanding operation of a uthread is consumed, and wakes it. -/
theorem Wakers.wake (wakers : s.Wakers (tag :: tags)) (tagged : tag ≠ rrSignalSentinel)
    (unique : ∀ ut other v w, s.core ut = some v → s.core other = some w → v.id = w.id → ut = other)
    (found : s.core cur = some u) (named : u.id = tag) {change : Uthread → Uthread}
    (kept : ∀ v, (change v).joinWaiter = v.joinWaiter)
    (core : t.core = s.core.modify cur (wakeRecord change)) : t.Wakers tags := by
  have records : ∀ ut, t.core ut = (s.core ut).map fun v =>
      if ut = cur then wakeRecord change v else v :=
    fun ut => by rw [core, Heap.modify_eq_map]
  obtain ⟨owner, v, here, its, waits⟩ := wakers.owner tag (by simp) tagged
  obtain rfl := unique owner cur v u here found (its.trans named.symm)
  rw [found] at here
  cases here
  obtain ⟨noIo, noJoin⟩ := wakeRecord_idle waits.1 change
  have io : ∀ ut other, t.IoAt ut other ↔ s.IoAt ut other ∧ other ≠ tag := by
    intro ut other
    rw [ioAt_map records]
    by_cases own : ut = owner
    · simp +contextual [IoAt, own, found, noIo, named, eq_comm (b := other)]
    · have apart : s.IoAt ut other → other ≠ tag := by
        rintro ⟨w, there, name, _⟩ rfl
        exact own (unique ut owner w u there found (name.trans named.symm))
      simp only [own, ↓reduceIte]
      exact (and_iff_left_of_imp apart).symm
  have joins : ∀ ut v, t.JoinsAt ut v ↔ s.JoinsAt ut v := by
    intro ut v
    rw [joinsAt_map records]
    by_cases own : ut = owner
    · simp [JoinsAt, own, found, noJoin, waits.not_join]
    · simp [JoinsAt, own]
  -- The one operation with the tag is the consumed one.
  have gone : tags.count tag = 0 := by
    have one := wakers.single owner tag ⟨u, found, named, waits⟩
    rw [List.count_cons_self] at one
    omega
  refine ⟨?_, ?_, ?_, ?_⟩
  · intro v ut
    rw [joins, ← wakers.joins, awaits_map records]
    by_cases own : v = owner
    · obtain ⟨alive, waiter⟩ := wakeRecord_alive change kept u
      simp only [Awaits, own, found, ↓reduceIte, Option.some.injEq, exists_eq_left']
      exact and_congr alive (by rw [waiter])
    · simp [Awaits, own]
  · intro other member apart
    obtain ⟨ut, before⟩ := wakers.owner other (List.mem_cons_of_mem _ member) apart
    refine ⟨ut, (io ut other).mpr ⟨before, ?_⟩⟩
    rintro rfl
    exact List.count_eq_zero.mp gone member
  · intro ut other after
    obtain ⟨before, apart⟩ := (io ut other).mp after
    have one := wakers.single ut other before
    rwa [List.count_cons_of_ne apart.symm] at one
  · have one := wakers.signal
    rwa [List.count_cons_of_ne tagged] at one

end Io

end Sched

end Librr
