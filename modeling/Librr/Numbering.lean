import Librr.Births
import Librr.Erasure

set_option autoImplicit false

namespace Librr

namespace Sched

/-- The id of a uthread. -/
def idAt (s : Sched) (ut : Ptr) : Option UInt64 := (s.core ut).map Uthread.id

/-- What names the uthreads: their ids, and the table they are found in. -/
structure SameNames (before after : Sched) : Prop where
  ids : ∀ ut, after.idAt ut = before.idAt ut
  brk : after.brk = before.brk
  threads : after.threads.items = before.threads.items
  nextId : after.nextId = before.nextId

theorem SameNames.symm {s t : Sched} (names : SameNames s t) : SameNames t s :=
  ⟨fun ut => (names.ids ut).symm, names.brk.symm, names.threads.symm, names.nextId.symm⟩

theorem idAt_heap (s : Sched) (ut : Ptr) : s.idAt ut = (s.heap ut).map Uthread.id := by
  simp only [idAt, core, Option.map_map]
  rfl

theorem idAt_birth (s : Sched) (ut : Ptr) : s.idAt ut = (s.birthAt ut).map Birth.id := by
  rw [idAt_heap, birthAt, Option.map_map]
  rfl

theorem SameBirths.names {s t : Sched} (births : SameBirths s t) : SameNames s t :=
  ⟨fun ut => by rw [idAt_birth, idAt_birth, births.births], births.brk, by rw [births.threads],
    births.nextId⟩

/-- The ids as long as every creation succeeds: the uthread at address `ut` has the
id `ut + 1`, and the address space ends before the ids wrap. -/
structure Numbered (s : Sched) : Prop where
  ids : ∀ ut, ut < s.brk → s.idAt ut = some (UInt64.ofNat (ut + 1))
  vacant : ∀ ut, s.brk ≤ ut → s.idAt ut = none
  table : s.threads.items = List.range s.brk
  next : s.nextId = s.brk + 1
  room : s.brk * sizeofUthread ≤ 2 ^ 64

theorem Numbered.same {s t : Sched} (numbered : s.Numbered) (names : SameNames s t) :
    t.Numbered := by
  refine ⟨?_, ?_, ?_, ?_, ?_⟩
  · intro ut below
    rw [names.ids]
    exact numbered.ids ut (names.brk ▸ below)
  · intro ut above
    rw [names.ids]
    exact numbered.vacant ut (names.brk ▸ above)
  · rw [names.threads, names.brk, numbered.table]
  · rw [names.nextId, names.brk, numbered.next]
  · rw [names.brk]
    exact numbered.room

theorem afterInit_numbered : afterInit.Numbered := by
  refine ⟨?_, ?_, rfl, rfl, by decide⟩
  · intro ut below
    obtain rfl : ut = 0 := Nat.lt_one_iff.mp below
    rfl
  · intro ut above
    have apart : ut ≠ 0 := Nat.one_le_iff_ne_zero.mp above
    simp [idAt, core, afterInit, Heap.set_apply, apart]

theorem erased_names (view : Action × Reply → Action × Reply) (s : Sched) :
    SameNames s (s.erased view) := by
  refine ⟨?_, rfl, rfl, rfl⟩
  intro ut
  rw [idAt_heap, idAt_heap, erased, Option.map_map]
  rfl

theorem Numbered.born {s : Sched} (numbered : s.Numbered) (fn : Option Fn) :
    (s.born fn).1.Numbered := by
  unfold Sched.born
  split
  · exact numbered
  · rename_i start
    split
    · exact numbered
    · rename_i fits
      apply Numbered.same _ (enqueue_births _ _).names
      refine ⟨?_, ?_, ?_, ?_, Nat.not_lt.mp fits⟩
      · intro ut below
        rw [idAt_heap]
        simp only [Heap.set_apply]
        split
        · rename_i same
          rw [same, ← numbered.next]
          rfl
        · rw [← idAt_heap]
          have under : ut < s.brk + 1 := below
          exact numbered.ids ut (by omega)
      · intro ut above
        have beyond : s.brk + 1 ≤ ut := above
        rw [idAt_heap]
        simp only [Heap.set_other s.heap _ (show ut ≠ s.brk by omega)]
        rw [← idAt_heap]
        exact numbered.vacant ut (by omega)
      · simp only [numbered.table, List.range_succ]
      · simp only [numbered.next]

theorem Numbered.create {s : Sched} (numbered : s.Numbered) {answer : CreateAnswer}
    (succeeds : answer.Succeeds) (stackSize : Nat) (fn : Option Fn) :
    (s.uthreadCreate stackSize fn answer).1.Numbered := by
  have whole := erased_create id s succeeds stackSize fn
  have grown := (numbered.same (erased_names id s)).born fn
  rw [whole] at grown
  exact grown.same (erased_names id _).symm

theorem Numbered.performed {stackSize : Nat} {s t : Sched} {ut : Ptr} {u : Uthread}
    {answer : CreateAnswer} {action : Action} (numbered : s.Numbered)
    (succeeds : answer.Succeeds) (performed : s.Local stackSize ut u answer action t) :
    t.Numbered := by
  by_cases creates : ∃ fn, action = .create fn
  · obtain ⟨fn, rfl⟩ := creates
    cases performed with
    | create => exact (numbered.create succeeds stackSize fn).same (reply_births _ _ _ _).names
  · exact numbered.same (performed.births fun fn same => creates ⟨fn, same⟩).names

section Found

variable {s : Sched} {ut : Nat} {u : Uthread}

theorem Numbered.below (numbered : s.Numbered) (found : s.heap ut = some u) : ut < s.brk := by
  by_contra above
  have vacant := numbered.vacant ut (Nat.not_lt.mp above)
  rw [idAt_heap, found] at vacant
  cases vacant

theorem Numbered.id_eq (numbered : s.Numbered) (found : s.heap ut = some u) :
    u.id = UInt64.ofNat (ut + 1) := by
  have known := numbered.ids ut (numbered.below found)
  rw [idAt_heap, found] at known
  exact Option.some.inj known

/-- Ids as numbers: they start at 1 and stay below the sentinel. -/
theorem Numbered.id_toNat (numbered : s.Numbered) (found : s.heap ut = some u) :
    u.id.toNat = ut + 1 ∧ ut + 1 < 2 ^ 64 - 1 := by
  have below := numbered.below found
  have room := numbered.room
  have bound : ut + 1 < 2 ^ 64 - 1 := by
    have size : sizeofUthread = 1136 := rfl
    rw [size] at room
    omega
  refine ⟨?_, bound⟩
  rw [numbered.id_eq found]
  exact UInt64.toNat_ofNat_of_lt' (by have : UInt64.size = 2 ^ 64 := rfl; omega)

theorem Numbered.id_inj (numbered : s.Numbered) {other : Nat} {v : Uthread}
    (found : s.heap ut = some u) (present : s.heap other = some v) (same : u.id = v.id) :
    ut = other := by
  have one := (numbered.id_toNat found).1
  have two := (numbered.id_toNat present).1
  rw [same] at one
  omega

theorem Numbered.id_ne_sentinel (numbered : s.Numbered) (found : s.heap ut = some u) :
    u.id ≠ rrSignalSentinel := by
  intro same
  obtain ⟨value, bound⟩ := numbered.id_toNat found
  rw [same] at value
  have sentinel : rrSignalSentinel.toNat = 2 ^ 64 - 1 := rfl
  omega

/-- A uthread is found by its own id, and only by it. -/
theorem Numbered.find_eq (numbered : s.Numbered) (found : s.heap ut = some u) :
    s.rrSchedulerFind u.id = some (ut, u) := by
  cases hit : s.rrSchedulerFind u.id with
  | none =>
      have member : ut ∈ s.threads.items := by
        rw [numbered.table]
        exact List.mem_range.mpr (numbered.below found)
      exact absurd rfl (rrSchedulerFind_none hit member found)
  | some entry =>
      obtain ⟨other, v⟩ := entry
      obtain ⟨_, present, same⟩ := rrSchedulerFind_some hit
      obtain rfl := numbered.id_inj found present same.symm
      rw [found] at present
      cases present
      rfl

end Found

end Sched

namespace State

theorem switchTo_births (s : Sched) (t : State) (next : Ptr) (u : Uthread) :
    s.SameBirths (t.switchTo s.runqPopFront.2 next u).sched := by
  have dispatched : s.SameBirths (s.runqPopFront.2.dispatch next) :=
    (Sched.popFront_births s).trans (Sched.dispatch_births _ next)
  rw [switchTo_eq]
  rcases resume_sched (t.arrive s.runqPopFront.2 next u.id) next u with
    same | ⟨action, reply, same⟩
  · rw [same]
    exact dispatched
  · rw [same]
    exact dispatched.trans (Sched.reply_births _ _ _ _)

/-- Only a creation brings forth anything. -/
theorem RecordStep.births {program : Program} {s t : State} {input : Input}
    (taken : RecordStep program s input t) :
    s.sched.SameBirths t.sched ∨
      ∃ answer ut u fn, input = .act answer ∧ s.sched.running = some (ut, u) ∧
        s.sched.Local s.config.stackSize ut u answer.create (.create fn) t.sched := by
  cases taken with
  | perform answer ut u sched user running performed =>
      by_cases creates : ∃ fn, program u.startFn u.ctx.replies = .create fn
      · obtain ⟨fn, same⟩ := creates
        rw [same] at performed
        exact .inr ⟨answer, ut, u, fn, rfl, running, performed⟩
      · exact .inl (performed.births fun fn same => creates ⟨fn, same⟩)
  | immediate answer ut u call result args user running next done =>
      rw [loggedReturn_sched]
      exact .inl (Sched.reply_births _ _ _ _)
  | full answer ut u call op finish user running next submits half filled =>
      rw [loggedReturn_sched]
      exact .inl (Sched.reply_births _ _ _ _)
  | refused answer ut u call op finish user running next submits half room failed =>
      rw [loggedReturn_sched]
      exact .inl (Sched.reply_births _ _ _ _)
  | submitted answer ut u call op finish user running next submits half room accepted =>
      exact .inl (Sched.block_births _ _)
  | interrupted answer idle empty broken => exact .inl (.refl _)
  | killed answer cqe rest idle empty first sentinel full fatal =>
      exact .inl ⟨fun _ => rfl, rfl, rfl, rfl, rfl, rfl⟩
  | signal answer cqe rest idle empty first sentinel full harmless =>
      rw [cqeSeen, (rearmSignalRead_kept _ _).1, (rrLogSignal_same _ _ _).sched]
      exact .inl (.refl _)
  | short answer cqe rest idle empty first sentinel short =>
      rw [cqeSeen, (rearmSignalRead_kept _ _).1]
      exact .inl (.refl _)
  | wake answer cqe rest idle empty first tagged => exact .inl (Sched.wake_births _ _ _ _ _)
  | dispatch answer next u idle head found runnable => exact .inl (switchTo_births _ _ _ _)
  | post index res data sqe live flying => exact .inl (.refl _)

/-- As long as creations succeed, the ids stay what they are. -/
theorem RecordStep.numbered {program : Program} {s t : State} {input : Input}
    (taken : RecordStep program s input t) (numbered : s.sched.Numbered)
    (created : ∀ answer, input = .act answer → answer.create.Succeeds) : t.sched.Numbered := by
  rcases taken.births with births | ⟨answer, ut, u, fn, rfl, _, performed⟩
  · exact numbered.same births.names
  · exact numbered.performed (created answer rfl) performed

end State

end Librr
