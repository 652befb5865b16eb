import Librr.Numbering

set_option autoImplicit false

namespace Librr

namespace Sched

/-- The ids whatever becomes of the creations, as long as `g_next_id` does not wrap: each
is below the next one and belongs to one uthread, which is listed. -/
structure Named (s : Sched) : Prop where
  ids : ∀ ut u, s.heap ut = some u → 0 < u.id.toNat ∧ u.id.toNat < s.nextId
  distinct : ∀ ut other u v, s.heap ut = some u → s.heap other = some v → u.id = v.id → ut = other
  listed : ∀ ut u, s.heap ut = some u → ut ∈ s.threads.items
  started : 0 < s.nextId
  bounded : s.nextId < 2 ^ 64

theorem Numbered.named {s : Sched} (numbered : s.Numbered) : s.Named := by
  refine ⟨?_, ?_, ?_, ?_, ?_⟩
  · intro ut u found
    have below := numbered.below found
    rw [(numbered.id_toNat found).1, numbered.next]
    omega
  · intro ut other u v found present same
    exact numbered.id_inj found present same
  · intro ut u found
    rw [numbered.table]
    exact List.mem_range.mpr (numbered.below found)
  · rw [numbered.next]
    omega
  · have room := numbered.room
    have size : sizeofUthread = 1136 := rfl
    rw [size] at room
    rw [numbered.next]
    omega

theorem birthAt_id {s t : Sched} {ut : Ptr} (births : t.birthAt ut = s.birthAt ut) {u : Uthread}
    (found : t.heap ut = some u) : ∃ v, s.heap ut = some v ∧ v.id = u.id := by
  rw [birthAt, birthAt, found, Option.map_some] at births
  obtain ⟨v, present, same⟩ := Option.map_eq_some_iff.mp births.symm
  exact ⟨v, present, congrArg Birth.id same⟩

theorem Named.same {s t : Sched} (named : s.Named) (births : s.SameBirths t) : t.Named := by
  refine ⟨?_, ?_, ?_, ?_, ?_⟩
  · intro ut u found
    obtain ⟨v, present, same⟩ := birthAt_id (births.births ut) found
    rw [← same, births.nextId]
    exact named.ids ut v present
  · intro ut other u v found present same
    obtain ⟨u', found', sameU⟩ := birthAt_id (births.births ut) found
    obtain ⟨v', present', sameV⟩ := birthAt_id (births.births other) present
    exact named.distinct ut other u' v' found' present' (by rw [sameU, sameV, same])
  · intro ut u found
    obtain ⟨v, present, _⟩ := birthAt_id (births.births ut) found
    rw [births.threads]
    exact named.listed ut v present
  · rw [births.nextId]
    exact named.started
  · rw [births.nextId]
    exact named.bounded

/-- A record with the next id at a vacant address. -/
theorem Named.placed {s t : Sched} (named : s.Named) {record : Uthread}
    (heap : t.heap = s.heap.set s.brk record) (id : record.id = UInt64.ofNat s.nextId)
    (items : t.threads.items = s.threads.items ++ [s.brk]) (next : t.nextId = s.nextId + 1)
    (bounded : t.nextId < 2 ^ 64) : t.Named := by
  have started := named.started
  have value : record.id.toNat = s.nextId := by
    rw [id]
    exact UInt64.toNat_ofNat_of_lt' (by have : UInt64.size = 2 ^ 64 := rfl; omega)
  -- The new id is above all others.
  have split : ∀ ut u, t.heap ut = some u →
      ut = s.brk ∧ u.id.toNat = s.nextId ∨
        s.heap ut = some u ∧ 0 < u.id.toNat ∧ u.id.toNat < s.nextId := by
    intro ut u found
    rw [heap, Heap.set_apply] at found
    split at found
    · rename_i same
      cases found
      exact .inl ⟨same, value⟩
    · exact .inr ⟨found, named.ids ut u found⟩
  refine ⟨?_, ?_, ?_, by omega, bounded⟩
  · intro ut u found
    rcases split ut u found with ⟨_, fresh⟩ | ⟨_, bounds⟩ <;> omega
  · intro ut other u v found present same
    have ids := congrArg UInt64.toNat same
    rcases split ut u found with ⟨here, fresh⟩ | ⟨old, bounds⟩
    · rcases split other v present with ⟨there, _⟩ | ⟨_, bounds'⟩
      · rw [here, there]
      · omega
    · rcases split other v present with ⟨_, fresh'⟩ | ⟨old', _⟩
      · omega
      · exact named.distinct ut other u v old old' same
  · intro ut u found
    rw [items]
    rcases split ut u found with ⟨rfl, _⟩ | ⟨old, _⟩
    · simp
    · exact List.mem_append_left _ (named.listed ut u old)

/-- A creation, whether it fails early, in the middle or not at all. -/
theorem Named.create {s : Sched} (named : s.Named) (stackSize : Nat) (fn : Option Fn)
    (answer : CreateAnswer)
    (bounded : (s.uthreadCreate stackSize fn answer).1.nextId < 2 ^ 64) :
    (s.uthreadCreate stackSize fn answer).1.Named := by
  rcases s.uthreadCreate_cases stackSize fn answer with
    ⟨threads, pages, nextId, outcome, items, lower, _⟩ |
    ⟨start, mem, threads, allocated, pages, outcome, _, items, _⟩
  · rw [outcome] at bounded ⊢
    have started := named.started
    refine ⟨?_, named.distinct, ?_, by simp only; omega, bounded⟩
    · intro ut u found
      obtain ⟨positive, below⟩ := named.ids ut u found
      exact ⟨positive, by simp only; omega⟩
    · intro ut u found
      have member := named.listed ut u found
      rcases items with same | grown
      · exact same ▸ member
      · exact grown ▸ List.mem_append_left _ member
  · rw [outcome] at bounded ⊢
    have births := enqueue_births { s with
      heap := s.heap.set s.brk
        (newUthread (UInt64.ofNat s.nextId) start mem answer.pagesz stackSize)
      brk := s.brk + 1
      threads := threads
      allocated := allocated
      guardPages := pages
      nextId := s.nextId + 1 } s.brk
    refine Named.same ?_ births
    exact named.placed rfl rfl items rfl (births.nextId ▸ bounded)

theorem create_nextId_le (s : Sched) (stackSize : Nat) (fn : Option Fn) (answer : CreateAnswer) :
    s.nextId ≤ (s.uthreadCreate stackSize fn answer).1.nextId := by
  rcases s.uthreadCreate_effect stackSize fn answer with ⟨_, _, _, lower⟩ | ⟨_, _, _, _, _, _, next⟩
  · exact lower
  · omega

section Found

variable {s : Sched} {ut : Nat} {u : Uthread}

theorem Named.core_inj (named : s.Named) {other : Ptr} {v : Uthread} (found : s.core ut = some u)
    (present : s.core other = some v) (same : u.id = v.id) : ut = other := by
  obtain ⟨u', here, rfl⟩ := of_core_some found
  obtain ⟨v', there, rfl⟩ := of_core_some present
  exact named.distinct ut other u' v' here there same

theorem Named.id_ne_sentinel (named : s.Named) (found : s.heap ut = some u) :
    u.id ≠ rrSignalSentinel := by
  intro same
  have below := (named.ids ut u found).2
  have bounded := named.bounded
  rw [same] at below
  have sentinel : rrSignalSentinel.toNat = 2 ^ 64 - 1 := rfl
  omega

/-- A uthread is found by its own id, and only by it. -/
theorem Named.find_eq (named : s.Named) (found : s.heap ut = some u) :
    s.rrSchedulerFind u.id = some (ut, u) := by
  cases hit : s.rrSchedulerFind u.id with
  | none => exact absurd rfl (rrSchedulerFind_none hit (named.listed ut u found) found)
  | some entry =>
      obtain ⟨other, v⟩ := entry
      obtain ⟨_, present, same⟩ := rrSchedulerFind_some hit
      obtain rfl := named.distinct ut other u v found present same.symm
      rw [found] at present
      cases present
      rfl

end Found

end Sched

namespace State

/-- Whatever fails, the ids stay apart until the counter wraps. -/
theorem RecordStep.named {program : Program} {s t : State} {input : Input}
    (taken : RecordStep program s input t) (bounded : t.sched.nextId < 2 ^ 64)
    (named : s.sched.Named) : t.sched.Named := by
  rcases taken.births with births | ⟨answer, ut, u, fn, rfl, _, performed⟩
  · exact named.same births
  · generalize t.sched = after at performed bounded ⊢
    cases performed with
    | create =>
        have births := Sched.reply_births (s.sched.uthreadCreate s.config.stackSize fn
          answer.create).1 ut (.create fn) (.created (s.sched.uthreadCreate s.config.stackSize fn
            answer.create).2)
        exact (named.create _ _ _ (births.nextId ▸ bounded)).same births

theorem RecordStep.nextId_le {program : Program} {s t : State} {input : Input}
    (taken : RecordStep program s input t) : s.sched.nextId ≤ t.sched.nextId := by
  rcases taken.births with births | ⟨answer, ut, u, fn, rfl, _, performed⟩
  · exact Nat.le_of_eq births.nextId.symm
  · generalize t.sched = after at performed ⊢
    cases performed with
    | create =>
        rw [(Sched.reply_births _ _ _ _).nextId]
        exact s.sched.create_nextId_le _ _ _

end State

end Librr
