import Librr.Births

set_option autoImplicit false

namespace Librr

open IntrusiveQueue Transition

namespace Sched

/-- The run queue and the three tables are those of before, with these entries behind. -/
structure Appended (s t : Sched) (uthreads : List Ptr) (pages : List GuardPage) : Prop where
  runq : ∀ items, Represents s.links items → Represents t.links (items ++ uthreads)
  threads : t.threads.items = s.threads.items ++ uthreads
  allocated : t.allocated.items = s.allocated.items ++ uthreads
  guardPages : t.guardPages.items = s.guardPages.items ++ pages

/-- A creation that returns -1 leaves all four as they were; one that returns 0 has appended
the new uthread, whose id it stores, to each. -/
def AllOrNothing (s : Sched) (created : Creation) : Prop :=
  created.ret = -1 ∧ created.sched.brk = s.brk ∧ s.Appended created.sched [] [] ∨
    created.ret = 0 ∧ created.idOut = UInt64.ofNat s.nextId ∧ created.sched.brk = s.brk + 1 ∧
      ∃ birth, created.sched.birthAt s.brk = some birth ∧ birth.id = created.idOut ∧
        s.Appended created.sched [s.brk] [birth.guardPage]

/-- Everything the tables name is alive and mapped. -/
structure TablesSound (s : Sched) : Prop where
  same : s.allocated.items = s.threads.items
  live : ∀ ut ∈ s.threads.items, (s.birthAt ut).isSome
  mapped : ∀ page ∈ s.guardPages.items, ∃ ut ∈ s.threads.items, ∃ birth,
    s.birthAt ut = some birth ∧ page = birth.guardPage

theorem appended_nil {s : Sched} (nextId : Nat) : s.Appended { s with nextId := nextId } [] [] := by
  refine ⟨?_, by simp, by simp, by simp⟩
  intro items shape
  rw [List.append_nil]
  exact shape

/-- A new record is placed and queued. -/
theorem QueueInvariant.queued {s placed : Sched} (inv : s.QueueInvariant) {record : Uthread}
    (heap : placed.heap = s.heap.set s.brk record) (head : placed.runqHead = s.runqHead)
    (tail : placed.runqTail = s.runqTail) (unlinked : record.next = none) {items : List Ptr}
    (shape : Represents s.links items) :
    Represents (placed.rrSchedulerEnqueue s.brk).links (items ++ [s.brk]) := by
  have vacant : s.heap s.brk = none :=
    (core_eq_none s s.brk).mp (inv.unallocated s.brk (Nat.le_refl _))
  have unmoved : Represents placed.links items := by
    rw [links_set heap head tail vacant unlinked]
    exact shape
  have present : ∀ item ∈ items, s.heap item ≠ none := by
    intro item member
    obtain ⟨u, found, _⟩ := heap_of_stateOf ((inv.runq.runnable shape item).mp member)
    rw [found]
    simp
  have absent : s.brk ∉ items := fun member => present s.brk member vacant
  refine represents_enqueue unmoved absent ?_
  intro item member
  have apart : item ≠ s.brk := by
    rintro rfl
    exact absent member
  rw [heap, Heap.set_other _ _ apart]
  exact present item member

/-- The guard page is the first page of the mapping. -/
theorem newUthread_guardPage (id : UInt64) (fn : Fn) (mem pagesz stackSize : Nat) :
    (newUthread id fn mem pagesz stackSize).birth.guardPage = ⟨mem, pagesz, id⟩ := by
  show GuardPage.mk mem (mem + pagesz - mem) _ = _
  rw [Nat.add_sub_cancel_left]
  rfl

/-- In a reachable state a creation is all or nothing exactly if it does not get stuck
between the tables. -/
theorem QueueInvariant.allOrNothing_iff {s : Sched} (inv : s.QueueInvariant) (stackSize : Nat)
    (fn : Option Fn) (answer : CreateAnswer) :
    s.AllOrNothing (s.rrUthreadCreate stackSize fn answer) ↔ ¬ s.Strands fn answer := by
  rcases s.rrUthreadCreate_outcomes stackSize fn answer with
    ⟨whole, nextId, memory, outcome, _⟩ |
    ⟨strands, threads, pages, page, memory, outcome, _, paged, _⟩ |
    ⟨whole, start, mem, threads, allocated, pages, outcome, _, _, listed, owned, paged, _⟩
  · rw [outcome]
    exact ⟨fun _ => whole, fun _ => .inl ⟨rfl, rfl, appended_nil nextId⟩⟩
  · rw [outcome]
    refine ⟨?_, fun whole => absurd strands whole⟩
    rintro (⟨_, _, nothing⟩ | ⟨wrong, _⟩)
    · have same : pages.items = s.guardPages.items ++ [] := nothing.guardPages
      rw [paged] at same
      exact absurd (List.append_cancel_left same) (List.cons_ne_nil page [])
    · have wrong : (-1 : Int32) = 0 := wrong
      exact absurd wrong (by decide)
  · rw [outcome]
    refine ⟨fun _ => whole, fun _ => .inr ?_⟩
    set record := newUthread (UInt64.ofNat s.nextId) start mem answer.pagesz stackSize
    set placed : Sched := { s with
      heap := s.heap.set s.brk record
      brk := s.brk + 1
      threads := threads
      allocated := allocated
      guardPages := pages
      nextId := s.nextId + 1 }
    have births := enqueue_births placed s.brk
    have grown : (placed.rrSchedulerEnqueue s.brk).brk = s.brk + 1 := births.brk
    refine ⟨rfl, rfl, grown, record.birth, ?_, rfl, ?_⟩
    · rw [births.births]
      show (s.heap.set s.brk record s.brk).map Uthread.birth = some record.birth
      rw [Heap.set_same, Option.map_some]
    · have queued : ∀ items, Represents s.links items →
          Represents (placed.rrSchedulerEnqueue s.brk).links (items ++ [s.brk]) := by
        intro items shape
        have heap : placed.heap = s.heap.set s.brk record := rfl
        exact inv.queued heap rfl rfl rfl shape
      refine ⟨queued, ?_, ?_, ?_⟩
      · rw [births.threads, listed]
      · rw [births.allocated, owned]
      · rw [births.guardPages, newUthread_guardPage]
        exact paged

theorem TablesSound.unborn {s t : Sched} (sound : s.TablesSound) (births : s.SameBirths t) :
    t.TablesSound := by
  refine ⟨?_, ?_, ?_⟩
  · rw [births.allocated, births.threads, sound.same]
  · intro ut listed
    rw [births.births]
    exact sound.live ut (births.threads ▸ listed)
  · intro page listed
    rw [births.guardPages] at listed
    obtain ⟨ut, member, birth, found, named⟩ := sound.mapped page listed
    exact ⟨ut, births.threads ▸ member, birth, (births.births ut).trans found, named⟩

/-- Entries of one new uthread behind sound tables. -/
theorem TablesSound.appended {s t : Sched} (sound : s.TablesSound) {ut : Ptr} {birth : Birth}
    (kept : ∀ other, (s.birthAt other).isSome → t.birthAt other = s.birthAt other)
    (found : t.birthAt ut = some birth) (grown : s.Appended t [ut] [birth.guardPage]) :
    t.TablesSound := by
  refine ⟨?_, ?_, ?_⟩
  · rw [grown.allocated, grown.threads, sound.same]
  · intro other listed
    rw [grown.threads, List.mem_append, List.mem_singleton] at listed
    rcases listed with old | rfl
    · rw [kept other (sound.live other old)]
      exact sound.live other old
    · rw [found]
      rfl
  · intro page listed
    rw [grown.guardPages, List.mem_append, List.mem_singleton] at listed
    rcases listed with old | rfl
    · obtain ⟨other, member, given, present, named⟩ := sound.mapped page old
      refine ⟨other, ?_, given, ?_, named⟩
      · rw [grown.threads]
        exact List.mem_append_left _ member
      · rw [kept other (sound.live other member), present]
    · exact ⟨ut, by rw [grown.threads]; simp, birth, found, rfl⟩

/-- A creation changes no record that is there. -/
theorem create_kept {s : Sched} (inv : s.QueueInvariant) (stackSize : Nat) (fn : Option Fn)
    (answer : CreateAnswer) (ut : Ptr) (live : (s.birthAt ut).isSome) :
    (s.uthreadCreate stackSize fn answer).1.birthAt ut = s.birthAt ut := by
  rcases s.uthreadCreate_cases stackSize fn answer with
    ⟨threads, pages, nextId, outcome, _⟩ | ⟨start, mem, threads, allocated, pages, outcome, _⟩
  · rw [outcome]
    rfl
  · rw [outcome, (enqueue_births _ _).births]
    have apart : ut ≠ s.brk := by
      rintro rfl
      rw [birthAt_core, inv.unallocated s.brk (Nat.le_refl _)] at live
      cases live
    show (s.heap.set s.brk _ ut).map Uthread.birth = _
    rw [Heap.set_other _ _ apart, birthAt]

theorem TablesSound.create {s : Sched} (sound : s.TablesSound) (inv : s.QueueInvariant)
    (stackSize : Nat) {fn : Option Fn} {answer : CreateAnswer} (whole : ¬ s.Strands fn answer) :
    (s.uthreadCreate stackSize fn answer).1.TablesSound := by
  have each := (inv.allOrNothing_iff stackSize fn answer).mpr whole
  have kept := create_kept inv stackSize fn answer
  rcases each with ⟨_, _, grown⟩ | ⟨_, _, _, birth, found, _, grown⟩
  · have threads : (s.uthreadCreate stackSize fn answer).1.threads.items = s.threads.items := by
      rw [← List.append_nil s.threads.items]
      exact grown.threads
    have pages : (s.uthreadCreate stackSize fn answer).1.guardPages.items =
        s.guardPages.items := by
      rw [← List.append_nil s.guardPages.items]
      exact grown.guardPages
    refine ⟨?_, ?_, ?_⟩
    · rw [threads, ← sound.same, ← List.append_nil s.allocated.items]
      exact grown.allocated
    · intro ut listed
      rw [threads] at listed
      rw [kept ut (sound.live ut listed)]
      exact sound.live ut listed
    · intro page listed
      rw [pages] at listed
      obtain ⟨ut, member, birth, found, named⟩ := sound.mapped page listed
      exact ⟨ut, by rw [threads]; exact member, birth,
        by rw [kept ut (sound.live ut member), found], named⟩
  · exact sound.appended kept found grown

/-- The operation does not strand entries of a creation. -/
def Whole (s : Sched) : SchedOp → Prop
  | .create _ fn answer => ¬ s.Strands fn answer
  | _ => True

instance (s : Sched) : DecidablePred s.Whole
  | .create _ fn answer => inferInstanceAs (Decidable (¬ s.Strands fn answer))
  | .yield => isTrue trivial
  | .block _ _ => isTrue trivial
  | .join _ _ => isTrue trivial
  | .exit _ => isTrue trivial
  | .proceed _ _ => isTrue trivial
  | .next => isTrue trivial
  | .wake _ _ => isTrue trivial
  | .stop _ => isTrue trivial

theorem TablesSound.step {s t : Sched} {op : SchedOp} (sound : s.TablesSound)
    (inv : s.QueueInvariant) (whole : s.Whole op) (taken : s.schedStep op = some t) :
    t.TablesSound := by
  rcases schedStep_births taken with ⟨stackSize, fn, answer, rfl, rfl⟩ | births
  · exact sound.create inv stackSize whole
  · exact sound.unborn births

theorem afterInit_tablesSound : afterInit.TablesSound := by
  refine ⟨rfl, ?_, ?_⟩
  · intro ut listed
    obtain rfl : ut = 0 := List.mem_singleton.mp listed
    rfl
  · intro page listed
    cases listed

/-- In every reachable state a creation is all or nothing exactly if it is not refused
between the guard-page table and the end of the other two; and in every run without such
a creation all entries name live uthreads and mapped guard pages, the same in both
tables. -/
theorem creation_all_or_nothing_iff {ops : List SchedOp} {s : Sched}
    (reached : exec schedStep afterInit ops = some s) :
    (∀ stackSize fn answer,
      s.AllOrNothing (s.rrUthreadCreate stackSize fn answer) ↔ ¬ s.Strands fn answer) ∧
    (Along schedStep (fun before op _ => before.Whole op) afterInit ops → s.TablesSound) := by
  refine ⟨?_, ?_⟩
  · have inv : s.QueueInvariant :=
      exec_invariant schedStep_queueInvariant afterInit_queueInvariant reached
    exact inv.allOrNothing_iff
  · intro whole
    have kept : ∀ (before : Sched) (op : SchedOp) (after : Sched),
        before.schedStep op = some after → before.Whole op →
        before.QueueInvariant ∧ before.TablesSound → after.QueueInvariant ∧ after.TablesSound :=
      fun before op after taken fits sound =>
        ⟨schedStep_queueInvariant before op after taken sound.1, sound.2.step sound.1 fits taken⟩
    exact (whole.invariant kept ⟨afterInit_queueInvariant, afterInit_tablesSound⟩ reached).2

/-- Fifteen creations beside the main uthread fill `g_threads`. -/
def fifteenCreations : List SchedOp :=
  (List.range 15).map fun i => .create 65536 (some 0)
    ⟨true, 4096, some (1048576 * (i + 1)), true, true, true, true, true, true⟩

theorem fifteenCreations_sound :
    ∃ s, exec schedStep afterInit fifteenCreations = some s ∧ s.TablesSound := by
  have returns : (exec schedStep afterInit fifteenCreations).isSome := by decide +kernel
  obtain ⟨s, reached⟩ := Option.isSome_iff_exists.mp returns
  exact ⟨s, reached, (creation_all_or_nothing_iff reached).2 (by decide +kernel)⟩

/-- The sixteenth one registers its guard page, cannot extend `g_threads` and fails. -/
theorem sixteenth_creation_strands_guard :
    ∃ s, exec schedStep afterInit fifteenCreations = some s ∧
      ¬ s.AllOrNothing (s.rrUthreadCreate 65536 (some 0)
        ⟨true, 4096, some 16777216, true, true, true, true, false, true⟩) := by
  have strands : (exec schedStep afterInit fifteenCreations).map (fun s =>
      decide (s.Strands (some 0)
        ⟨true, 4096, some 16777216, true, true, true, true, false, true⟩)) = some true := by
    decide +kernel
  obtain ⟨s, reached, holds⟩ := Option.map_eq_some_iff.mp strands
  have inv : s.QueueInvariant :=
    exec_invariant schedStep_queueInvariant afterInit_queueInvariant reached
  refine ⟨s, reached, fun whole => ?_⟩
  exact (inv.allOrNothing_iff 65536 _ _).mp whole (of_decide_eq_true holds)

end Sched

end Librr
