import Librr.Creation
import Librr.StartupFacts

set_option autoImplicit false

namespace Librr

open Transition

def SIGSEGV : Nat := 11

/-- Whether a set holds the signal, which is bit `signo - 1`. -/
def SigSet.holds (mask : SigSet) (signo : Nat) : Bool := mask.toNat.testBit (signo - 1)

/-- What `segv_handler` writes to the standard error before it aborts. -/
def overflowMessage (utid : UInt64) : String :=
  "[rr] stack overflow detected in uthread " ++ toString utid.toNat ++ "\n"

/-- How a memory fault ends: with the report of the runtime, in a handler of someone else, or
with the default action. -/
inductive Fate where
  | reported (message : String)
  | elsewhere (handler : Nat)
  | killed
  deriving DecidableEq, Repr

/-- `fault >= start && fault < end`, with `end` computed in 64 bits. -/
def GuardPage.Holds (page : GuardPage) (addr : Nat) : Prop :=
  page.start ≤ addr ∧ addr < (page.start + page.size) % 2 ^ 64

instance (page : GuardPage) (addr : Nat) : Decidable (page.Holds addr) :=
  inferInstanceAs (Decidable (_ ∧ _))

namespace Sched

/-- The id of the first entry whose page holds the address. -/
def rrIsGuardPageFault (s : Sched) (addr : Nat) : Option UInt64 :=
  s.guardPages.items.findSome? fun page => if page.Holds addr then some page.utid else none

/-- Any other fault is raised again with the default action. -/
def segvHandler (s : Sched) (addr : Nat) : Fate :=
  match s.rrIsGuardPageFault addr with
  | some utid => .reported (overflowMessage utid)
  | none => .killed

end Sched

/-- A fault whose signal is blocked kills the process, whatever handler is installed. -/
def Sched.fault (s : Sched) (mask : SigSet) (segv : Sigaction) (addr : Nat) : Fate :=
  if mask.holds SIGSEGV then .killed
  else
    match segv.handler with
    | .segvHandler => s.segvHandler addr
    | .other handler => .elsewhere handler
    | .default => .killed
    | .ignore => .killed

/-- The signal mask of the process, and those saved in the contexts of the uthreads and of the
scheduler. -/
structure Masks where
  current : SigSet
  saved : Ptr → SigSet
  scheduler : SigSet

namespace Masks

/-- `getcontext` has saved the mask of the process in every context. -/
def inherited (mask : SigSet) : Masks := ⟨mask, fun _ => mask, mask⟩

/-- `swapcontext(&cur->ctx, &g_sched_ctx)`. -/
def swapOut (masks : Masks) (cur : Ptr) : Masks :=
  ⟨masks.scheduler, Function.update masks.saved cur masks.current, masks.scheduler⟩

/-- `swapcontext(&g_sched_ctx, &next->ctx)`. -/
def swapIn (masks : Masks) (next : Ptr) : Masks :=
  ⟨masks.saved next, masks.saved, masks.current⟩

/-- `getcontext(&ut->ctx)` of a new uthread. -/
def create (masks : Masks) (ut : Ptr) : Masks :=
  { masks with saved := Function.update masks.saved ut masks.current }

/-- The masks after an operation, told by who executes before and after it, and by whether a
record was allocated. -/
def step (masks : Masks) (s t : Sched) : Masks :=
  match s.control, t.control with
  | .user, .scheduler => masks.swapOut (s.current.getD 0)
  | .scheduler, .user => masks.swapIn (t.current.getD 0)
  | _, _ => if t.brk = s.brk then masks else masks.create s.brk

/-- Every context blocks the signal. -/
structure Block (masks : Masks) (signo : Nat) : Prop where
  current : masks.current.holds signo = true
  saved : ∀ ut, (masks.saved ut).holds signo = true
  scheduler : masks.scheduler.holds signo = true

end Masks

/-- An operation of the scheduler together with the masks of its contexts. -/
def maskedStep (run : Sched × Masks) (op : SchedOp) : Option (Sched × Masks) :=
  (run.1.schedStep op).map fun t => (t, run.2.step run.1 t)

namespace Masks

variable {masks : Masks} {signo : Nat}

theorem Block.inherited {mask : SigSet} (blocked : mask.holds signo = true) :
    (Masks.inherited mask).Block signo :=
  ⟨blocked, fun _ => blocked, blocked⟩

theorem Block.update (block : masks.Block signo) (ut other : Ptr) :
    (Function.update masks.saved ut masks.current other).holds signo = true := by
  rw [Function.update_apply]
  split
  · exact block.current
  · exact block.saved other

/-- A mask is only ever copied from one context to another. -/
theorem Block.step (block : masks.Block signo) (s t : Sched) : (masks.step s t).Block signo := by
  unfold Masks.step
  split
  · exact ⟨block.scheduler, fun other => block.update _ other, block.scheduler⟩
  · exact ⟨block.saved _, block.saved, block.current⟩
  · split
    · exact block
    · exact ⟨block.current, fun other => block.update _ other, block.scheduler⟩

/-- In every run all contexts keep a signal blocked that is blocked at its start. -/
theorem Block.exec {run final : Sched × Masks} {ops : List SchedOp} (block : run.2.Block signo)
    (reached : exec maskedStep run ops = some final) : final.2.Block signo := by
  have kept : ∀ before op after, maskedStep before op = some after →
      before.2.Block signo → after.2.Block signo := by
    intro before op after taken inherited
    obtain ⟨t, _, rfl⟩ := Option.map_eq_some_iff.mp taken
    exact inherited.step _ _
  exact @exec_invariant _ _ _ (fun run : Sched × Masks => run.2.Block signo) _ _ _ kept block
    reached

end Masks

/-- A process in which `rr_init` has succeeded has every signal blocked. -/
theorem Process.rrInit_masked {mask : SigSet} {altstack : AltStack} {segv : Sigaction}
    {stackSize : Nat} {answer : InitAnswer} {final : Process}
    (ran : (atLoad mask altstack segv stackSize).rrInit answer = some final)
    (ready : final.runtime.config.runtimeReady = true) : final.mask = mask ||| sigfillset := by
  rcases (atLoad_loaded mask altstack segv stackSize).rrInit_cases ran with
    ⟨sp, size, stack, fd, begun⟩ | ⟨dormant, _⟩
  · exact begun.armed.mask
  · rw [dormant.unready] at ready
    cases ready

theorem sigfillset_holds_segv (mask : SigSet) : (mask ||| sigfillset).holds SIGSEGV = true := by
  have member : sigfillset.toNat.testBit 10 = true := by decide
  rw [SigSet.holds, UInt64.toNat_or, Nat.testBit_or]
  simp [SIGSEGV, member]

namespace Sched

/-- The guard page of every uthread is in the table. -/
def Guarded (s : Sched) : Prop :=
  ∀ ut birth, s.birthAt ut = some birth → birth.guardPage.size ≠ 0 →
    birth.guardPage ∈ s.guardPages.items

theorem Guarded.unborn {s t : Sched} (guarded : s.Guarded) (births : s.SameBirths t) :
    t.Guarded := by
  intro ut birth found real
  rw [births.births] at found
  rw [births.guardPages]
  exact guarded ut birth found real

/-- A creation that fails may leave a page in the table, but takes none out. -/
theorem Guarded.create {s : Sched} (guarded : s.Guarded) (stackSize : Nat) (fn : Option Fn)
    (answer : CreateAnswer) : (s.uthreadCreate stackSize fn answer).1.Guarded := by
  unfold uthreadCreate
  rcases s.rrUthreadCreate_outcomes stackSize fn answer with
    ⟨_, nextId, memory, outcome, _⟩ | ⟨_, threads, pages, page, memory, outcome, _, paged, _⟩ |
    ⟨_, start, mem, threads, allocated, pages, outcome, _, _, _, _, paged, _⟩
  · rw [outcome]
    exact guarded
  · rw [outcome]
    intro ut birth found real
    show _ ∈ pages.items
    rw [paged]
    exact List.mem_append_left _ (guarded ut birth found real)
  · rw [outcome]
    apply Guarded.unborn _ (enqueue_births _ _)
    intro ut birth found real
    show _ ∈ pages.items
    rw [paged]
    change (s.heap.set s.brk _ ut).map Uthread.birth = some birth at found
    by_cases fresh : ut = s.brk
    · rw [fresh, Heap.set_same, Option.map_some, Option.some.injEq] at found
      apply List.mem_append_right
      rw [← found, newUthread_guardPage]
      exact List.mem_singleton_self _
    · rw [Heap.set_other _ _ fresh] at found
      exact List.mem_append_left _ (guarded ut birth found real)

theorem Guarded.step {s t : Sched} {op : SchedOp} (guarded : s.Guarded)
    (taken : s.schedStep op = some t) : t.Guarded := by
  rcases schedStep_births taken with ⟨stackSize, fn, answer, rfl, rfl⟩ | births
  · exact guarded.create stackSize fn answer
  · exact guarded.unborn births

/-- The main uthread runs on the stack of the process, which has no guard page here. -/
theorem afterInit_guarded : afterInit.Guarded := by
  intro ut birth found real
  by_cases main : ut = 0
  · subst main
    cases found
    exact absurd rfl real
  · have absent : afterInit.birthAt ut = none := by
      show (afterInit.heap ut).map Uthread.birth = none
      simp [afterInit, Heap.set, main]
    rw [absent] at found
    cases found

/-- Where all pages that hold the address belong to one uthread, its id is found. -/
theorem rrIsGuardPageFault_eq {s : Sched} {addr : Nat} {page : GuardPage}
    (listed : page ∈ s.guardPages.items) (holds : page.Holds addr)
    (only : ∀ other ∈ s.guardPages.items, other.Holds addr → other.utid = page.utid) :
    s.rrIsGuardPageFault addr = some page.utid := by
  cases found : s.rrIsGuardPageFault addr with
  | none =>
      have missed := List.findSome?_eq_none_iff.mp found page listed
      rw [if_pos holds] at missed
      cases missed
  | some utid =>
      obtain ⟨other, member, named⟩ := List.exists_of_findSome?_eq_some found
      rw [Option.ite_none_right_eq_some] at named
      rw [← named.2, only other member named.1]

/-- The guard-page table lists the guard pages of the uthreads, and no others. -/
structure ExactGuards (s : Sched) : Prop where
  queue : s.QueueInvariant
  complete : s.Guarded
  sound : s.TablesSound

theorem ExactGuards.step {s t : Sched} {op : SchedOp} (guards : s.ExactGuards)
    (whole : s.Whole op) (taken : s.schedStep op = some t) : t.ExactGuards :=
  ⟨schedStep_queueInvariant s op t taken guards.queue, guards.complete.step taken,
    guards.sound.step guards.queue whole taken⟩

/-- So it stays in every run without a creation that gets stuck between the tables. -/
theorem exactGuards_of_masked {masks : Masks} {ops : List SchedOp} {final : Sched × Masks}
    (reached : exec maskedStep (afterInit, masks) ops = some final)
    (whole : Along maskedStep (fun before op _ => before.1.Whole op) (afterInit, masks) ops) :
    final.1.ExactGuards := by
  have kept : ∀ (before : Sched × Masks) (op : SchedOp) (after : Sched × Masks),
      maskedStep before op = some after → before.1.Whole op → before.1.ExactGuards →
      after.1.ExactGuards := by
    intro before op after taken fits guards
    obtain ⟨t, moved, rfl⟩ := Option.map_eq_some_iff.mp taken
    exact guards.step fits moved
  have initial : afterInit.ExactGuards :=
    ⟨afterInit_queueInvariant, afterInit_guarded, afterInit_tablesSound⟩
  exact @Along.invariant _ _ _ _ (fun run : Sched × Masks => run.1.ExactGuards) _ _ _ kept whole
    initial reached

/-- Where the guard pages are apart, the handler blames the right uthread. -/
theorem ExactGuards.segvHandler_reports {s : Sched} {ut : Ptr} {u : Uthread} {addr : Nat}
    (guards : s.ExactGuards) (live : s.heap ut = some u) (faults : u.birth.guardPage.Holds addr)
    (disjoint : ∀ other v, s.heap other = some v → v.birth.guardPage.Holds addr → other = ut) :
    s.segvHandler addr = .reported (overflowMessage u.id) := by
  have born : s.birthAt ut = some u.birth := by rw [birthAt, live, Option.map_some]
  have real : u.birth.guardPage.size ≠ 0 := by
    intro empty
    rw [GuardPage.Holds, empty, Nat.add_zero] at faults
    have wrapped := Nat.mod_le u.birth.guardPage.start (2 ^ 64)
    omega
  have only : ∀ other ∈ s.guardPages.items, other.Holds addr → other.utid = u.id := by
    intro other member holds
    obtain ⟨owner, _, birth, found, rfl⟩ := guards.sound.mapped other member
    obtain ⟨v, present, rfl⟩ := Option.map_eq_some_iff.mp found
    have same : owner = ut := disjoint owner v present holds
    rw [same, live] at present
    cases present
    rfl
  rw [segvHandler, rrIsGuardPageFault_eq (guards.complete ut _ born real) faults only]
  rfl

end Sched

/-- In no run behind a successful `rr_init` is an overflow reported. The table names the right
uthread for every address in its guard page, but every signal is blocked in every context, SIGSEGV
with them, so the fault kills the process before the handler runs. -/
theorem overflow_never_reported {mask : SigSet} {altstack : AltStack} {segv : Sigaction}
    {stackSize : Nat} {answer : InitAnswer} {p : Process} {signalFd : Int32}
    {ops : List SchedOp} {s : Sched} {masks : Masks} {ut : Ptr} {u : Uthread} {addr : Nat}
    (started : (Process.atLoad mask altstack segv stackSize).rrInit answer = some p)
    (success : p.runtime = .recordStart stackSize signalFd)
    (reached : exec maskedStep (p.runtime.sched, .inherited p.mask) ops = some (s, masks))
    (whole : Along maskedStep (fun before op _ => before.1.Whole op)
      (p.runtime.sched, .inherited p.mask) ops)
    (live : s.heap ut = some u) (faults : u.birth.guardPage.Holds addr)
    (disjoint : ∀ other v, s.heap other = some v → v.birth.guardPage.Holds addr → other = ut) :
    s.segvHandler addr = .reported (overflowMessage u.id) ∧
      s.fault masks.current p.segv addr = .killed := by
  have ready : p.runtime.config.runtimeReady = true := by
    rw [success]
    rfl
  have initial : p.runtime.sched = .afterInit := by
    rw [success]
    rfl
  constructor
  · rw [initial] at reached whole
    apply (Sched.exactGuards_of_masked reached whole).segvHandler_reports live faults disjoint
  · have blocked : p.mask.holds SIGSEGV = true := by
      rw [Process.rrInit_masked started ready]
      exact sigfillset_holds_segv mask
    have block := (Masks.Block.inherited blocked).exec reached
    rw [Sched.fault, if_pos block.current]

/-- The main uthread creates another, with its guard page at 1048576, and yields to it. -/
def secondRuns : List SchedOp :=
  [.create 8192 (some 0) ⟨true, 4096, some 1048576, true, true, true, true, true, true⟩, .yield,
    .next]

theorem secondRuns_whole : Along maskedStep (fun before op _ => before.1.Whole op)
    (.afterInit, .inherited sigfillset) secondRuns := by decide +kernel

theorem calmInit_succeeds : ∃ p, Process.ordinary.rrInit Process.calmInit = some p ∧
    p.runtime = .recordStart 8192 4 ∧ p.mask = sigfillset :=
  ⟨_, rfl, rfl, rfl⟩

/-- The new uthread runs, and its guard page is the only one. -/
theorem secondRuns_reached : ∃ s masks u,
    exec maskedStep (.afterInit, .inherited sigfillset) secondRuns = some (s, masks) ∧
    masks.current = sigfillset ∧ s.current = some 1 ∧ s.heap 1 = some u ∧
    u.birth = ⟨2, some 0, 1052672, 1048576⟩ ∧
    ∀ other v, s.heap other = some v → v.birth.guardPage.Holds 1052671 → other = 1 := by
  have facts : (exec maskedStep (.afterInit, .inherited sigfillset) secondRuns).map
      (fun run => (run.2.current, run.1.current, run.1.brk, run.1.birthAt 0, run.1.birthAt 1)) =
        some (sigfillset, some 1, 2, some ⟨1, none, 0, 0⟩,
          some ⟨2, some 0, 1052672, 1048576⟩) := by decide +kernel
  obtain ⟨⟨s, masks⟩, reached, seen⟩ := Option.map_eq_some_iff.mp facts
  simp only [Prod.mk.injEq] at seen
  obtain ⟨current, runs, brk, main, second⟩ := seen
  obtain ⟨u, present, birth⟩ := Option.map_eq_some_iff.mp second
  have inv : s.QueueInvariant := (Sched.exactGuards_of_masked reached secondRuns_whole).queue
  have unallocated : ∀ other, 2 ≤ other → s.heap other = none := by
    intro other behind
    rw [← brk] at behind
    exact (Sched.core_eq_none s other).mp (inv.unallocated other behind)
  refine ⟨s, masks, u, reached, current, runs, present, birth, ?_⟩
  intro other v found holds
  by_cases behind : 2 ≤ other
  · rw [unallocated other behind] at found
    cases found
  · by_contra apart
    have first : other = 0 := by omega
    rw [first] at found
    rw [Sched.birthAt, found, Option.map_some, Option.some.injEq] at main
    rw [main] at holds
    exact absurd holds (by decide)

/-- The handler would name the uthread for the byte under its stack. -/
theorem second_overflow_killed : ∃ p s masks u,
    Process.ordinary.rrInit Process.calmInit = some p ∧
    exec maskedStep (p.runtime.sched, .inherited p.mask) secondRuns = some (s, masks) ∧
    s.heap 1 = some u ∧ u.birth.guardPage.Holds 1052671 ∧
    s.segvHandler 1052671 = .reported (overflowMessage u.id) ∧
    s.fault masks.current p.segv 1052671 = .killed := by
  obtain ⟨p, started, success, mask⟩ := calmInit_succeeds
  obtain ⟨s, masks, u, reached, _, _, present, birth, only⟩ := secondRuns_reached
  have initial : (p.runtime.sched, Masks.inherited p.mask) =
      (.afterInit, .inherited sigfillset) := by
    rw [success, mask]
    rfl
  rw [← initial] at reached
  have whole := secondRuns_whole
  rw [← initial] at whole
  have faults : u.birth.guardPage.Holds 1052671 := by
    rw [birth]
    decide
  exact ⟨p, s, masks, u, started, reached, present, faults,
    overflow_never_reported started success reached whole present faults only⟩

/-- The uthread overflows its stack, and nothing is reported. -/
theorem second_overflow_unreported : ∃ p s masks u,
    Process.ordinary.rrInit Process.calmInit = some p ∧
    exec maskedStep (p.runtime.sched, .inherited p.mask) secondRuns = some (s, masks) ∧
    s.current = some 1 ∧ s.heap 1 = some u ∧ u.birth.guardPage.Holds 1052671 ∧
    s.fault masks.current p.segv 1052671 ≠ .reported (overflowMessage u.id) := by
  obtain ⟨p, started, success, mask⟩ := calmInit_succeeds
  obtain ⟨s, masks, u, reached, current, runs, present, birth, _⟩ := secondRuns_reached
  refine ⟨p, s, masks, u, started, ?_, runs, present, ?_, ?_⟩
  · rw [success, mask]
    exact reached
  · rw [birth]
    decide
  · have blocked : sigfillset.holds SIGSEGV = true := by decide
    rw [Sched.fault, current, if_pos blocked]
    exact nofun

end Librr
