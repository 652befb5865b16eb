import Librr.Base.Coop
import Librr.Wrappers
import Mathlib.Logic.Relation

set_option autoImplicit false

/-! What the runtime is for, without its pointers, its ring and its log: cooperative uthreads
known by their ids. -/
namespace Librr

open Relation

/-- What a uthread waits for. -/
inductive Cause where
  | join (id : UInt64) (out : Bool)
  | call (call : Call)

def Cause.action : Cause → Action
  | .join id out => .join id out
  | .call request => .call request

abbrev Task := Coop.Thread (Option Fn) Action Reply Cause UInt64

abbrev Tasks := Coop.Threads UInt64 (Option Fn) Action Reply Cause UInt64

/-- The reply of a join whose target has ended with `value`. -/
def Reply.ofEnded (out : Bool) (value : UInt64) : Reply :=
  .joined 0 none (if out then some value else none)

namespace Tasks

/-- Uthread `other` waits in a join of `target`. -/
def Joins (m : Tasks) (other target : UInt64) : Prop :=
  ∃ t out, m.thread other = some t ∧ t.status = .waiting (.join target out)

/-- What a join by uthread `id` answers at once. -/
inductive JoinAnswer (m : Tasks) (id target : UInt64) (out : Bool) : Reply → Prop where
  | unknown (absent : m.thread target = none) :
    JoinAnswer m id target out (.joined (-1) (some Errno.ESRCH) none)
  | itself (same : target = id) :
    JoinAnswer m id target out (.joined (-1) (some Errno.EDEADLK) none)
  | ended (t : Task) (value : UInt64) (found : m.thread target = some t)
    (finished : t.status = .finished value) :
    JoinAnswer m id target out (.ofEnded out value)
  | taken (t : Task) (other : UInt64) (found : m.thread target = some t)
    (live : ∀ value, t.status ≠ .finished value) (joins : m.Joins other target) :
    JoinAnswer m id target out (.joined (-1) (some Errno.EBUSY) none)

/-- One step. The outside decides whether a uthread can be created, what a call returns and
whether it returns at once, and when a call that waits completes: its result is
delivered only while no uthread is ready. -/
inductive Step (program : Program) (m : Tasks) : Tasks → Prop where
  | refuse (id : UInt64) (t : Task) (fn : Option Fn) (runs : m.Runs id t)
    (next : program t.body t.replies = .create fn) :
    Step program m (m.answer id t (.create fn) (.created 0))
  | create (id : UInt64) (t : Task) (start : Fn) (child : UInt64) (runs : m.Runs id t)
    (next : program t.body t.replies = .create (some start)) (named : child ≠ 0)
    (fresh : m.thread child = none) :
    Step program m
      ((m.spawn child (some start)).answer id t (.create (some start)) (.created child))
  | yield (id : UInt64) (t : Task) (runs : m.Runs id t)
    (next : program t.body t.replies = .yield) : Step program m (m.pass id t .yield .yielded)
  | joinNow (id : UInt64) (t : Task) (target : UInt64) (out : Bool) (reply : Reply)
    (runs : m.Runs id t) (next : program t.body t.replies = .join target out)
    (answered : m.JoinAnswer id target out reply) :
    Step program m (m.answer id t (.join target out) reply)
  | joinWait (id : UInt64) (t : Task) (target : UInt64) (out : Bool) (record : Task)
    (runs : m.Runs id t) (next : program t.body t.replies = .join target out)
    (found : m.thread target = some record) (live : ∀ value, record.status ≠ .finished value)
    (apart : target ≠ id) (free : ∀ other, ¬ m.Joins other target) :
    Step program m (m.wait id t (.join target out))
  | exit (id : UInt64) (t : Task) (value : UInt64) (runs : m.Runs id t)
    (next : program t.body t.replies = .exit value ∨
      program t.body t.replies = .ret ∧ t.body ≠ none ∧ value = 0)
    (unjoined : ∀ other, ¬ m.Joins other id) : Step program m (m.finish id t value)
  | exitJoined (id : UInt64) (t : Task) (value : UInt64) (other : UInt64) (w : Task) (out : Bool)
    (runs : m.Runs id t)
    (next : program t.body t.replies = .exit value ∨
      program t.body t.replies = .ret ∧ t.body ≠ none ∧ value = 0)
    (found : m.thread other = some w) (waits : w.status = .waiting (.join id out)) :
    Step program m ((m.finish id t value).wake other w (.join id out) (.ofEnded out value))
  | ret (id : UInt64) (t : Task) (runs : m.Runs id t) (next : program t.body t.replies = .ret)
    (main : t.body = none) : Step program m m.halt
  | call (id : UInt64) (t : Task) (call : Call) (result : CallResult) (runs : m.Runs id t)
    (next : program t.body t.replies = .call call) :
    Step program m (m.answer id t (.call call) (.returned result))
  | submit (id : UInt64) (t : Task) (call : Call) (runs : m.Runs id t)
    (next : program t.body t.replies = .call call) : Step program m (m.wait id t (.call call))
  | deliver (id : UInt64) (t : Task) (call : Call)
    (finish : Int32 → Bytes → CallResult × LogArgs) (raw : Int32) (data : Bytes)
    (idle : m.turn = .scheduler) (empty : m.queue = []) (found : m.thread id = some t)
    (waits : t.status = .waiting (.call call)) (half : call.wrapper.finish = some finish) :
    Step program m (m.wake id t (.call call) (.returned (finish raw data).1))
  | dispatch (id : UInt64) (t : Task) (due : Option (Action × Reply)) (rest : List UInt64)
    (idle : m.turn = .scheduler) (queue : m.queue = id :: rest) (found : m.thread id = some t)
    (ready : t.status = .ready due) : Step program m (m.dispatch id t due rest)
  | kill (idle : m.turn = .scheduler) : Step program m m.halt

/-- The main thread runs, and it is the only one. -/
def start : Tasks where
  thread id := if id = 1 then some ⟨none, [], .running⟩ else none
  queue := []
  turn := .of 1

/-- A step is a move of cooperative threads, or two with the scheduler between them: an exit
that ends a join. -/
theorem Step.moves {program : Program} {m m' : Tasks} (step : Step program m m') :
    Coop.Move program Cause.action m m' ∨ ∃ between, Coop.Move program Cause.action m between ∧
      between.turn = .scheduler ∧ Coop.Move program Cause.action between m' := by
  cases step with
  | refuse id t fn runs next => exact .inl (next ▸ .answer id t (.created 0) runs)
  | create id t start child runs next named fresh =>
      exact .inl (next ▸ .spawn id t child (some start) (.created child) runs fresh)
  | yield id t runs next => exact .inl (next ▸ .pass id t .yielded runs)
  | joinNow id t target out reply runs next answered =>
      exact .inl (next ▸ .answer id t reply runs)
  | joinWait id t target out record runs next found live apart free =>
      exact .inl (.wait id t (.join target out) runs next)
  | exit id t value runs next unjoined => exact .inl (.finish id t value runs)
  | exitJoined id t value other w out runs next found waits =>
      have apart : other ≠ id := by
        rintro rfl
        rw [runs.found] at found
        cases found
        rw [runs.running] at waits
        cases waits
      have present : (m.finish id t value).thread other = some w :=
        (m.finish_thread id t value other).trans ((if_neg apart).trans found)
      exact .inr ⟨m.finish id t value, .finish id t value runs, rfl,
        .wake other w (.join id out) (.ofEnded out value) present waits⟩
  | ret id t runs next main => exact .inl .halt
  | call id t call result runs next => exact .inl (next ▸ .answer id t (.returned result) runs)
  | submit id t call runs next => exact .inl (.wait id t (.call call) runs next)
  | deliver id t call finish raw data idle empty found waits half =>
      exact .inl (.wake id t (.call call) (.returned (finish raw data).1) found waits)
  | dispatch id t due rest idle queue found ready =>
      exact .inl (.dispatch id t due rest idle queue found ready)
  | kill idle => exact .inl .halt

/-- A step adds to what a uthread has done only if it is its turn before or after. -/
theorem Step.grows {program : Program} {m m' : Tasks} (step : Step program m m') {id : UInt64}
    {t : Task} (found : m.thread id = some t) :
    ∃ t', m'.thread id = some t' ∧ t.Grows t' (m.turn = .of id ∨ m'.turn = .of id) := by
  rcases step.moves with move | ⟨between, first, scheduler, second⟩
  · exact move.grows found
  · obtain ⟨t₁, there, one⟩ := first.grows found
    obtain ⟨t₂, last, two⟩ := second.grows there
    rw [scheduler] at one two
    exact ⟨t₂, last, (one.trans two).mono (by simp_all)⟩

/-- Reached from the start of the process. -/
def Reached (program : Program) (m : Tasks) : Prop := ReflTransGen (Step program) start m

theorem Reached.conforms {program : Program} {m : Tasks} (reached : Reached program m) :
    ∀ id t, m.thread id = some t → t.Conforms program Cause.action := by
  induction reached with
  | refl =>
      intro id t found
      simp only [start] at found
      split at found
      · cases found
        exact Coop.conforms_fresh none (by simp) (by simp)
      · cases found
  | tail _ step ih =>
      rcases step.moves with move | ⟨between, first, _, second⟩
      · exact move.conforms ih
      · exact second.conforms (first.conforms ih)

end Tasks

end Librr
