import Mathlib.Logic.Function.Basic

set_option autoImplicit false

/-! Cooperative threads. One runs at a time, and goes on until it passes, waits or ends; those
that can go on stand in a queue. What a thread does next is a function of its body and of
the replies it has received. -/
namespace Coop

/-- Where a thread stands. One that is ready may have a reply due, to the action it is in
the middle of. -/
inductive Status (α ρ ω ν : Type) where
  | running
  | ready (due : Option (α × ρ))
  | waiting (cause : ω)
  | finished (value : ν)

structure Thread (β α ρ ω ν : Type) where
  body : β
  trace : List (α × ρ)
  status : Status α ρ ω ν

inductive Turn (ι : Type) where
  | of (id : ι)
  | scheduler
  | over

structure Threads (ι β α ρ ω ν : Type) where
  thread : ι → Option (Thread β α ρ ω ν)
  queue : List ι
  turn : Turn ι

variable {ι β α ρ ω ν : Type}

namespace Thread

def replies (t : Thread β α ρ ω ν) : List ρ := t.trace.map Prod.snd

def new (body : β) : Thread β α ρ ω ν := ⟨body, [], .ready none⟩

def reply (t : Thread β α ρ ω ν) (action : α) (reply : ρ) : Thread β α ρ ω ν :=
  { t with trace := t.trace ++ [(action, reply)] }

/-- The thread goes on, and the reply that was due is part of its trace. -/
def resume (t : Thread β α ρ ω ν) (due : Option (α × ρ)) : Thread β α ρ ω ν :=
  ⟨t.body, t.trace ++ due.toList, .running⟩

def moveTo (t : Thread β α ρ ω ν) (status : Status α ρ ω ν) : Thread β α ρ ω ν :=
  { t with status := status }

end Thread

namespace Threads

variable [DecidableEq ι]

def set (m : Threads ι β α ρ ω ν) (id : ι) (t : Thread β α ρ ω ν) : Threads ι β α ρ ω ν :=
  { m with thread := Function.update m.thread id (some t) }

def answer (m : Threads ι β α ρ ω ν) (id : ι) (t : Thread β α ρ ω ν) (action : α) (reply : ρ) :
    Threads ι β α ρ ω ν :=
  m.set id (t.reply action reply)

def spawn (m : Threads ι β α ρ ω ν) (child : ι) (body : β) : Threads ι β α ρ ω ν :=
  { m.set child (.new body) with queue := m.queue ++ [child] }

def wake (m : Threads ι β α ρ ω ν) (id : ι) (t : Thread β α ρ ω ν) (action : α) (reply : ρ) :
    Threads ι β α ρ ω ν :=
  { m.set id (t.moveTo (.ready (some (action, reply)))) with queue := m.queue ++ [id] }

def pass (m : Threads ι β α ρ ω ν) (id : ι) (t : Thread β α ρ ω ν) (action : α) (reply : ρ) :
    Threads ι β α ρ ω ν :=
  { m.wake id t action reply with turn := .scheduler }

def wait (m : Threads ι β α ρ ω ν) (id : ι) (t : Thread β α ρ ω ν) (cause : ω) :
    Threads ι β α ρ ω ν :=
  { m.set id (t.moveTo (.waiting cause)) with turn := .scheduler }

def finish (m : Threads ι β α ρ ω ν) (id : ι) (t : Thread β α ρ ω ν) (value : ν) :
    Threads ι β α ρ ω ν :=
  { m.set id (t.moveTo (.finished value)) with turn := .scheduler }

def dispatch (m : Threads ι β α ρ ω ν) (id : ι) (t : Thread β α ρ ω ν) (due : Option (α × ρ))
    (rest : List ι) : Threads ι β α ρ ω ν :=
  { m.set id (t.resume due) with queue := rest, turn := .of id }

def halt (m : Threads ι β α ρ ω ν) : Threads ι β α ρ ω ν := { m with turn := .over }

end Threads

section Moves

variable [DecidableEq ι] (next : β → List ρ → α) (about : ω → α)

/-- It is the thread's turn. -/
structure Threads.Runs (m : Threads ι β α ρ ω ν) (id : ι) (t : Thread β α ρ ω ν) : Prop where
  turn : m.turn = .of id
  found : m.thread id = some t
  running : t.status = .running

/-- What can happen to cooperative threads. A thread that waits is woken from outside, with
the reply to the action it waits in. -/
inductive Move (m : Threads ι β α ρ ω ν) : Threads ι β α ρ ω ν → Prop where
  | answer (id : ι) (t : Thread β α ρ ω ν) (reply : ρ) (runs : m.Runs id t) :
    Move m (m.answer id t (next t.body t.replies) reply)
  | spawn (id : ι) (t : Thread β α ρ ω ν) (child : ι) (body : β) (reply : ρ)
    (runs : m.Runs id t) (fresh : m.thread child = none) :
    Move m ((m.spawn child body).answer id t (next t.body t.replies) reply)
  | pass (id : ι) (t : Thread β α ρ ω ν) (reply : ρ) (runs : m.Runs id t) :
    Move m (m.pass id t (next t.body t.replies) reply)
  | wait (id : ι) (t : Thread β α ρ ω ν) (cause : ω) (runs : m.Runs id t)
    (asked : next t.body t.replies = about cause) : Move m (m.wait id t cause)
  | finish (id : ι) (t : Thread β α ρ ω ν) (value : ν) (runs : m.Runs id t) :
    Move m (m.finish id t value)
  | wake (id : ι) (t : Thread β α ρ ω ν) (cause : ω) (reply : ρ) (found : m.thread id = some t)
    (waits : t.status = .waiting cause) : Move m (m.wake id t (about cause) reply)
  | dispatch (id : ι) (t : Thread β α ρ ω ν) (due : Option (α × ρ)) (rest : List ι)
    (turn : m.turn = .scheduler) (queue : m.queue = id :: rest) (found : m.thread id = some t)
    (ready : t.status = .ready due) : Move m (m.dispatch id t due rest)
  | halt : Move m m.halt

end Moves

namespace Threads

variable [DecidableEq ι] {m : Threads ι β α ρ ω ν}

theorem set_thread (m : Threads ι β α ρ ω ν) (id : ι) (t : Thread β α ρ ω ν) (other : ι) :
    (m.set id t).thread other = if other = id then some t else m.thread other :=
  Function.update_apply m.thread id (some t) other

theorem wake_thread (m : Threads ι β α ρ ω ν) (id : ι) (t : Thread β α ρ ω ν) (action : α)
    (reply : ρ) (other : ι) :
    (m.wake id t action reply).thread other =
      if other = id then some (t.moveTo (.ready (some (action, reply)))) else m.thread other :=
  m.set_thread id _ other

theorem finish_thread (m : Threads ι β α ρ ω ν) (id : ι) (t : Thread β α ρ ω ν) (value : ν)
    (other : ι) :
    (m.finish id t value).thread other =
      if other = id then some (t.moveTo (.finished value)) else m.thread other :=
  m.set_thread id _ other

theorem spawn_thread (m : Threads ι β α ρ ω ν) {child id : ι} {t : Thread β α ρ ω ν} {body : β}
    (fresh : m.thread child = none) (found : m.thread id = some t) :
    (m.spawn child body).thread id = some t := by
  have apart : id ≠ child := by
    rintro rfl
    rw [fresh] at found
    cases found
  exact (m.set_thread child _ id).trans ((if_neg apart).trans found)

/-- What holds of every thread holds of every one after one has been replaced. -/
theorem forall_set {holds : Thread β α ρ ω ν → Prop}
    (every : ∀ id t, m.thread id = some t → holds t) {id : ι} {t : Thread β α ρ ω ν}
    (placed : holds t) (other : ι) (u : Thread β α ρ ω ν)
    (found : (m.set id t).thread other = some u) : holds u := by
  rw [set_thread] at found
  split at found
  · cases found
    exact placed
  · exact every other u found

end Threads

/-- A thread whose trace grows only if `own` holds. -/
structure Thread.Grows (t t' : Thread β α ρ ω ν) (own : Prop) : Prop where
  body : t'.body = t.body
  trace : t.trace <+: t'.trace
  own : t'.trace ≠ t.trace → own

theorem Thread.Grows.moved {t : Thread β α ρ ω ν} {own : Prop} (status : Status α ρ ω ν) :
    t.Grows (t.moveTo status) own :=
  ⟨rfl, List.prefix_refl _, fun apart => absurd rfl apart⟩

theorem Thread.Grows.appended {t : Thread β α ρ ω ν} {own : Prop} {status : Status α ρ ω ν}
    (more : List (α × ρ)) (holds : own) : t.Grows ⟨t.body, t.trace ++ more, status⟩ own :=
  ⟨rfl, List.prefix_append _ _, fun _ => holds⟩

theorem Thread.Grows.trans {t t' t'' : Thread β α ρ ω ν} {first second : Prop}
    (one : t.Grows t' first) (two : t'.Grows t'' second) : t.Grows t'' (first ∨ second) where
  body := two.body.trans one.body
  trace := one.trace.trans two.trace
  own changed := by
    by_cases early : t'.trace = t.trace
    · exact .inr (two.own (early ▸ changed))
    · exact .inl (one.own early)

theorem Thread.Grows.mono {t t' : Thread β α ρ ω ν} {strong weak : Prop}
    (grows : t.Grows t' strong) (weaker : strong → weak) : t.Grows t' weak :=
  ⟨grows.body, grows.trace, fun changed => weaker (grows.own changed)⟩

theorem Threads.set_grows [DecidableEq ι] (m : Threads ι β α ρ ω ν) {id other : ι}
    {t u u' : Thread β α ρ ω ν} {own : Prop} (present : m.thread other = some u)
    (found : m.thread id = some t) (grows : id = other → u.Grows u' own) :
    ∃ t', (m.set other u').thread id = some t' ∧ t.Grows t' own := by
  rw [set_thread]
  by_cases here : id = other
  · obtain rfl : u = t := by
      rw [here, present] at found
      exact Option.some.inj found
    exact ⟨u', if_pos here, grows here⟩
  · exact ⟨t, (if_neg here).trans found, .moved t.status⟩

/-- A thread does what its body prescribes: every action of its trace, and the one it is in
the middle of, is the next one after the replies received before. -/
structure Thread.Conforms (next : β → List ρ → α) (about : ω → α) (t : Thread β α ρ ω ν) :
    Prop where
  trace : ∀ front action reply back, t.trace = front ++ (action, reply) :: back →
    next t.body (front.map Prod.snd) = action
  due : ∀ action reply, t.status = .ready (some (action, reply)) →
    next t.body t.replies = action
  waits : ∀ cause, t.status = .waiting cause → next t.body t.replies = about cause

section Conforms

variable {next : β → List ρ → α} {about : ω → α} {t : Thread β α ρ ω ν}

/-- An entry appended for the next action. -/
theorem conforms_trace (conforms : t.Conforms next about) {action : α} (reply : ρ)
    (asked : next t.body t.replies = action) (front : List (α × ρ)) (done : α) (got : ρ)
    (back : List (α × ρ)) (split : t.trace ++ [(action, reply)] = front ++ (done, got) :: back) :
    next t.body (front.map Prod.snd) = done := by
  rcases List.append_eq_append_iff.mp split with ⟨more, rfl, last⟩ | ⟨more, whole, last⟩
  · cases more with
    | nil =>
        cases last
        rw [List.append_nil]
        exact asked
    | cons entry rest => simp at last
  · cases more with
    | nil =>
        cases last
        rw [List.append_nil] at whole
        rw [← whole]
        exact asked
    | cons entry rest =>
        rw [List.cons_append, List.cons.injEq] at last
        obtain ⟨rfl, _⟩ := last
        exact conforms.trace front done got rest whole

theorem Thread.Conforms.reply (conforms : t.Conforms next about) (running : t.status = .running)
    (reply : ρ) : (t.reply (next t.body t.replies) reply).Conforms next about where
  trace := conforms_trace conforms reply rfl
  due action got ready := by rw [Thread.reply, running] at ready; cases ready
  waits cause waiting := by rw [Thread.reply, running] at waiting; cases waiting

theorem Thread.Conforms.resume (conforms : t.Conforms next about) {due : Option (α × ρ)}
    (ready : t.status = .ready due) : (t.resume due).Conforms next about where
  trace := by
    cases due with
    | none =>
        intro front action reply back split
        rw [Thread.resume, Option.toList_none, List.append_nil] at split
        exact conforms.trace front action reply back split
    | some entry => exact conforms_trace conforms entry.2 (conforms.due entry.1 entry.2 ready)
  due action reply again := by cases again
  waits cause waiting := by cases waiting

theorem Thread.Conforms.moveTo (conforms : t.Conforms next about) {status : Status α ρ ω ν}
    (due : ∀ action reply, status = .ready (some (action, reply)) →
      next t.body t.replies = action)
    (waits : ∀ cause, status = .waiting cause → next t.body t.replies = about cause) :
    (t.moveTo status).Conforms next about :=
  ⟨conforms.trace, due, waits⟩

/-- A thread that has done nothing yet and is inside of nothing. -/
theorem conforms_fresh (body : β) {status : Status α ρ ω ν}
    (due : ∀ action reply, status ≠ .ready (some (action, reply)))
    (waits : ∀ cause, status ≠ .waiting cause) :
    (⟨body, [], status⟩ : Thread β α ρ ω ν).Conforms next about where
  trace front action reply back split := by simp at split
  due action reply ready := absurd ready (due action reply)
  waits cause waiting := absurd waiting (waits cause)

end Conforms

section Runs

variable [DecidableEq ι] {next : β → List ρ → α} {about : ω → α} {m m' : Threads ι β α ρ ω ν}

theorem Move.conforms (move : Move next about m m')
    (every : ∀ id t, m.thread id = some t → t.Conforms next about) :
    ∀ id t, m'.thread id = some t → t.Conforms next about := by
  cases move with
  | answer id t reply runs =>
      exact Threads.forall_set every ((every id t runs.found).reply runs.running reply)
  | spawn id t child body reply runs fresh =>
      have started : ∀ other u, (m.spawn child body).thread other = some u →
          u.Conforms next about :=
        Threads.forall_set every (conforms_fresh body (by simp) (by simp))
      exact Threads.forall_set started ((every id t runs.found).reply runs.running reply)
  | pass id t reply runs =>
      refine Threads.forall_set every ((every id t runs.found).moveTo ?_ ?_)
      · rintro action got ⟨⟩
        rfl
      · rintro cause ⟨⟩
  | wait id t cause runs asked =>
      refine Threads.forall_set every ((every id t runs.found).moveTo ?_ ?_)
      · rintro action reply ⟨⟩
      · rintro other ⟨⟩
        exact asked
  | finish id t value runs =>
      refine Threads.forall_set every ((every id t runs.found).moveTo ?_ ?_)
      · rintro action reply ⟨⟩
      · rintro cause ⟨⟩
  | wake id t cause reply found waits =>
      have asked := (every id t found).waits cause waits
      refine Threads.forall_set every ((every id t found).moveTo ?_ ?_)
      · rintro action got ⟨⟩
        exact asked
      · rintro other ⟨⟩
  | dispatch id t due rest turn queue found ready =>
      exact Threads.forall_set every ((every id t found).resume ready)
  | halt => exact every

/-- A thread is there for good, and its trace grows only by its own doing: it has the turn
before or after the move. -/
theorem Move.grows (move : Move next about m m') {id : ι} {t : Thread β α ρ ω ν}
    (found : m.thread id = some t) :
    ∃ t', m'.thread id = some t' ∧ t.Grows t' (m.turn = .of id ∨ m'.turn = .of id) := by
  cases move with
  | answer other u reply runs =>
      exact m.set_grows runs.found found fun here => .appended _ (.inl (here ▸ runs.turn))
  | spawn other u child body reply runs fresh =>
      exact (m.spawn child body).set_grows (m.spawn_thread fresh runs.found)
        (m.spawn_thread fresh found) fun here => .appended _ (.inl (here ▸ runs.turn))
  | pass other u reply runs => exact m.set_grows runs.found found fun _ => .moved _
  | wait other u cause runs asked => exact m.set_grows runs.found found fun _ => .moved _
  | finish other u value runs => exact m.set_grows runs.found found fun _ => .moved _
  | wake other u cause reply present waits => exact m.set_grows present found fun _ => .moved _
  | dispatch other u due rest turn queue present ready =>
      exact m.set_grows present found fun here => .appended _ (.inr (here ▸ rfl))
  | halt => exact ⟨t, found, .moved t.status⟩

end Runs

end Coop
