import Mathlib.Data.List.Basic
import Mathlib.Logic.Relation
import Mathlib.Tactic.Common

set_option autoImplicit false

/-! Journals of one processor that several members share. A journal notes who takes the
processor over, and attributes everything else to whoever has it. -/
namespace Journal

variable {P I R : Type}

inductive Entry (I R : Type) where
  | switch (source target : I)
  | note (owner : I)
  | done (owner : I) (value : R)

def Entry.target : Entry I R → Option I
  | .switch _ target => some target
  | _ => none

/-- Who has the processor after the entries. -/
def latest (log : List (Entry I R)) : Option I :=
  log.foldl (fun owner entry => entry.target.or owner) none

theorem latest_snoc (log : List (Entry I R)) (entry : Entry I R) :
    latest (log ++ [entry]) = entry.target.or (latest log) := by
  simp [latest, List.foldl_append]

/-- An entry that may stand behind entries after which `owner` has the processor. -/
def Entry.Follows : Entry I R → Option I → Prop
  | .switch source target, owner => owner = some source ∧ source ≠ target
  | .note self, owner => owner = some self
  | .done self _, owner => owner = some self

/-- The journal begins with `first`, and every later entry follows what is before it. -/
structure Chained (first : Entry I R) (log : List (Entry I R)) : Prop where
  head : log.head? = some first
  later : ∀ front entry back, log = front ++ entry :: back → front ≠ [] →
    entry.Follows (latest front)

theorem Chained.snoc {first : Entry I R} {log : List (Entry I R)} (chained : Chained first log)
    {entry : Entry I R} (follows : entry.Follows (latest log)) :
    Chained first (log ++ [entry]) := by
  refine ⟨?_, ?_⟩
  · rw [List.head?_append, chained.head]
    rfl
  · intro front other back split inside
    -- The entry is the new one, or it stands in the old journal.
    rcases List.eq_nil_or_concat' back with rfl | ⟨back, last, rfl⟩
    · obtain ⟨rfl, rfl⟩ : log = front ∧ entry = other := by
        simpa using List.append_inj' split rfl
      exact follows
    · have shape : log ++ [entry] = (front ++ other :: back) ++ [last] := by simpa using split
      obtain ⟨same, _⟩ := List.append_inj' shape rfl
      exact chained.later front other back same inside

/-- What one entry says of finished work. -/
def Entry.work : Entry I R → Option (I × R)
  | .done owner value => some (owner, value)
  | _ => none

/-- A journal together with what really happened: who has the processor, the work that
was finished, and each member's name and own work. -/
structure Book (P I R : Type) where
  log : List (Entry I R)
  current : I
  finished : List (I × R)
  member : P → Option (I × List R)

/-- Nothing happens but that members may join. -/
structure Book.Joined (book after : Book P I R) : Prop where
  kept : ∀ p, book.member p ≠ none → after.member p = book.member p
  fresh : ∀ p entry, book.member p = none → after.member p = some entry → entry.2 = []

inductive Book.Step (book after : Book P I R) : Prop where
  | quiet (log : after.log = book.log) (current : after.current = book.current)
    (finished : after.finished = book.finished) (joined : book.Joined after)
  | note (log : after.log = book.log ++ [.note book.current])
    (current : after.current = book.current) (finished : after.finished = book.finished)
    (member : after.member = book.member)
  | done (p : P) (value : R) (past : List R) (here : book.member p = some (book.current, past))
    (log : after.log = book.log ++ [.done book.current value])
    (current : after.current = book.current)
    (finished : after.finished = book.finished ++ [(book.current, value)])
    (own : after.member p = some (book.current, past ++ [value]))
    (others : ∀ q, q ≠ p → after.member q = book.member q)
  | switch (target : I) (apart : book.current ≠ target)
    (log : after.log = book.log ++ [.switch book.current target])
    (current : after.current = target) (finished : after.finished = book.finished)
    (member : after.member = book.member)

/-- The journal is an exact account. A member whose name nobody shares finds its own work
in it, in order. -/
structure Book.Exact [DecidableEq I] (first : Entry I R) (book : Book P I R) : Prop where
  chained : Chained first book.log
  latest : Journal.latest book.log = some book.current
  work : book.log.filterMap Entry.work = book.finished
  names : ∀ entry ∈ book.finished, ∃ p past, book.member p = some (entry.1, past)
  own : ∀ p name past, book.member p = some (name, past) →
    (∀ q other, book.member q = some (name, other) → q = p) →
    (book.finished.filter fun entry => entry.1 = name).map Prod.snd = past

section Steps

variable [DecidableEq I] {first : Entry I R} {book after : Book P I R}

theorem Book.Exact.quiet (exact : book.Exact first) (log : after.log = book.log)
    (current : after.current = book.current) (finished : after.finished = book.finished)
    (joined : book.Joined after) : after.Exact first := by
  have kept : ∀ p entry, book.member p = some entry → after.member p = some entry := by
    intro p entry here
    rw [joined.kept p (by simp [here]), here]
  refine ⟨log ▸ exact.chained, ?_, ?_, ?_, ?_⟩
  · rw [log, current, exact.latest]
  · rw [log, finished, exact.work]
  · intro entry member
    rw [finished] at member
    obtain ⟨p, past, here⟩ := exact.names entry member
    exact ⟨p, past, kept p _ here⟩
  · intro p name past here alone
    rw [finished]
    cases before : book.member p with
    | some entry =>
        have same := kept p entry before
        rw [here] at same
        cases same
        exact exact.own p name past before fun q other there => alone q other (kept q _ there)
    | none =>
        -- A name nobody had before has no work to its credit.
        have empty : past = [] := joined.fresh p (name, past) before here
        rw [empty, List.map_eq_nil_iff, List.filter_eq_nil_iff]
        intro entry member named
        obtain ⟨q, other, there⟩ := exact.names entry member
        rw [decide_eq_true_eq] at named
        rw [named] at there
        have same := alone q other (kept q _ there)
        rw [same, before] at there
        cases there

theorem Book.Exact.note (exact : book.Exact first)
    (log : after.log = book.log ++ [.note book.current]) (current : after.current = book.current)
    (finished : after.finished = book.finished) (member : after.member = book.member) :
    after.Exact first := by
  refine ⟨?_, ?_, ?_, ?_, ?_⟩
  · rw [log]
    exact exact.chained.snoc exact.latest
  · rw [log, latest_snoc, current, exact.latest]
    rfl
  · rw [log, List.filterMap_append, exact.work, finished]
    simp [Entry.work]
  · rw [finished, member]
    exact exact.names
  · rw [finished, member]
    exact exact.own

theorem Book.Exact.switch (exact : book.Exact first) {target : I}
    (apart : book.current ≠ target) (log : after.log = book.log ++ [.switch book.current target])
    (current : after.current = target) (finished : after.finished = book.finished)
    (member : after.member = book.member) : after.Exact first := by
  refine ⟨?_, ?_, ?_, ?_, ?_⟩
  · rw [log]
    exact exact.chained.snoc ⟨exact.latest, apart⟩
  · rw [log, latest_snoc, current]
    rfl
  · rw [log, List.filterMap_append, exact.work, finished]
    simp [Entry.work]
  · rw [finished, member]
    exact exact.names
  · rw [finished, member]
    exact exact.own

theorem Book.Exact.done (exact : book.Exact first) {p : P} {value : R} {past : List R}
    (here : book.member p = some (book.current, past))
    (log : after.log = book.log ++ [.done book.current value])
    (current : after.current = book.current)
    (finished : after.finished = book.finished ++ [(book.current, value)])
    (own : after.member p = some (book.current, past ++ [value]))
    (others : ∀ q, q ≠ p → after.member q = book.member q) : after.Exact first := by
  refine ⟨?_, ?_, ?_, ?_, ?_⟩
  · rw [log]
    exact exact.chained.snoc exact.latest
  · rw [log, latest_snoc, current, exact.latest]
    rfl
  · rw [log, List.filterMap_append, exact.work, finished]
    simp [Entry.work]
  · intro entry member
    rw [finished, List.mem_append, List.mem_singleton] at member
    rcases member with before | rfl
    · obtain ⟨q, work, there⟩ := exact.names entry before
      by_cases same : q = p
      · subst same
        rw [here] at there
        obtain ⟨named, _⟩ := Prod.mk.inj (Option.some.inj there)
        exact ⟨q, past ++ [value], by rw [own, named]⟩
      · exact ⟨q, work, (others q same).trans there⟩
    · exact ⟨p, _, own⟩
  · intro q name work there alone
    rw [finished, List.filter_append, List.map_append]
    by_cases same : q = p
    · subst same
      rw [own] at there
      cases there
      have before := exact.own q book.current past here fun r other taken => by
        by_contra apart
        exact apart (alone r other ((others r apart).trans taken))
      rw [before]
      simp
    · have before := exact.own q name work ((others q same).symm.trans there)
        fun r other taken => by
        by_cases mine : r = p
        · subst mine
          rw [here] at taken
          cases taken
          exact alone r _ own
        · exact alone r other ((others r mine).trans taken)
      have foreign : book.current ≠ name := by
        rintro rfl
        exact same (alone p _ own).symm
      rw [before]
      simp [foreign]

/-- Every step keeps the account exact. -/
theorem Book.Exact.step (exact : book.Exact first) (step : book.Step after) :
    after.Exact first := by
  cases step with
  | quiet log current finished joined => exact exact.quiet log current finished joined
  | note log current finished member => exact exact.note log current finished member
  | done p value past here log current finished own others =>
      exact exact.done here log current finished own others
  | switch target apart log current finished member =>
      exact exact.switch apart log current finished member

theorem Book.Exact.steps (exact : book.Exact first)
    (steps : Relation.ReflTransGen Book.Step book after) : after.Exact first := by
  induction steps with
  | refl => exact exact
  | tail _ last ih => exact ih.step last

end Steps

end Journal
