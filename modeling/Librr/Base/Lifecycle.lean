import Mathlib.Data.List.Induction

set_option autoImplicit false

/-! The life of one asynchronous operation: it is prepared; its submission fails, or it is
issued, completes with a result, resumes whoever waits for it, and answers the call. -/
namespace Lifecycle

variable {α : Type}

inductive Milestone (α : Type) where
  | failed
  | issued
  | completed (res : α)
  | resumed
  | answered (res : α)
  deriving DecidableEq, Repr

inductive Phase (α : Type) where
  | prepared
  | failed
  | flying
  | landed (res : α)
  | delivered (res : α)
  | answered (res : α)
  deriving DecidableEq, Repr

/-- The next phase, or `none` where the milestone is out of place. -/
def Phase.reach [DecidableEq α] : Phase α → Milestone α → Option (Phase α)
  | .prepared, .failed => some .failed
  | .prepared, .issued => some .flying
  | .flying, .completed res => some (.landed res)
  | .landed res, .resumed => some (.delivered res)
  | .delivered res, .answered raw => if raw = res then some (.answered res) else none
  | _, _ => none

/-- The phase after the milestones, if all of them are in place. -/
def phaseOf [DecidableEq α] (milestones : List (Milestone α)) : Option (Phase α) :=
  milestones.foldlM Phase.reach .prepared

variable [DecidableEq α]

theorem phaseOf_append (front back : List (Milestone α)) :
    phaseOf (front ++ back) = (phaseOf front).bind fun phase => back.foldlM Phase.reach phase := by
  simp [phaseOf, List.foldlM_append]

theorem phaseOf_snoc (front : List (Milestone α)) (last : Milestone α) :
    phaseOf (front ++ [last]) = (phaseOf front).bind fun phase => phase.reach last := by
  simp [phaseOf_append]

/-- What the milestones passed say about the phase. -/
structure Phase.Fits (phase : Phase α) (passed : List (Milestone α)) : Prop where
  failed : .failed ∈ passed → phase = .failed
  issued : .issued ∈ passed → phase ≠ .prepared ∧ phase ≠ .failed
  completed : ∀ res, phase = .landed res ∨ phase = .delivered res ∨ phase = .answered res →
    .completed res ∈ passed
  answered : ∀ res, .answered res ∈ passed → phase = .answered res

theorem Phase.reach_cases {phase next : Phase α} {last : Milestone α}
    (taken : phase.reach last = some next) :
    phase = .prepared ∧ last = .failed ∧ next = .failed ∨
      phase = .prepared ∧ last = .issued ∧ next = .flying ∨
      (∃ res, phase = .flying ∧ last = .completed res ∧ next = .landed res) ∨
      (∃ res, phase = .landed res ∧ last = .resumed ∧ next = .delivered res) ∨
      ∃ res, phase = .delivered res ∧ last = .answered res ∧ next = .answered res := by
  unfold reach at taken
  split at taken <;> simp_all

theorem Phase.Fits.snoc {phase next : Phase α} {passed : List (Milestone α)} {last : Milestone α}
    (fits : phase.Fits passed) (taken : phase.reach last = some next) :
    next.Fits (passed ++ [last]) := by
  obtain ⟨failed, issued, completed, answered⟩ := fits
  rcases reach_cases taken with ⟨rfl, rfl, rfl⟩ | ⟨rfl, rfl, rfl⟩ | ⟨res, rfl, rfl, rfl⟩ |
    ⟨res, rfl, rfl, rfl⟩ | ⟨res, rfl, rfl, rfl⟩
  all_goals exact ⟨by simp_all, by simp_all, by simp_all, by simp_all⟩

theorem phaseOf_fits (passed : List (Milestone α)) {phase : Phase α}
    (reached : phaseOf passed = some phase) : phase.Fits passed := by
  induction passed using List.reverseRecOn generalizing phase with
  | nil =>
      cases reached
      exact ⟨by simp, by simp, by simp, by simp⟩
  | append_singleton front last ih =>
      rw [phaseOf_snoc] at reached
      obtain ⟨before, got, taken⟩ := Option.bind_eq_some_iff.mp reached
      exact (ih got).snoc taken

/-- Once submission has failed nothing more happens to the operation. -/
theorem not_issued_of_failed {passed : List (Milestone α)} (orderly : (phaseOf passed).isSome)
    (failed : .failed ∈ passed) : .issued ∉ passed := by
  obtain ⟨phase, reached⟩ := Option.isSome_iff_exists.mp orderly
  have fits := phaseOf_fits passed reached
  exact fun issued => (fits.issued issued).2 (fits.failed failed)

/-- A call is answered with the result of its own operation. -/
theorem completed_of_answered {passed : List (Milestone α)} (orderly : (phaseOf passed).isSome)
    {res : α} (answered : .answered res ∈ passed) : .completed res ∈ passed := by
  obtain ⟨phase, reached⟩ := Option.isSome_iff_exists.mp orderly
  have fits := phaseOf_fits passed reached
  exact fits.completed res (.inr (.inr (fits.answered res answered)))

/-- Whoever is resumed is still waiting. -/
theorem unanswered_of_resumed {front back : List (Milestone α)}
    (orderly : (phaseOf (front ++ .resumed :: back)).isSome) :
    .failed ∉ front ∧ ∀ res, .answered res ∉ front := by
  obtain ⟨final, reached⟩ := Option.isSome_iff_exists.mp orderly
  rw [phaseOf_append] at reached
  obtain ⟨phase, got, rest⟩ := Option.bind_eq_some_iff.mp reached
  have fits := phaseOf_fits front got
  constructor
  · intro failed
    rw [fits.failed failed] at rest
    cases rest
  · intro res answered
    rw [fits.answered res answered] at rest
    cases rest

end Lifecycle
