import Librr.Base.Transition

set_option autoImplicit false

/-! Runs of a machine that keeps a queue: what the steps put in comes out in the same
order. -/
namespace Transition

variable {σ ι α : Type}

/-- What the steps of a run yield, in order. -/
def yields (step : σ → ι → Option σ) (label : σ → ι → σ → List α) : σ → List ι → List α
  | _, [] => []
  | state, input :: rest =>
    match step state input with
    | none => []
    | some next => label state input next ++ yields step label next rest

theorem yields_cons {step : σ → ι → Option σ} {label : σ → ι → σ → List α} {state next : σ}
    {input : ι} (taken : step state input = some next) (rest : List ι) :
    yields step label state (input :: rest) =
      label state input next ++ yields step label next rest := by
  simp only [yields, taken]

/-- If every step appends what enters to the queue and takes what leaves from its front,
a run does so as a whole. -/
theorem yields_fifo {step : σ → ι → Option σ} {holds : σ → List α → Prop}
    {entering leaving : σ → ι → σ → List α}
    (law : ∀ s i t queue, step s i = some t → holds s queue →
      ∃ rest, holds t rest ∧ queue ++ entering s i t = leaving s i t ++ rest)
    {state final : σ} {queue : List α} {inputs : List ι} (initial : holds state queue)
    (reached : exec step state inputs = some final) :
    ∃ rest, holds final rest ∧
      queue ++ yields step entering state inputs = yields step leaving state inputs ++ rest := by
  induction inputs generalizing state queue with
  | nil =>
      cases reached
      exact ⟨queue, initial, by simp [yields]⟩
  | cons input more ih =>
      obtain ⟨next, taken, remaining⟩ := exec_cons.mp reached
      obtain ⟨middle, kept, first⟩ := law state input next queue taken initial
      obtain ⟨rest, last, second⟩ := ih kept remaining
      refine ⟨rest, last, ?_⟩
      rw [yields_cons taken, yields_cons taken, ← List.append_assoc, first, List.append_assoc,
        second, List.append_assoc]

end Transition
