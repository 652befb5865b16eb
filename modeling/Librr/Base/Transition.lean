import Mathlib.Data.List.Basic
import Mathlib.Order.Monotone.Basic
import Mathlib.Tactic.Common

set_option autoImplicit false

/-! Machines whose every choice is an explicit input. A run is a list of inputs;
a disabled input ends it without a state. -/
namespace Transition

variable {σ ι τ κ : Type}

def exec (step : σ → ι → Option σ) : σ → List ι → Option σ
  | state, [] => some state
  | state, input :: rest =>
    match step state input with
    | none => none
    | some next => exec step next rest

@[simp] theorem exec_nil (step : σ → ι → Option σ) (state : σ) :
    exec step state [] = some state := rfl

theorem exec_cons {step : σ → ι → Option σ} {state final : σ} {input : ι} {rest : List ι} :
    exec step state (input :: rest) = some final ↔
      ∃ next, step state input = some next ∧ exec step next rest = some final := by
  rw [exec]
  cases step state input with
  | none => simp
  | some next => simp

theorem exec_append {step : σ → ι → Option σ} {state final : σ} {front back : List ι} :
    exec step state (front ++ back) = some final ↔
      ∃ middle, exec step state front = some middle ∧ exec step middle back = some final := by
  induction front generalizing state with
  | nil => simp
  | cons input rest ih =>
      simp only [List.cons_append, exec_cons, ih]
      constructor
      · rintro ⟨next, taken, middle, first, second⟩
        exact ⟨middle, ⟨next, taken, first⟩, second⟩
      · rintro ⟨middle, ⟨next, taken, first⟩, second⟩
        exact ⟨next, taken, middle, first, second⟩

theorem exec_single {step : σ → ι → Option σ} {state next : σ} {input : ι}
    (taken : step state input = some next) : exec step state [input] = some next := by
  simp [exec, taken]

/-- The last step of a run, read off the run up to it. -/
theorem exec_after {step : σ → ι → Option σ} {state middle final : σ} {front : List ι} {input : ι}
    (reached : exec step state front = some middle)
    (more : exec step state (front ++ [input]) = some final) : step middle input = some final := by
  obtain ⟨other, same, rest⟩ := exec_append.mp more
  obtain rfl : other = middle := Option.some.inj (same.symm.trans reached)
  obtain ⟨next, taken, done⟩ := exec_cons.mp rest
  rw [taken]
  exact done

/-- Every step the run takes satisfies `holds`, read at the state before the
step, the input and the state after it. -/
def Along (step : σ → ι → Option σ) (holds : σ → ι → σ → Prop) : σ → List ι → Prop
  | _, [] => True
  | state, input :: rest =>
    ∀ next, step state input = some next → holds state input next ∧ Along step holds next rest

theorem along_cons {step : σ → ι → Option σ} {holds : σ → ι → σ → Prop} {state next : σ}
    {input : ι} {rest : List ι} (taken : step state input = some next) :
    Along step holds state (input :: rest) ↔
      holds state input next ∧ Along step holds next rest := by
  simp [Along, taken]

/-- A condition on single steps can be checked along a run. -/
instance Along.decidable {step : σ → ι → Option σ} {holds : σ → ι → σ → Prop}
    [∀ s i t, Decidable (holds s i t)] :
    (state : σ) → (inputs : List ι) → Decidable (Along step holds state inputs)
  | _, [] => isTrue trivial
  | state, input :: rest =>
    match taken : step state input with
    | none => isTrue fun next found => by rw [taken] at found; cases found
    | some next =>
      have : Decidable (Along step holds next rest) := Along.decidable next rest
      decidable_of_iff _ (along_cons taken).symm

theorem Along.mono {step : σ → ι → Option σ} {strong weak : σ → ι → σ → Prop}
    (weaker : ∀ state input next, strong state input next → weak state input next)
    {state : σ} {inputs : List ι} (along : Along step strong state inputs) :
    Along step weak state inputs := by
  induction inputs generalizing state with
  | nil => trivial
  | cons input rest ih =>
      intro next taken
      obtain ⟨head, tail⟩ := along next taken
      exact ⟨weaker state input next head, ih tail⟩

theorem Along.and {step : σ → ι → Option σ} {left right : σ → ι → σ → Prop}
    {state : σ} {inputs : List ι} (first : Along step left state inputs)
    (second : Along step right state inputs) :
    Along step (fun s i t => left s i t ∧ right s i t) state inputs := by
  induction inputs generalizing state with
  | nil => trivial
  | cons input rest ih =>
      intro next taken
      obtain ⟨head, tail⟩ := first next taken
      obtain ⟨head', tail'⟩ := second next taken
      exact ⟨⟨head, head'⟩, ih tail tail'⟩

/-- A condition on the inputs alone. -/
theorem along_of_inputs {step : σ → ι → Option σ} {allowed : ι → Prop} {state : σ}
    {inputs : List ι} (all : ∀ input ∈ inputs, allowed input) :
    Along step (fun _ input _ => allowed input) state inputs := by
  induction inputs generalizing state with
  | nil => trivial
  | cons input rest ih =>
      intro next _
      exact ⟨all input (by simp), ih fun later member => all later (by simp [member])⟩

theorem along_append {step : σ → ι → Option σ} {holds : σ → ι → σ → Prop}
    {state middle : σ} {front back : List ι} (reached : exec step state front = some middle) :
    Along step holds state (front ++ back) ↔
      Along step holds state front ∧ Along step holds middle back := by
  induction front generalizing state with
  | nil =>
      cases reached
      simp [Along]
  | cons input rest ih =>
      obtain ⟨next, taken, remaining⟩ := exec_cons.mp reached
      simp only [List.cons_append, Along, taken, Option.some.injEq, forall_eq']
      rw [ih remaining, and_assoc]

/-- A condition on the steps, checked at every way to cut the run at a step. -/
theorem along_of_splits {step : σ → ι → Option σ} {holds : σ → ι → σ → Prop} {state : σ}
    {inputs : List ι}
    (every : ∀ front input back before after, inputs = front ++ input :: back →
      exec step state front = some before → step before input = some after →
      holds before input after) :
    Along step holds state inputs := by
  induction inputs generalizing state with
  | nil => trivial
  | cons input rest ih =>
      intro next taken
      refine ⟨every [] input rest state next rfl rfl taken, ih ?_⟩
      intro front later back before after split reached moved
      exact every (input :: front) later back before after (by rw [split]; rfl)
        (exec_cons.mpr ⟨next, taken, reached⟩) moved

theorem Along.at_split {step : σ → ι → Option σ} {holds : σ → ι → σ → Prop} {state : σ}
    {inputs front back : List ι} {input : ι} {before after : σ}
    (along : Along step holds state inputs) (split : inputs = front ++ input :: back)
    (reached : exec step state front = some before) (taken : step before input = some after) :
    holds before input after := by
  rw [split] at along
  exact ((along_append reached).mp along).2 after taken |>.1

/-- Induction over a run: what every permitted step keeps holds at its end. -/
theorem Along.invariant {step : σ → ι → Option σ} {holds : σ → ι → σ → Prop}
    {keeps : σ → Prop} {state final : σ} {inputs : List ι}
    (preserved : ∀ s i t, step s i = some t → holds s i t → keeps s → keeps t)
    (along : Along step holds state inputs) (initial : keeps state)
    (reached : exec step state inputs = some final) : keeps final := by
  induction inputs generalizing state with
  | nil =>
      cases reached
      exact initial
  | cons input rest ih =>
      obtain ⟨next, taken, remaining⟩ := exec_cons.mp reached
      obtain ⟨head, tail⟩ := along next taken
      exact ih tail (preserved state input next taken head initial) remaining

theorem along_of_forall {step : σ → ι → Option σ} {holds : σ → ι → σ → Prop}
    (always : ∀ s i t, step s i = some t → holds s i t) (state : σ) (inputs : List ι) :
    Along step holds state inputs := by
  induction inputs generalizing state with
  | nil => trivial
  | cons input rest ih => exact fun next taken => ⟨always state input next taken, ih next⟩

/-- The same without a condition on the steps. -/
theorem exec_invariant {step : σ → ι → Option σ} {keeps : σ → Prop} {state final : σ}
    {inputs : List ι} (preserved : ∀ s i t, step s i = some t → keeps s → keeps t)
    (initial : keeps state) (reached : exec step state inputs = some final) : keeps final := by
  have always : Along step (fun _ _ _ => True) state inputs :=
    along_of_forall (fun _ _ _ _ => trivial) state inputs
  exact always.invariant (fun s i t taken _ => preserved s i t taken) initial reached

/-- An invariant may be used as a further condition on every step of the run. -/
theorem Along.strengthen {step : σ → ι → Option σ} {holds : σ → ι → σ → Prop}
    {keeps : σ → Prop} {state : σ} {inputs : List ι}
    (preserved : ∀ s i t, step s i = some t → holds s i t → keeps s → keeps t)
    (along : Along step holds state inputs) (initial : keeps state) :
    Along step (fun s i t => holds s i t ∧ keeps s ∧ keeps t) state inputs := by
  induction inputs generalizing state with
  | nil => trivial
  | cons input rest ih =>
      intro next taken
      obtain ⟨head, tail⟩ := along next taken
      have kept := preserved state input next taken head initial
      exact ⟨⟨head, initial, kept⟩, ih tail kept⟩

/-- A list that every step only extends is extended by a run. -/
theorem exec_extends {α : Type} {step : σ → ι → Option σ} {keeps : σ → Prop} {seen : σ → List α}
    (grows : ∀ s i t, step s i = some t → keeps s → keeps t ∧ seen s <+: seen t)
    {state final : σ} {inputs : List ι} (initial : keeps state)
    (reached : exec step state inputs = some final) : seen state <+: seen final := by
  induction inputs generalizing state with
  | nil =>
      cases reached
      exact List.prefix_refl _
  | cons input rest ih =>
      obtain ⟨next, taken, remaining⟩ := exec_cons.mp reached
      obtain ⟨kept, front⟩ := grows state input next taken initial
      exact front.trans (ih kept remaining)

/-- At every moment it is the front of what it is at the end. -/
theorem along_extends {α : Type} {step : σ → ι → Option σ} {keeps : σ → Prop}
    {seen : σ → List α}
    (grows : ∀ s i t, step s i = some t → keeps s → keeps t ∧ seen s <+: seen t)
    {state final : σ} {inputs : List ι} (initial : keeps state)
    (reached : exec step state inputs = some final) :
    Along step (fun _ _ t => seen t <+: seen final) state inputs := by
  induction inputs generalizing state with
  | nil => trivial
  | cons input rest ih =>
      obtain ⟨next, taken, remaining⟩ := exec_cons.mp reached
      obtain ⟨kept, _⟩ := grows state input next taken initial
      intro other same
      obtain rfl : next = other := Option.some.inj (taken.symm.trans same)
      exact ⟨exec_extends grows kept remaining, ih kept remaining⟩

/-- Lockstep with stuttering: each permitted step of one machine is answered by the
other machine's next step or by none. `steps k` is how far the other one has come
after `k` steps; whatever its inputs are, it comes along. -/
theorem Along.lockstep {step : σ → ι → Option σ} {other : τ → κ → Option τ}
    {holds : σ → ι → σ → Prop} {related : σ → τ → Prop} {stream : Nat → κ} {state final : σ}
    {mate : τ} {inputs : List ι}
    (answered : ∀ s i s' t n, step s i = some s' → holds s i s' → related s t →
      related s' t ∨ ∃ t', other t (stream n) = some t' ∧ related s' t')
    (along : Along step holds state inputs) (initial : related state mate)
    (reached : exec step state inputs = some final) :
    ∃ steps : Nat → Nat, steps 0 = 0 ∧
      (∀ k, steps k ≤ steps (k + 1) ∧ steps (k + 1) ≤ steps k + 1) ∧
      ∀ k, ∃ s t, exec step state (inputs.take k) = some s ∧
        exec other mate ((List.range (steps k)).map stream) = some t ∧ related s t := by
  induction inputs generalizing state mate stream with
  | nil =>
      refine ⟨fun _ => 0, rfl, by simp, ?_⟩
      intro k
      exact ⟨state, mate, by simp, rfl, initial⟩
  | cons input rest ih =>
      obtain ⟨next, taken, remaining⟩ := exec_cons.mp reached
      obtain ⟨head, tail⟩ := along next taken
      -- The number of answers to the first step, and the state they lead to.
      have first : ∃ n middle, n ≤ 1 ∧
          exec other mate ((List.range n).map stream) = some middle ∧ related next middle := by
        rcases answered state input next mate 0 taken head initial with same | ⟨t, moved, matched⟩
        · exact ⟨0, mate, by omega, rfl, same⟩
        · exact ⟨1, t, by omega, exec_single moved, matched⟩
      obtain ⟨n, middle, few, moved, matched⟩ := first
      obtain ⟨steps, zero, slow, pairs⟩ := ih
        (fun s i s' t m => answered s i s' t (n + m)) tail matched remaining
      refine ⟨fun k => match k with | 0 => 0 | k + 1 => n + steps k, rfl, ?_, ?_⟩
      · intro k
        cases k with
        | zero =>
            simp only [zero]
            omega
        | succ k =>
            have bounds := slow k
            simp only
            omega
      · intro k
        cases k with
        | zero => exact ⟨state, mate, rfl, rfl, initial⟩
        | succ k =>
            obtain ⟨s, t, front, back, tied⟩ := pairs k
            refine ⟨s, t, ?_, ?_, tied⟩
            · exact exec_cons.mpr ⟨next, taken, front⟩
            · have split : (List.range (n + steps k)).map stream =
                  (List.range n).map stream ++
                    (List.range (steps k)).map fun m => stream (n + m) := by
                rw [List.range_add, List.map_append, List.map_map]
                rfl
              simp only [split]
              exact exec_append.mpr ⟨middle, moved, back⟩

/-- Two machines that answer related inputs by related states, or both refuse them, run
in step. -/
theorem exec_rel {step : σ → ι → Option σ} {other : τ → κ → Option τ} {related : σ → τ → Prop}
    {alike : ι → κ → Prop}
    (answered : ∀ s t i j, related s t → alike i j → Option.Rel related (step s i) (other t j))
    {state : σ} {mate : τ} (initial : related state mate) {inputs : List ι} {others : List κ}
    (same : List.Forall₂ alike inputs others) :
    Option.Rel related (exec step state inputs) (exec other mate others) := by
  induction same generalizing state mate with
  | nil => exact .some initial
  | @cons input mine rest theirs agree _ ih =>
      have taken := answered state mate input mine initial agree
      rw [exec, exec]
      cases left : step state input with
      | none =>
          rw [left] at taken
          cases right : other mate mine with
          | none => exact .none
          | some after =>
              rw [right] at taken
              cases taken
      | some next =>
          rw [left] at taken
          cases right : other mate mine with
          | none =>
              rw [right] at taken
              cases taken
          | some after =>
              rw [right] at taken
              cases taken with
              | some related => exact ih related

theorem eq_of_rel {related : σ → σ → Prop} (equal : ∀ s t, related s t → s = t)
    {left right : Option σ}
    (both : Option.Rel related left right) : left = right := by
  cases both with
  | none => rfl
  | some related => rw [equal _ _ related]

end Transition
