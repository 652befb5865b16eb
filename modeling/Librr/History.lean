import Librr.Refinement

set_option autoImplicit false

namespace Librr

open Transition

namespace State

theorem returnCall_grows (s : State) (ut : Ptr) (call : Call) (result : CallResult) :
    s.history <+: (s.returnCall ut call result).history := List.prefix_append _ _

theorem finishIo_grows (s : State) (ut : Ptr) (call : Call) (raw : Int32) (data : Bytes) :
    s.history <+: (s.finishIo ut call raw data).history := by
  unfold finishIo
  split
  · exact List.prefix_refl _
  · rw [loggedReturn_history]
    exact List.prefix_append _ _

theorem perform_grows (s : State) (ut : Ptr) (u : Uthread) (answer : Answer) (action : Action) :
    s.history <+: (s.perform ut u answer action).history := by
  cases action with
  | create fn => exact List.prefix_refl _
  | yield => exact List.prefix_refl _
  | join id out =>
      simp only [perform]
      split <;> exact List.prefix_refl _
  | exit value => exact List.prefix_refl _
  | call call =>
      simp only [perform, wrappedCall]
      split
      · split
        · rw [loggedReturn_history]
          exact List.prefix_append _ _
        · unfold submitAndBlock
          split
          · exact finishIo_grows _ _ _ _ _
          · split
            · exact List.prefix_append _ _
            · refine List.IsPrefix.trans ?_ (finishIo_grows _ _ _ _ _)
              exact List.prefix_append _ _
      · split
        · split
          · refine List.IsPrefix.trans ?_ (returnCall_grows _ _ _ _)
            exact List.prefix_append _ _
          · refine List.IsPrefix.trans ?_ (returnCall_grows _ _ _ _)
            exact List.prefix_refl _
        · exact returnCall_grows _ _ _ _
  | ret =>
      simp only [perform]
      split <;> exact List.prefix_refl _

theorem performHost_grows (s : State) (answer : Answer) (action : Action) :
    s.history <+: (s.performHost answer action).history := by
  cases action with
  | call call => exact List.prefix_append _ _
  | create fn => exact List.prefix_refl _
  | yield => exact List.prefix_refl _
  | join id out => exact List.prefix_refl _
  | exit value => exact List.prefix_refl _
  | ret => exact List.prefix_refl _

theorem resume_grows (s : State) (ut : Ptr) (u : Uthread) :
    s.history <+: (s.resume ut u).history := by
  unfold resume
  split
  · exact List.prefix_refl _
  · exact List.prefix_refl _
  · exact List.prefix_refl _
  · refine List.IsPrefix.trans ?_ (finishIo_grows _ _ _ _ _)
    exact List.prefix_append _ _
  · exact List.prefix_refl _

theorem switchTo_grows (s : State) (popped : Sched) (next : Ptr) (u : Uthread) :
    s.history <+: (s.switchTo popped next u).history := by
  rw [switchTo_eq]
  refine List.IsPrefix.trans ?_ (resume_grows _ _ _)
  exact List.prefix_append _ _

theorem signalCompletion_grows (s : State) (cqe : Cqe) (answer : WaitAnswer) :
    s.history <+: (s.signalCompletion cqe answer).history := by
  have processed : (s.processSignal cqe).history = s.history := by
    unfold processSignal rrSignalProcess
    split
    · split
      · exact (rrLogSignal_same _ _ _).history
      · exact (rrLogSignal_same _ _ _).history
    · rfl
  have rearmed : s.history <+: ((s.processSignal cqe).rearmSignalRead answer.submit).history := by
    rcases (s.processSignal cqe).rearmSignalRead_cases answer.submit with
      ⟨_, same⟩ | ⟨fd, _, _, same⟩
    · have unchanged := (congrArg State.history same).trans processed
      exact unchanged.symm ▸ List.prefix_refl _
    · rw [same, ← processed]
      split
      · exact List.prefix_append _ _
      · exact List.prefix_refl _
  unfold signalCompletion
  split
  · exact processed.symm ▸ List.prefix_refl _
  · exact rearmed

theorem schedulerLoop_grows {s t : State} {answer : WaitAnswer}
    (taken : s.schedulerLoop answer = some t) : s.history <+: t.history := by
  unfold schedulerLoop at taken
  split at taken
  · unfold rrIoWait at taken
    split at taken
    · cases taken
      exact List.prefix_refl _
    · split at taken
      · cases taken
      · split at taken
        · cases taken
          exact signalCompletion_grows _ _ _
        · cases taken
          exact List.prefix_append _ _
  · split at taken
    · cases taken
    · split at taken
      · cases taken
        exact List.prefix_refl _
      · split at taken
        · cases taken
          exact switchTo_grows _ _ _ _
        · split at taken
          · split at taken
            · cases taken
              exact List.prefix_append _ _
            · cases taken
              refine List.IsPrefix.trans ?_ (switchTo_grows _ _ _ _)
              exact List.prefix_refl _
          · cases taken
            rw [← (rrLogSched_same _ _ _).history]
            exact switchTo_grows _ _ _ _

end State

/-- What has been seen stays seen, in every mode. -/
theorem step_grows {program : Program} {s t : State} {input : Input}
    (taken : step program s input = some t) : s.history <+: t.history := by
  cases input with
  | act answer =>
      simp only [step, State.act, Option.ite_none_right_eq_some] at taken
      obtain ⟨_, taken⟩ := taken
      split at taken
      · obtain ⟨⟨ut, u⟩, _, rfl⟩ := Option.map_eq_some_iff.mp taken
        exact State.perform_grows _ _ _ _ _
      · cases taken
        exact State.performHost_grows _ _ _
  | loop answer =>
      simp only [step, Option.ite_none_right_eq_some] at taken
      exact State.schedulerLoop_grows taken.2
  | post index res data =>
      simp only [step, Option.ite_none_right_eq_some] at taken
      obtain ⟨_, taken⟩ := taken
      obtain ⟨sqe, _, rfl⟩ := Option.map_eq_some_iff.mp taken
      exact List.prefix_append _ _

theorem exec_grows {program : Program} {s t : State} {inputs : List Input}
    (reached : exec (step program) s inputs = some t) : s.history <+: t.history :=
  exec_extends (fun _ _ _ taken _ => ⟨trivial, step_grows taken⟩) trivial reached

end Librr
