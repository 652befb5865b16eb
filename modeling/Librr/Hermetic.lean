import Librr.Accounts

set_option autoImplicit false

namespace Librr

open Transition

/-- Two inputs of a replaying process that agree on what becomes of a creation and, in
real-time replay, on what the real functions return. -/
inductive Input.SameCreation (virtualTime : Bool) : Input → Input → Prop where
  | act {mine theirs : Answer} (create : mine.create = theirs.create)
    (clock : virtualTime = false → mine.real = theirs.real) :
    SameCreation virtualTime (.act mine) (.act theirs)
  | loop (mine theirs : WaitAnswer) : SameCreation virtualTime (.loop mine) (.loop theirs)
  | post (index other : Nat) (res res' : Int32) (data data' : Bytes) :
    SameCreation virtualTime (.post index res data) (.post other res' data')

/-- In virtual time no replayed call asks a real function. -/
theorem Call.replay_virtual (call : Call) (real other : Real) (event : ReplayEvent) :
    call.wrapper.replay true real event = call.wrapper.replay true other event := by
  cases call <;> rfl

namespace State

variable {program : Program} {p p' : State}

section Congruence

variable {mine theirs : Answer}

theorem wrappedCall_congr (replays : p.Replays)
    (clock : p.config.replayTimeVirtual = false → mine.real = theirs.real) (ut : Ptr)
    (call : Call) : p.wrappedCall ut call mine = p.wrappedCall ut call theirs := by
  have inactive : p.config.rrActive = false := by simp [Config.rrActive, replays.modeRecord]
  have active : p.config.rrReplayActive = true := by
    simp [Config.rrReplayActive, replays.modeReplay, replays.ready]
  have result : ∀ event,
      call.wrapper.replay p.config.replayTimeVirtual mine.real event =
        call.wrapper.replay p.config.replayTimeVirtual theirs.real event := by
    intro event
    cases time : p.config.replayTimeVirtual with
    | true => exact call.replay_virtual mine.real theirs.real event
    | false => rw [clock time]
  simp only [wrappedCall, inactive, active, Bool.false_eq_true, ↓reduceIte, result]

theorem perform_congr (replays : p.Replays) (create : mine.create = theirs.create)
    (clock : p.config.replayTimeVirtual = false → mine.real = theirs.real) (ut : Ptr)
    (u : Uthread) (action : Action) :
    p.perform ut u mine action = p.perform ut u theirs action := by
  cases action with
  | create fn => simp only [perform, create]
  | yield => rfl
  | join id out => rfl
  | exit value => rfl
  | call call => exact wrappedCall_congr replays clock ut call
  | ret => rfl

theorem schedulerLoop_congr (replays : p.Replays) (mine theirs : WaitAnswer) :
    p.schedulerLoop mine = p.schedulerLoop theirs := by
  have waits : ∀ answer, p.rrIoWait answer = some p := by
    intro answer
    simp [rrIoWait, replays.ring]
  simp only [schedulerLoop, waits]

end Congruence

/-- Nothing else of the world reaches a step of replay. -/
theorem Replays.step_congr (replays : p.Replays) {input other : Input}
    (same : Input.SameCreation p.config.replayTimeVirtual input other) :
    Librr.step program p input = Librr.step program p other := by
  cases same with
  | act create clock =>
      simp only [Librr.step, State.act, replays.ready, ↓reduceIte,
        perform_congr replays create clock]
  | loop mine theirs => simp only [Librr.step, schedulerLoop_congr replays mine theirs]
  | post index other res res' data data' => simp [Librr.step, replays.inflight]

theorem ReplayStep.config {input : Input} (taken : ReplayStep program p input p') :
    p'.config = p.config := by
  cases taken with
  | perform answer ut u sched user running performed => rfl
  | answered answer ut u call reader event user running next matched => rfl
  | refused answer ut u call reader errno user running next missed => rfl
  | idle answer idle empty => rfl
  | again answer next u idle head found runnable same =>
      rw [switchTo_eq, (resume_kept _ _ _).1, arrive]
  | switch answer next u reader idle head found runnable apart expected =>
      rw [switchTo_eq, (resume_kept _ _ _).1, arrive]
  | abort answer next u reader errno idle head found runnable apart unexpected => rfl

/-- The course of a replay is settled by the program, the log and the answers to the calls that
create uthreads, the addresses of their stacks included; in real-time replay also by what the
real functions return, and by nothing else the world may answer. -/
theorem replay_is_hermetic (program : Program) (stackSize : Nat) (virtualTime : Bool)
    (file : Option Bytes)
    (ready : (replayStart stackSize virtualTime file).config.runtimeReady = true)
    (inputs others : List Input)
    (same : List.Forall₂ (Input.SameCreation virtualTime) inputs others) :
    exec (Librr.step program) (replayStart stackSize virtualTime file) inputs =
      exec (Librr.step program) (replayStart stackSize virtualTime file) others := by
  have start : (replayStart stackSize virtualTime file).Replaying ∧
      (replayStart stackSize virtualTime file).config.replayTimeVirtual = virtualTime := by
    rcases replayStart_cases stackSize virtualTime file with
      ⟨unready, _⟩ | ⟨reader, _, _, _, equal⟩
    · rw [unready] at ready
      cases ready
    · rw [equal]
      exact ⟨fresh_replaying _ _ _, rfl⟩
  have answered : ∀ (s t : State) (input other : Input),
      (s = t ∧ s.Replaying ∧ s.config.replayTimeVirtual = virtualTime) →
      Input.SameCreation virtualTime input other →
      Option.Rel (fun s t : State => s = t ∧ s.Replaying ∧ s.config.replayTimeVirtual = virtualTime)
        (Librr.step program s input) (Librr.step program t other) := by
    rintro s _ input other ⟨rfl, replaying, time⟩ agree
    have equal : Librr.step program s input = Librr.step program s other :=
      replaying.replays.step_congr (time.symm ▸ agree)
    rw [← equal]
    cases taken : Librr.step program s input with
    | none => exact .none
    | some t =>
        obtain ⟨kind, replaying'⟩ := replaying.step taken
        exact .some ⟨rfl, replaying', (congrArg Config.replayTimeVirtual kind.config).trans time⟩
  exact eq_of_rel (fun _ _ both => both.1) (exec_rel answered ⟨rfl, start⟩ same)

/-- A program that asks for the time again and again. -/
def clockAsked : Program := fun _ _ => .call (.clockGettime 0 (List.replicate 16 0))

/-- The log of a run that has asked once. -/
def clockLog : Bytes :=
  flushedLog 0 7 [⟨1, 1, .sched 0 1⟩,
    ⟨2, 1, .syscall Nr.clockGettime 0 0 (.ofBytes (List.replicate 16 7)) 16⟩]

/-- Whatever the clock shows while it is replayed. -/
theorem clockAsked_hermetic :
    (replayStart 8192 true (some clockLog)).config.runtimeReady = true ∧
      ∀ real : Real,
        exec (Librr.step clockAsked) (replayStart 8192 true (some clockLog))
            [.act .calm, .act .calm] =
          exec (Librr.step clockAsked) (replayStart 8192 true (some clockLog))
            [.act { Answer.calm with real := real }, .act .calm] := by
  have ready : (replayStart 8192 true (some clockLog)).config.runtimeReady = true := by
    decide +kernel
  refine ⟨ready, fun real => replay_is_hermetic _ 8192 true _ ready _ _ ?_⟩
  exact .cons (.act rfl fun late => (by cases late))
    (.cons (.act rfl fun _ => rfl) .nil)

end State

end Librr
