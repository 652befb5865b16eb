import Librr.Deviation
import Librr.Endings
import Librr.RingMoves

set_option autoImplicit false

namespace Librr

open Transition

structure Itimerspec where
  itInterval : Timespec
  itValue : Timespec
  deriving DecidableEq, Repr

/-- The timers of the process by their descriptors: the time until an armed one expires, and
`none` for a disarmed one. A read of a disarmed timer never completes. -/
abbrev Timers := Int32 → Option Timespec

/-- `timerfd_settime`. A zero `it_value` disarms the timer. -/
def Timers.settime (timers : Timers) (fd : Int32) (spec : Itimerspec) : Timers :=
  Function.update timers fd (if spec.itValue = ⟨0, 0⟩ then none else some spec.itValue)

/-- What `nanosleep` arms its timer with: zeroes, and the request as `it_value`. -/
def nanosleepSpec (req : Timespec) : Itimerspec := ⟨⟨0, 0⟩, req⟩

namespace State

/-- The timers after the next action of the program. -/
def timersAfter (program : Program) (s : State) (answer : Answer) (timers : Timers) : Timers :=
  match s.nextAction program with
  | some (.call (.nanosleep req _)) =>
    match answer.timerfdCreate with
    | .error _ => timers
    | .ok tfd =>
      match answer.timerfdSettime req with
      | some _ => timers
      | none => timers.settime tfd (nanosleepSpec req)
  | _ => timers

/-- The uthread is suspended in a sleep, and the operation it waits for reads a timer that expires
after the requested time. -/
def SleepsArmed (t : State) (timers : Timers) (ut : Ptr) (req : Timespec) : Prop :=
  ∃ rem sqe tfd, t.sched.stateOf ut = some .blocked ∧
    t.sched.frameAt ut = some (.io (.nanosleep req rem) sqe.serial) ∧
    sqe ∈ t.ring.inflight ∧ sqe.op = .read tfd 8 0 ∧ timers tfd = some req

variable {program : Program} {s t : State} {ut : Ptr} {u : Uthread}

/-- A call that returns at once leaves its caller running. -/
theorem returned_runs (inv : s.sched.QueueInvariant) (user : s.sched.control = .user)
    (running : s.sched.running = some (ut, u)) {base : State} (same : base.sched = s.sched)
    (args : LogArgs) (call : Call) (result : CallResult) :
    ((base.rrLogSyscall args).returnCall ut call result).sched.stateOf ut = some .running := by
  obtain ⟨_, found, runs⟩ := inv.running_at user running
  rw [loggedReturn_sched, same, Sched.stateOf_core, Sched.reply_core, Heap.modify_same, found]
  exact congrArg some runs

/-- A wrapped call blocks its caller only by submitting an operation. -/
theorem Recording.blocked_by_call {call : Call} {answer : Answer} (recording : s.Recording)
    (user : s.sched.control = .user) (running : s.sched.running = some (ut, u))
    (next : program u.startFn u.ctx.replies = .call call)
    (taken : Librr.step program s (.act answer) = some t)
    (blocks : t.sched.stateOf ut = some .blocked) :
    ∃ op, call.wrapper.issue answer = .submit op ∧ t = s.hand op call := by
  have records := recording.records
  rw [step_call records.ready user running next, wrappedCall, if_pos records.active] at taken
  have returned : ∀ (base : State) (args : LogArgs) (result : CallResult),
      base.sched = s.sched → t ≠ (base.rrLogSyscall args).returnCall ut call result := by
    rintro base args result same rfl
    rw [returned_runs recording.queue user running same] at blocks
    cases blocks
  cases issued : call.wrapper.issue answer with
  | done result args =>
      rw [issued] at taken
      exact absurd (Option.some.inj taken).symm (returned s args result rfl)
  | submit op =>
      obtain ⟨finish, half⟩ := Call.finish_of_submit issued
      rw [issued] at taken
      simp only [submitAndBlock, Ring.prepare, finishIo_eq half] at taken
      split at taken
      · exact absurd (Option.some.inj taken).symm (returned s _ _ rfl)
      · rename_i ring prepared
        split at prepared
        · cases prepared
        · cases prepared
          split at taken
          · exact ⟨op, rfl, (Option.some.inj taken).symm⟩
          · exact absurd (Option.some.inj taken).symm (returned _ _ _ rfl)

theorem nanosleep_submits {req : Timespec} {rem : Option Bytes} {answer : Answer} {op : IoOp}
    (submits : (Wrapper.nanosleep req rem).issue answer = .submit op) :
    ∃ tfd, answer.timerfdCreate = .ok tfd ∧ answer.timerfdSettime req = none ∧
      op = .read tfd 8 0 := by
  simp only [Wrapper.nanosleep] at submits
  split at submits
  · cases submits
  · rename_i tfd created
    split at submits
    · cases submits
    · rename_i armed
      cases submits
      exact ⟨tfd, created, armed, rfl⟩

/-- The timer a sleep has set. -/
theorem timersAfter_sleep {req : Timespec} {rem : Option Bytes} {answer : Answer} {tfd : Int32}
    (next : s.nextAction program = some (.call (.nanosleep req rem)))
    (created : answer.timerfdCreate = .ok tfd) (set : answer.timerfdSettime req = none)
    (timers : Timers) :
    s.timersAfter program answer timers tfd = if req = ⟨0, 0⟩ then none else some req := by
  simp only [timersAfter, next, created, set]
  exact Function.update_self _ _ _

/-- The one operation in flight with a fresh serial is the one just submitted. -/
theorem hand_inflight_fresh (serials : s.ring.Serials) {op : IoOp} {call : Call} {sqe : Sqe}
    (flying : sqe ∈ (s.hand op call).ring.inflight) (fresh : sqe.serial = s.ring.fresh) :
    sqe = ⟨op, s.sched.currentId, s.ring.fresh⟩ := by
  have members : sqe ∈ s.ring.inflight ∨ sqe ∈ s.ring.sq ∨
      sqe = ⟨op, s.sched.currentId, s.ring.fresh⟩ := by
    simpa [hand, Ring.submit, Ring.push] using flying
  have old : sqe.key ∉ s.ring.entries := by
    intro member
    have below := serials.below sqe.key member
    rw [Sqe.key, fresh] at below
    exact Nat.lt_irrefl _ below
  rcases members with earlier | queued | new
  · exact absurd (by simp [Ring.entries, List.mem_map_of_mem earlier]) old
  · exact absurd (by simp [Ring.entries, List.mem_map_of_mem queued]) old
  · exact new

/-- In a recorded run, a uthread that a sleep blocks waits for a timer that expires after the
requested time exactly if the request is not zero. -/
theorem sleeps_armed_iff {stackSize : Nat} {signalFd : Int32} {inputs : List Input}
    {req : Timespec} {rem : Option Bytes} {answer : Answer}
    (reached : exec (Librr.step program) (recordStart stackSize signalFd) inputs = some s)
    (user : s.sched.control = .user) (running : s.sched.running = some (ut, u))
    (next : program u.startFn u.ctx.replies = .call (.nanosleep req rem))
    (taken : Librr.step program s (.act answer) = some t)
    (blocks : t.sched.stateOf ut = some .blocked) (timers : Timers) :
    t.SleepsArmed (s.timersAfter program answer timers) ut req ↔ req ≠ ⟨0, 0⟩ := by
  have recording := recording_of_exec reached
  have asked : s.nextAction program = some (.call (.nanosleep req rem)) := by
    simp [nextAction, recording.records.ready, running, next]
  obtain ⟨op, submits, rfl⟩ := recording.blocked_by_call user running next taken blocks
  obtain ⟨tfd, created, set, rfl⟩ := nanosleep_submits submits
  have timer := timersAfter_sleep asked created set timers
  have current := (Sched.of_running running).1
  have suspended : (s.hand (.read tfd 8 0) (.nanosleep req rem)).sched.frameAt ut =
      some (.io (.nanosleep req rem) s.ring.fresh) := by
    have present := Sched.core_some (Sched.of_running running).2
    rw [hand, Sched.frameAt_modify
      (Sched.rrSchedulerBlockCurrent_core current recording.queue.on _), if_pos rfl, present]
    rfl
  constructor
  · rintro ⟨_, sqe, fd, _, frame, flying, reads, armed⟩ zero
    rw [suspended] at frame
    have new := hand_inflight_fresh (serials_of_exec reached) flying
      (by injection frame with inside; injection inside with _ same; exact same.symm)
    rw [new] at reads
    cases reads
    rw [timer, if_pos zero] at armed
    cases armed
  · intro positive
    refine ⟨rem, ⟨.read tfd 8 0, s.sched.currentId, s.ring.fresh⟩, tfd, blocks, suspended, ?_,
      rfl, ?_⟩
    · simp [hand, Ring.submit, Ring.push]
    · rw [timer, if_neg positive]

/-- The main thread sleeps for no time at all: its timer is disarmed, and it waits for it. -/
theorem zero_sleep_waits_on_disarmed : ∃ t,
    Librr.step (callOnce (.nanosleep ⟨0, 0⟩ none)) (recordStart 4096 7) (.act .calm) = some t ∧
    t.sched.stateOf 0 = some .blocked ∧
    t.ring.inflight = [⟨.read 7 128 0, rrSignalSentinel, 0⟩, ⟨.read 9 8 0, 1, 1⟩] ∧
    (recordStart 4096 7).timersAfter (callOnce (.nanosleep ⟨0, 0⟩ none)) .calm (fun _ => none) 9 =
      none ∧
    ¬ t.SleepsArmed ((recordStart 4096 7).timersAfter (callOnce (.nanosleep ⟨0, 0⟩ none)) .calm
      fun _ => none) 0 ⟨0, 0⟩ := by
  have timer : ∀ fd, (recordStart 4096 7).timersAfter (callOnce (.nanosleep ⟨0, 0⟩ none)) .calm
      (fun _ => none) fd = none := by
    intro fd
    have disarmed : (recordStart 4096 7).timersAfter (callOnce (.nanosleep ⟨0, 0⟩ none)) .calm
        (fun _ => none) = Timers.settime (fun _ => none) 9 (nanosleepSpec ⟨0, 0⟩) := rfl
    rw [disarmed, Timers.settime, Function.update_apply]
    split <;> rfl
  refine ⟨_, rfl, rfl, rfl, timer 9, ?_⟩
  rintro ⟨_, _, fd, _, _, _, _, armed⟩
  rw [timer fd] at armed
  cases armed

theorem second_sleep_waits_on_armed : ∃ t,
    Librr.step (callOnce (.nanosleep ⟨1, 0⟩ none)) (recordStart 4096 7) (.act .calm) = some t ∧
    t.SleepsArmed ((recordStart 4096 7).timersAfter (callOnce (.nanosleep ⟨1, 0⟩ none)) .calm
      fun _ => none) 0 ⟨1, 0⟩ := by
  refine ⟨_, rfl, ?_⟩
  apply (sleeps_armed_iff (exec_nil _ (recordStart 4096 7)) rfl rfl rfl rfl rfl _).mpr
  decide

end State

end Librr
