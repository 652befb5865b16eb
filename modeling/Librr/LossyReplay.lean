import Librr.Transparency

set_option autoImplicit false

namespace Librr

open Transition IntrusiveQueue

/-- What replay returns in the place of a recorded result. The log holds 64 bytes of data, and
neither the address of an accepted peer nor what is left of a sleep. -/
def lossy : Action × Reply → Action × Reply
  | (.call call, .returned result) => (.call call, .returned (call.replayed result))
  | other => other

theorem lossy_plain : Plain lossy := by
  intro action reply other
  cases reply with
  | returned result => exact absurd rfl (other result)
  | created id => cases action <;> rfl
  | yielded => cases action <;> rfl
  | joined rc errno value => cases action <;> rfl

namespace Sched

/-- The start routine of a uthread and what it has finished. -/
def bodyAt (s : Sched) (ut : Ptr) : Option (Option Fn × List (Action × Reply)) :=
  (s.heap ut).map fun u => (u.startFn, u.ctx.trace)

theorem traceAt_body (s : Sched) (ut : Ptr) : s.traceAt ut = (s.bodyAt ut).map Prod.snd := by
  rw [traceAt, bodyAt, Option.map_map]
  rfl

theorem bodyAt_modify {base s : Sched} {cur : Ptr} {change : Uthread → Uthread}
    (heap : s.heap = base.heap.modify cur change)
    (kept : ∀ u, (change u).startFn = u.startFn ∧ (change u).ctx.trace = u.ctx.trace) (ut : Ptr) :
    s.bodyAt ut = base.bodyAt ut := by
  unfold bodyAt
  rw [heap, Heap.modify_apply]
  split
  · cases base.heap ut with
    | none => rfl
    | some u => exact congrArg some (Prod.ext (kept u).1 (kept u).2)
  · rfl

/-- The two runs beside each other, seen through `view`. -/
theorem Alike.bodies {view : Action × Reply → Action × Reply} {s t : Sched}
    (alike : Alike view s t) {program : Program} {ut : Ptr}
    (indifferent : ∀ fn trace, s.bodyAt ut = some (fn, trace) →
      program fn ((trace.map view).map Prod.snd) = program fn (trace.map Prod.snd)) :
    t.nextAction program ut = s.nextAction program ut ∧
      t.traceAt ut = (s.traceAt ut).map (List.map view) := by
  unfold nextAction traceAt
  cases here : s.heap ut with
  | none =>
      have both := alike.heap ut
      rw [here] at both
      rw [Option.map_eq_none_iff.mp both]
      exact ⟨rfl, rfl⟩
  | some u =>
      obtain ⟨v, found, same⟩ := alike.found here
      obtain ⟨start, _, _, frame, trace, replies⟩ := erased_parts same
      have next : program v.startFn v.ctx.replies = program u.startFn u.ctx.replies := by
        rw [start, replies]
        exact indifferent u.startFn u.ctx.trace (by rw [bodyAt, here]; rfl)
      rw [found]
      simp only [Option.map_some, frame, next, trace, and_self]

end Sched

namespace State

section Base

variable {program : Program} {view : Action × Reply → Action × Reply} {log : List Event}
  {r p : State}

/-- The scheduler of the recording process, before the call that it is waiting in if there is
one. -/
structure Base (program : Program) (view : Action × Reply → Action × Reply) (log : List Event)
    (r p : State) (base : Sched) : Prop where
  aligned : Aligned view log base r.log r.seq p
  current : r.sched.current = base.current
  queue : ∃ items, Represents r.sched.links items ∧
    Represents p.sched.links (items.filter fun ut => !r.sched.inCall ut)
  next : ∀ ut, r.sched.nextAction program ut = base.nextAction program ut
  bodies : ∀ ut, r.sched.bodyAt ut = base.bodyAt ut

theorem Aligned.settled (aligned : Aligned view log r.sched r.log r.seq p) (inv : r.Recording) :
    Base program view log r p r.sched := by
  obtain ⟨items, shape, _⟩ := inv.queue.runq
  have outside : items.filter (fun ut => !r.sched.inCall ut) = items := by
    apply List.filter_eq_self.mpr
    intro ut _
    have clear := aligned.clear.frames ut
    rw [aligned.alike.frameAt] at clear
    unfold Sched.inCall
    split
    · rename_i call serial inside
      exact absurd inside (clear call serial)
    · rfl
  refine ⟨aligned, rfl, ⟨items, shape, ?_⟩, fun _ => rfl, fun _ => rfl⟩
  rw [outside, aligned.alike.links]
  exact shape

variable {base : Sched} {ut : Ptr} {u : Uthread} {call : Call} {serial : Nat}

theorem InCall.waits (inside : InCall program view base ut u call) (inv : r.Recording)
    (aligned : Aligned view log base r.log r.seq p)
    (blocked : r.sched = base.rrSchedulerBlockCurrent (.io call serial)) :
    Base program view log r p base := by
  obtain ⟨items, shape, _⟩ := inv.queue.runq
  obtain ⟨current, present⟩ := Sched.of_running inside.running
  have parts := blocked.trans (Sched.rrSchedulerBlockCurrent_eq current inside.on _)
  have heap : r.sched.heap = base.heap.modify ut (Sched.suspend .blocked (.io call serial)) := by
    rw [parts]
    exact Heap.modify_modify _ _ _ _
  obtain rfl : items = [] := by
    apply shape.empty_iff.mp
    rw [parts]
    exact inside.head
  refine ⟨aligned, by rw [parts]; rfl, ⟨[], shape, inside.replay_queue aligned⟩, ?_, ?_⟩
  · exact fun other =>
      (Sched.next_modify present heap inside.framed inside.next rfl other).1
  · exact Sched.bodyAt_modify heap fun _ => ⟨rfl, rfl⟩

theorem InCall.returns (inside : InCall program view base ut u call) (inv : r.Recording)
    (aligned : Aligned view log base r.log r.seq p) {raw : Int32}
    (queued : r.sched = wokenSched base ut (.io call serial) raw) :
    Base program view log r p base := by
  obtain ⟨items, shape, _⟩ := inv.queue.runq
  obtain ⟨_, present⟩ := Sched.of_running inside.running
  have heap : r.sched.heap = base.heap.modify ut (Sched.wokenWith (.io call serial) raw) := by
    rw [queued]
    rfl
  have here : r.sched.heap ut = some (Sched.wokenWith (.io call serial) raw u) := by
    rw [heap, Heap.modify_same, present, Option.map_some]
  have single : items = [ut] := by
    have chain : Chain r.sched.links.next (some ut) [ut] :=
      ⟨rfl, by simp [Sched.links, here, Sched.wokenWith, Chain]⟩
    have head : r.sched.links.head = some ut := by
      rw [queued]
      rfl
    exact (head ▸ shape.chain).unique chain
  have inCall : r.sched.inCall ut = true := by
    simp [Sched.inCall, Sched.frameAt, Sched.core_some here, Sched.wokenWith, Uthread.core]
  refine ⟨aligned, by rw [queued]; rfl, ⟨items, shape, ?_⟩, ?_, ?_⟩
  · rw [single]
    simp only [List.filter_cons, inCall, Bool.not_true, Bool.false_eq_true, ↓reduceIte,
      List.filter_nil]
    exact inside.replay_queue aligned
  · exact fun other =>
      (Sched.next_modify present heap inside.framed inside.next rfl other).1
  · exact Sched.bodyAt_modify heap fun _ => ⟨rfl, rfl⟩

theorem Tied.rests (tied : Tied program view log r p) (inv : r.Recording) :
    ∃ base, Base program view log r p base := by
  cases tied with
  | settled aligned idle => exact ⟨r.sched, aligned.settled inv⟩
  | waiting base ut u call serial aligned inside blocked outstanding =>
      exact ⟨base, inside.waits inv aligned blocked⟩
  | woken base ut u call serial raw aligned inside queued idle =>
      exact ⟨base, inside.returns inv aligned queued⟩

end Base

/-- A replaying process at the point of a recording one: as in `Corresponds`, but its uthreads
have received what the log kept of the results. -/
structure Follows (program : Program) (log : List Event) (r p : State) : Prop where
  current : p.sched.current = r.sched.current
  queue : ∃ items, Represents r.sched.links items ∧
    Represents p.sched.links (items.filter fun ut => !r.sched.inCall ut)
  next : ∀ ut, p.sched.nextAction program ut = r.sched.nextAction program ut
  finished : ∀ ut, p.sched.traceAt ut = (r.sched.traceAt ut).map (List.map lossy)
  cursor : ∃ rest, log = r.log ++ rest ∧ p.reader = .before rest (r.seq + 1)
  matched : .mismatch ∉ p.history

theorem Tied.follows {program : Program} {log : List Event} {r p : State}
    (tied : Tied program lossy log r p) (inv : r.Recording)
    (indifferent : r.Indifferent program lossy) : Follows program log r p := by
  obtain ⟨base, aligned, current, queue, next, bodies⟩ := tied.rests inv
  have same : ∀ ut, p.sched.nextAction program ut = base.nextAction program ut ∧
      p.sched.traceAt ut = (base.traceAt ut).map (List.map lossy) := by
    intro ut
    refine aligned.alike.bodies fun fn trace body => ?_
    rw [← bodies ut] at body
    obtain ⟨u, found, parts⟩ := Option.map_eq_some_iff.mp body
    cases parts
    exact indifferent ut u found
  refine ⟨aligned.alike.current.trans current.symm, queue, ?_, ?_, aligned.cursor,
    aligned.matched⟩
  · exact fun ut => (same ut).1.trans (next ut).symm
  · intro ut
    rw [(same ut).2, Sched.traceAt_body, Sched.traceAt_body, bodies ut]

/-- Replay follows a recorded run in which nothing overlaps, nothing fails to be created or
submitted and no signal is consumed also where the log has lost a part of what the calls
returned, as long as no uthread would go another way for it: any of the wrapped calls, with any
results. -/
theorem replay_follows_up_to_loss (program : Program) (stackSize : Nat) (signalFd : Int32)
    (inputs : List Input) (recorded : State)
    (reached : exec (step program) (recordStart stackSize signalFd) inputs = some recorded)
    (sequential : Along (step program) (fun s input _ => s.Sequential program input)
      (recordStart stackSize signalFd) inputs)
    (indifferent : ∀ k s,
      exec (step program) (recordStart stackSize signalFd) (inputs.take k) = some s →
      s.Indifferent program lossy)
    (startTime : UInt64) (pid : UInt32) (replayStack : Nat)
    (choices : Nat → Answer × WaitAnswer) (created : ∀ n, (choices n).1.create.Succeeds) :
    ∃ steps : Nat → Nat, steps 0 = 0 ∧
      (∀ k, steps k ≤ steps (k + 1) ∧ steps (k + 1) ≤ steps k + 1) ∧
      ∀ k, ∃ r p, exec (step program) (recordStart stackSize signalFd) (inputs.take k) = some r ∧
        exec (advance program)
          (replayStart replayStack true (some (flushedLog startTime pid recorded.log)))
          ((List.range (steps k)).map choices) = some p ∧
        Follows program recorded.log r p := by
  have along : Along (step program) (fun s _ _ => s.Indifferent program lossy)
      (recordStart stackSize signalFd) inputs := by
    refine along_of_splits fun front input back s t split there taken => ?_
    refine indifferent front.length s ?_
    rw [split, List.take_left]
    exact there
  have steady := steady_of_view reached sequential along (fun _ _ _ _ => rfl)
    (List.prefix_refl recorded.log)
  obtain ⟨steps, zero, slow, pairs⟩ := lockstep_of_steady lossy_plain reached steady
    (log_of_exec reached) startTime pid replayStack created
  refine ⟨steps, zero, slow, fun k => ?_⟩
  obtain ⟨r, p, ran, replayed, inv, tied⟩ := pairs k
  exact ⟨r, p, ran, replayed, tied.follows inv (indifferent k r ran)⟩

/-- A program that sleeps, reads more than the log holds and accepts a connection, and looks
at nothing of it. -/
def sleepThenRead : Program
  | none, [] => .call (.nanosleep ⟨1, 0⟩ (some (List.replicate 16 9)))
  | none, [_] => .call (.read 3 (some (List.replicate 100 0)) 100)
  | none, [_, _] => .call (.accept 4 (some [0, 0]) (some [2, 0, 0, 0]))
  | none, _ => .ret
  | some _, _ => .exit 0

def sleepThenReadRun : List Input :=
  [.act .calm, .post 1 8 [], .loop .calm, .loop .calm,
    .act .calm, .post 1 100 (List.replicate 100 7), .loop .calm, .loop .calm,
    .act .calm, .post 1 5 [2, 2], .loop .calm, .loop .calm, .act .calm]

theorem sleepThenRead_indifferent (s : State) : s.Indifferent sleepThenRead lossy := by
  intro ut u _
  cases u.startFn with
  | some fn => rfl
  | none =>
      rw [Context.viewed, Context.replies]
      rcases u.ctx.trace with _ | ⟨_, _ | ⟨_, _ | ⟨_, rest⟩⟩⟩ <;> rfl

theorem sleepThenRead_loses :
    ∃ recorded, exec (step sleepThenRead) (recordStart 8192 5) sleepThenReadRun = some recorded ∧
      .returned 1 (.read 3 (some (List.replicate 100 0)) 100)
        ⟨100, none, some (List.replicate 100 7), none⟩ ∈ recorded.history := by
  have ran : (exec (step sleepThenRead) (recordStart 8192 5) sleepThenReadRun).map
      (fun s => decide (.returned 1 (.read 3 (some (List.replicate 100 0)) 100)
        ⟨100, none, some (List.replicate 100 7), none⟩ ∈ s.history)) = some true := by
    decide +kernel
  obtain ⟨recorded, reached, seen⟩ := Option.map_eq_some_iff.mp ran
  exact ⟨recorded, reached, of_decide_eq_true seen⟩

/-- Of the hundred bytes read, replay gives back 64. -/
theorem sleepThenRead_followed :
    ∃ recorded, exec (step sleepThenRead) (recordStart 8192 5) sleepThenReadRun = some recorded ∧
      .returned 1 (.read 3 (some (List.replicate 100 0)) 100)
        ⟨100, none, some (List.replicate 100 7), none⟩ ∈ recorded.history ∧
      (Call.read 3 (some (List.replicate 100 0)) 100).replayed
          ⟨100, none, some (List.replicate 100 7), none⟩ =
        ⟨100, none, some (List.replicate 64 7 ++ List.replicate 36 0), none⟩ ∧
      ∃ steps : Nat → Nat, steps 0 = 0 ∧
        (∀ k, steps k ≤ steps (k + 1) ∧ steps (k + 1) ≤ steps k + 1) ∧
        ∀ k, ∃ r p,
          exec (step sleepThenRead) (recordStart 8192 5) (sleepThenReadRun.take k) = some r ∧
          exec (advance sleepThenRead)
            (replayStart 8192 true (some (flushedLog 7 42 recorded.log)))
            ((List.range (steps k)).map fun _ => (.calm, .calm)) = some p ∧
          Follows sleepThenRead recorded.log r p := by
  obtain ⟨recorded, reached, lost⟩ := sleepThenRead_loses
  refine ⟨recorded, reached, lost, by decide +kernel, ?_⟩
  exact replay_follows_up_to_loss sleepThenRead 8192 5 sleepThenReadRun recorded reached
    (by decide +kernel) (fun _ s _ => sleepThenRead_indifferent s) 7 42 8192
    (fun _ => (.calm, .calm)) (fun _ => (by decide : Answer.calm.create.Succeeds))

end State

end Librr
