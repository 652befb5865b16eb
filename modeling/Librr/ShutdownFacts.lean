import Librr.Accounts
import Librr.StackSize

set_option autoImplicit false

namespace Librr

open Ledger Transition

namespace Process

variable {p : Process}

/-- The records at `items` are freed. -/
def freed (p : Process) (held : Option (List Resource)) (items : List Ptr) : Process :=
  { p with
    held := held
    runtime := { p.runtime with
      sched := { p.runtime.sched with
        heap := fun ut => if ut ∈ items then none else p.runtime.sched.heap ut } } }

theorem freeThread_live {ut : Ptr} {rest : Multiset Resource}
    (live : (p.runtime.sched.core ut).isSome)
    (holds : Holds p.held (slot ((p.runtime.sched.core ut).bind Uthread.map) + rest)) :
    ∃ held, p.freeThread ut = p.freed held [ut] ∧ Holds held rest := by
  obtain ⟨v, known⟩ := Option.isSome_iff_exists.mp live
  obtain ⟨u, found, rfl⟩ := Sched.of_core_some known
  have cleared : Function.update p.runtime.sched.heap ut none =
      fun other => if other ∈ [ut] then none else p.runtime.sched.heap other := by
    funext other
    simp [Function.update_apply]
  rw [known, Option.bind_some] at holds
  have map : u.core.map = u.map := rfl
  rw [map] at holds
  unfold freeThread
  rw [found, Option.bind_some]
  cases stack : u.map with
  | some mapping =>
      rw [stack] at holds
      refine ⟨_, ?_, holds.clear⟩
      have kept : (p.release mapping).runtime.sched.heap ut = some u := found
      simp only [free, kept, freed, ← cleared]
      rfl
  | none =>
      rw [stack] at holds
      refine ⟨p.held, ?_, by simpa using holds⟩
      simp only [free, found, freed, ← cleared]
      rfl

/-- Every record is freed once, with its stack. -/
theorem freeThreads {items : List Ptr} {rest : Multiset Resource} (distinct : items.Nodup)
    (live : ∀ ut ∈ items, (p.runtime.sched.core ut).isSome)
    (holds : Holds p.held
      (slots items (fun ut => (p.runtime.sched.core ut).bind Uthread.map) + rest)) :
    ∃ held, items.foldl freeThread p = p.freed held items ∧ Holds held rest := by
  induction items generalizing p with
  | nil => exact ⟨p.held, by simp [freed], by simpa using holds⟩
  | cons first others ih =>
      obtain ⟨fresh, distinct⟩ := List.nodup_cons.mp distinct
      rw [slots_cons, add_assoc] at holds
      obtain ⟨held, freed, holds⟩ := freeThread_live (live first List.mem_cons_self) holds
      have kept : ∀ ut ∈ others, (p.freed held [first]).runtime.sched.core ut =
          p.runtime.sched.core ut := by
        intro ut member
        have apart : ut ∉ [first] := by
          rw [List.mem_singleton]
          rintro rfl
          exact fresh member
        simp only [Process.freed, Sched.core, if_neg apart]
      rw [List.foldl_cons, freed]
      have same := slots_congr fun ut member => congrArg (Option.bind · Uthread.map)
        (kept ut member)
      obtain ⟨left, all, holds⟩ := ih distinct
        (fun ut member => by rw [kept ut member]; exact live ut (List.mem_cons_of_mem _ member))
        (by rw [same]; exact holds)
      refine ⟨left, ?_, holds⟩
      rw [all]
      simp only [Process.freed, List.mem_cons, List.not_mem_nil, or_false, Process.mk.injEq,
        State.mk.injEq, Sched.mk.injEq, true_and, and_true]
      funext ut
      by_cases here : ut = first <;> by_cases later : ut ∈ others <;> simp [here, later]

theorem rrUthreadShutdown_holds {rest : Multiset Resource}
    (distinct : p.runtime.sched.allocated.items.Nodup)
    (live : ∀ ut ∈ p.runtime.sched.allocated.items, (p.runtime.sched.core ut).isSome)
    (holds : Holds p.held (slots p.runtime.sched.allocated.items
      (fun ut => (p.runtime.sched.core ut).bind Uthread.map) + rest)) :
    ∃ held, Holds held rest ∧ p.rrUthreadShutdown = { p with
      held := held
      runtime := { p.runtime with
        sched := { p.runtime.sched with
          heap := fun ut =>
            if ut ∈ p.runtime.sched.allocated.items then none else p.runtime.sched.heap ut
          allocated := ⟨[], 0⟩ } } } := by
  obtain ⟨held, freed, holds⟩ := freeThreads distinct live holds
  refine ⟨held, holds, ?_⟩
  simp only [rrUthreadShutdown, freed]
  rfl

theorem rrSchedulerShutdown_holds {rest : Multiset Resource}
    (holds : Holds p.held (slot (p.schedStack.map (.mapping · rrSchedStackSize)) + rest)) :
    ∃ held, Holds held rest ∧ p.rrSchedulerShutdown = { p with
      held := held
      schedStack := none
      runtime := { p.runtime with
        sched := { p.runtime.sched with
          schedRunning := false
          runqHead := none
          runqTail := none
          threads := ⟨[], 0⟩ } } } := by
  refine ⟨_, holds.clear, ?_⟩
  obtain ⟨mask, altstack, segv, held, logRing, logFd, altSp, altSize, signalFd, schedStack,
    replayFd, runtime⟩ := p
  cases schedStack <;> rfl

theorem rrIoShutdown_holds {rest : Multiset Resource}
    (holds : Holds p.held (slot (if p.runtime.ring.ready then some .uring else none) + rest)) :
    ∃ held ring, Holds held rest ∧
      p.rrIoShutdown = { p with held := held, runtime := { p.runtime with ring := ring } } := by
  have cleared := holds.clear
  unfold rrIoShutdown
  split at cleared
  · rename_i ready
    rw [if_pos ready]
    exact ⟨_, _, cleared, rfl⟩
  · rename_i absent
    rw [if_neg absent]
    exact ⟨_, _, cleared, rfl⟩

theorem rrSignalShutdown_holds {rest : Multiset Resource}
    (holds : Holds p.held (slot (p.signalFd.map .descriptor) +
      (slot (p.altSp.map (.mapping · p.altSize)) + rest))) :
    ∃ held, Holds held rest ∧ p.rrSignalShutdown = { p with
      held := held
      signalFd := none
      altSp := none
      runtime := { p.runtime with
        sched := { p.runtime.sched with guardPages := ⟨[], 0⟩ } } } := by
  refine ⟨_, holds.clear.clear, ?_⟩
  obtain ⟨mask, altstack, segv, held, logRing, logFd, altSp, altSize, signalFd, schedStack,
    replayFd, runtime⟩ := p
  cases signalFd <;> cases altSp <;> rfl

theorem rrRecordShutdown_holds {rest : Multiset Resource}
    (holds : Holds p.held (slot (p.logFd.map .descriptor) +
      (slot (p.logRing.map (.mapping · rrLogRingSize)) + rest))) :
    ∃ held, Holds held rest ∧
      p.rrRecordShutdown = { p with held := held, logFd := none, logRing := none } := by
  refine ⟨_, holds.clear.clear, ?_⟩
  obtain ⟨mask, altstack, segv, held, logRing, logFd, altSp, altSize, signalFd, schedStack,
    replayFd, runtime⟩ := p
  cases logFd <;> cases logRing <;> rfl

theorem rrReplayShutdown_holds {rest : Multiset Resource}
    (holds : Holds p.held (slot (p.replayFd.map .descriptor) + rest)) :
    ∃ held, Holds held rest ∧ p.rrReplayShutdown = { p with
      held := held
      replayFd := none
      runtime := { p.runtime with reader := .closed } } := by
  refine ⟨_, holds.clear, ?_⟩
  obtain ⟨mask, altstack, segv, held, logRing, logFd, altSp, altSize, signalFd, schedStack,
    replayFd, runtime⟩ := p
  cases replayFd <;> rfl

theorem closeMode_unrecorded (off : p.runtime.config.modeRecord = false) :
    p.closeMode = if p.runtime.config.modeReplay then p.rrReplayShutdown else p := by
  simp only [closeMode, off, Bool.false_eq_true, ↓reduceIte]

end Process

namespace Life

variable {l : Life}

/-- What `rr_shutdown` leaves of the runtime `l`. -/
structure Released (l final : Life) : Prop where
  held : Holds final.held l.timers
  records : ∀ ut, final.runtime.sched.heap ut = none
  threads : final.runtime.sched.threads = ⟨[], 0⟩
  allocated : final.runtime.sched.allocated = ⟨[], 0⟩
  guardPages : final.runtime.sched.guardPages =
    if l.runtime.config.modeRecord then ⟨[], 0⟩ else l.runtime.sched.guardPages
  inactive : final.runtime.config.rrActive = false ∧ final.runtime.config.rrReplayActive = false

/-- After the first part of `rr_shutdown`: no record and no table of uthreads is left. -/
structure Stopped (l : Life) (q : Process) : Prop where
  held : Holds q.held
    (slot (if q.runtime.ring.ready then some .uring else none) +
    (slot (q.signalFd.map .descriptor) +
    (slot (q.altSp.map (.mapping · q.altSize)) +
    (slot (q.logFd.map .descriptor) +
    (slot (q.logRing.map (.mapping · rrLogRingSize)) +
    (slot (q.replayFd.map .descriptor) + l.timers))))))
  heap : ∀ ut, q.runtime.sched.heap ut = none
  threads : q.runtime.sched.threads = ⟨[], 0⟩
  allocated : q.runtime.sched.allocated = ⟨[], 0⟩
  guardPages : q.runtime.sched.guardPages = l.runtime.sched.guardPages
  config : q.runtime.config = { l.runtime.config with runtimeReady := false }
  ring : q.runtime.ring = l.runtime.ring
  signals : q.signalFd = l.signalFd ∧ q.altSp = l.altSp
  log : q.logFd = l.logFd ∧ q.logRing = l.logRing
  replayFd : q.replayFd = l.replayFd

/-- Every record is freed with its stack, and the scheduler stops. -/
theorem Sound.stopped (sound : l.Sound) :
    l.Stopped (l.withRuntime { l.runtime with
      config := { l.runtime.config with
        runtimeReady := false } }).rrUthreadShutdown.rrSchedulerShutdown := by
  have order : l.timers + (l.maps + l.statics) = l.maps + (l.statics + l.timers) := by
    rw [add_comm, add_assoc]
  have holds := sound.held
  rw [order] at holds
  obtain ⟨held, holds, freed⟩ := Process.rrUthreadShutdown_holds
    (p := (l.withRuntime { l.runtime with
      config := { l.runtime.config with runtimeReady := false } }).toProcess) sound.distinct
    (fun ut => (sound.listed ut).mpr) holds
  simp only [statics, add_assoc] at holds
  rw [freed]
  obtain ⟨held, holds, stopped⟩ := Process.rrSchedulerShutdown_holds (p := { l.toProcess with
    held := held
    runtime := { l.runtime with
      config := { l.runtime.config with runtimeReady := false }
      sched := { l.runtime.sched with
        heap := fun ut =>
          if ut ∈ l.runtime.sched.allocated.items then none else l.runtime.sched.heap ut
        allocated := ⟨[], 0⟩ } } }) holds
  refine stopped ▸ ⟨holds, fun ut => ?_, rfl, rfl, rfl, rfl, rfl, ⟨rfl, rfl⟩, ⟨rfl, rfl⟩, rfl⟩
  dsimp only
  split
  · rfl
  · rename_i absent
    rw [← sound.listed, Option.not_isSome_iff_eq_none, Sched.core_eq_none] at absent
    exact absent

theorem Stopped.inactive {q : Process} (stopped : l.Stopped q) :
    q.runtime.config.rrActive = false ∧ q.runtime.config.rrReplayActive = false := by
  simp [Config.rrActive, Config.rrReplayActive, stopped.config]

/-- The second part of `rr_shutdown` in record mode: what is left is closed. -/
theorem Stopped.recorded {q : Process} (stopped : l.Stopped q) (unread : l.replayFd = none)
    (records : l.runtime.Records) : l.Released (l.onProcess fun _ => q.closeMode) := by
  have closes : q.closeMode = q.rrIoShutdown.rrSignalShutdown.rrRecordShutdown := by
    apply Process.closeMode_record
    · rw [stopped.config]
      exact records.modeRecord
    · rw [stopped.config]
      exact records.modeReplay
  obtain ⟨held, ring, holds, io⟩ := Process.rrIoShutdown_holds stopped.held
  rw [closes, io]
  obtain ⟨held, holds, signal⟩ := Process.rrSignalShutdown_holds (p := { q with
    held := held, runtime := { q.runtime with ring := ring } }) holds
  rw [signal]
  obtain ⟨held, holds, record⟩ := Process.rrRecordShutdown_holds (p := { q with
    held := held
    signalFd := none
    altSp := none
    runtime := { q.runtime with
      ring := ring
      sched := { q.runtime.sched with guardPages := ⟨[], 0⟩ } } }) holds
  rw [record]
  rw [stopped.replayFd, unread, Option.map_none, slot_none, zero_add] at holds
  refine ⟨holds, stopped.heap, stopped.threads, stopped.allocated, ?_, stopped.inactive⟩
  rw [if_pos records.modeRecord]
  rfl

theorem Stopped.unrecorded {q : Process} (stopped : l.Stopped q)
    (mode : l.runtime.Passes ∧ l.replayFd = none ∨ l.runtime.Replays)
    (signalFd : l.signalFd = none) (altSp : l.altSp = none) (logFd : l.logFd = none)
    (logRing : l.logRing = none) : l.Released (l.onProcess fun _ => q.closeMode) := by
  have off : l.runtime.ring.ready = false ∧ l.runtime.config.modeRecord = false := by
    rcases mode with ⟨passes, _⟩ | replays
    · exact ⟨passes.ring, passes.modeRecord⟩
    · exact ⟨replays.ring, replays.modeRecord⟩
  have holds := stopped.held
  rw [stopped.ring, off.1, stopped.signals.1, stopped.signals.2, stopped.log.1, stopped.log.2,
    signalFd, altSp, logFd, logRing] at holds
  simp only [Bool.false_eq_true, ↓reduceIte, Option.map_none, slot_none, zero_add] at holds
  have pages : q.runtime.sched.guardPages =
      if l.runtime.config.modeRecord then ⟨[], 0⟩ else l.runtime.sched.guardPages := by
    rw [off.2]
    exact stopped.guardPages
  rw [Process.closeMode_unrecorded (by rw [stopped.config]; exact off.2), stopped.config]
  rcases mode with ⟨passes, unread⟩ | replays
  · rw [stopped.replayFd, unread, Option.map_none, slot_none, zero_add] at holds
    rw [if_neg (by simp [passes.modeReplay])]
    exact ⟨holds, stopped.heap, stopped.threads, stopped.allocated, pages, stopped.inactive⟩
  · rw [if_pos (by simp [replays.modeReplay])]
    obtain ⟨held, holds, closed⟩ := Process.rrReplayShutdown_holds holds
    rw [closed]
    exact ⟨holds, stopped.heap, stopped.threads, stopped.allocated, pages, stopped.inactive⟩

/-- `rr_shutdown` on the stack of the main thread. -/
theorem Sound.shutdown (sound : l.Sound) (main : l.runtime.sched.current = some 0) :
    ∃ final, l.rrShutdown = some final ∧ l.Released final := by
  obtain ⟨u, known⟩ := Option.isSome_iff_exists.mp sound.main
  obtain ⟨v, found, rfl⟩ := Sched.of_core_some known
  have unmapped : v.map = none := (sound.mapped 0 _ known).mpr rfl
  have completes : (l.runtime.sched.running.any fun caller => caller.2.map.isSome) = false := by
    rw [Sched.running_eq main found, Option.any_some, unmapped]
    rfl
  have ends : l.rrShutdown = some (l.onProcess fun _ => (l.withRuntime { l.runtime with
      config := { l.runtime.config with
        runtimeReady := false } }).rrUthreadShutdown.rrSchedulerShutdown.closeMode) := by
    rw [rrShutdown, Process.rrShutdown, sound.ready, completes]
    rfl
  refine ⟨_, ends, ?_⟩
  have stopped := sound.stopped
  generalize Process.rrSchedulerShutdown _ = q at stopped ⊢
  rcases sound.mode with ⟨records, unread⟩ | ⟨mode, signalFd, altSp, logFd, logRing, _⟩
  · exact stopped.recorded unread records
  · exact stopped.unrecorded mode signalFd altSp logFd logRing

/-- On the stack of a created uthread it does not come to its end. -/
theorem Sound.shutdown_elsewhere (sound : l.Sound) (user : l.runtime.sched.control = .user)
    (elsewhere : l.runtime.sched.current ≠ some 0) : l.rrShutdown = none := by
  obtain ⟨ut, current, u, found⟩ : ∃ ut, l.runtime.sched.current = some ut ∧
      ∃ u, l.runtime.sched.heap ut = some u := by
    obtain ⟨ut, current, runs⟩ := sound.queue.user user
    obtain ⟨u, found, _⟩ := Sched.heap_of_stateOf ((runs ut).mpr rfl)
    exact ⟨ut, current, u, found⟩
  have apart : ut ≠ 0 := by
    rintro rfl
    exact elsewhere current
  have mapped : u.map ≠ none :=
    mt (sound.mapped ut u.core (Sched.core_some found)).mp apart
  simp only [rrShutdown, Process.rrShutdown, sound.ready, Sched.running_eq current found,
    Option.any_some, Option.isSome_iff_ne_none.mpr mapped, Bool.not_true, Bool.false_eq_true,
    ↓reduceIte, Option.map_none]

end Life

namespace Process

variable {p : Process}

/-- A start that failed outside of record mode: the process has its signal state, and the
runtime holds nothing. -/
structure Undone (before after : Process) : Prop where
  mask : after.mask = before.mask
  altstack : after.altstack = before.altstack
  segv : after.segv = before.segv
  released : after.held = some []
  records : ∀ ut, after.runtime.sched.heap ut = none
  threads : after.runtime.sched.threads = ⟨[], 0⟩
  allocated : after.runtime.sched.allocated = ⟨[], 0⟩
  unread : after.replayFd = none
  unready : after.runtime.config.runtimeReady = false

/-- Nothing is left of the scheduler. -/
structure Cleared (before after : Process) : Prop where
  mask : after.mask = before.mask
  altstack : after.altstack = before.altstack
  segv : after.segv = before.segv
  records : ∀ ut, after.runtime.sched.heap ut = none
  threads : after.runtime.sched.threads = ⟨[], 0⟩
  allocated : after.runtime.sched.allocated = ⟨[], 0⟩
  unready : after.runtime.config.runtimeReady = false

theorem Cleared.closed {before : Process} (cleared : before.Cleared p)
    (holds : Holds p.held (slot (p.replayFd.map .descriptor))) :
    before.Undone p.rrReplayShutdown := by
  rw [← add_zero (slot _)] at holds
  obtain ⟨held, none, same⟩ := rrReplayShutdown_holds holds
  rw [same]
  exact ⟨cleared.mask, cleared.altstack, cleared.segv, none.eq_nil, cleared.records,
    cleared.threads, cleared.allocated, rfl, cleared.unready⟩

/-- The failures of the scheduler and of the main thread end with the log closed. -/
theorem Cleared.undo {before : Process} (cleared : before.Cleared p)
    (off : p.runtime.config.modeRecord = false)
    (holds : Holds p.held (slot (p.replayFd.map .descriptor)))
    (unread : p.runtime.config.modeReplay = false → p.replayFd = none) :
    before.Undone p.closeMode := by
  rw [closeMode_unrecorded off]
  cases mode : p.runtime.config.modeReplay with
  | true => exact cleared.closed holds
  | false =>
      rw [unread mode] at holds
      exact ⟨cleared.mask, cleared.altstack, cleared.segv, holds.eq_nil, cleared.records,
        cleared.threads, cleared.allocated, unread mode, cleared.unready⟩

/-- A process before `rr_scheduler_init`, outside of record mode. -/
structure Unrecorded (p : Process) : Prop where
  sched : p.runtime.sched = .atLoad
  off : p.runtime.config.modeRecord = false
  unready : p.runtime.config.runtimeReady = false
  unread : p.runtime.config.modeReplay = false → p.replayFd = none
  held : Holds p.held (slot (p.replayFd.map .descriptor))

theorem Unrecorded.holds_mapped (unrecorded : p.Unrecorded) (stack : Nat) (sched : Sched) :
    Holds (p.mapped stack sched).held
      (slot (some (.mapping stack rrSchedStackSize)) + slot (p.replayFd.map .descriptor)) := by
  rw [slot_some, Multiset.singleton_add]
  exact unrecorded.held.take _

/-- The start fails in the middle of `rr_uthread_init_main`. -/
theorem Unrecorded.unmapped (unrecorded : p.Unrecorded) (stack : Nat) (threads : Table Ptr)
    (current : Option Ptr) : 
    p.Undone (p.mapped stack (.headless threads current)).rrSchedulerShutdown.closeMode := by
  obtain ⟨held, holds, stopped⟩ := rrSchedulerShutdown_holds
    (unrecorded.holds_mapped stack (.headless threads current))
  rw [stopped]
  apply Cleared.undo
  · exact ⟨rfl, rfl, rfl, fun _ => rfl, rfl, rfl, unrecorded.unready⟩
  · exact unrecorded.off
  · exact holds
  · exact unrecorded.unread

/-- The log does not begin with the switch to the main thread. -/
theorem Unrecorded.refused (unrecorded : p.Unrecorded) (stack : Nat) (reader : Reader) {q : Process}
    (begun : q = { p.mapped stack .afterInit with
      runtime := { p.runtime with sched := .afterInit, seq := 0, reader := reader } }) :
    p.Undone q.rrUthreadShutdown.rrSchedulerShutdown.rrReplayShutdown := by
  have sched : q.runtime.sched = .afterInit := by rw [begun]
  have holds : Holds q.held ((slots q.runtime.sched.allocated.items fun ut =>
      (q.runtime.sched.core ut).bind Uthread.map) + (slot (q.schedStack.map
        (.mapping · rrSchedStackSize)) + slot (p.replayFd.map .descriptor))) := by
    rw [sched, begun]
    exact (zero_add (slot (some (Resource.mapping stack rrSchedStackSize)) + _)).symm ▸
      unrecorded.holds_mapped stack .afterInit
  obtain ⟨held, holds, freed⟩ := rrUthreadShutdown_holds (by rw [sched]; decide)
    (by rw [sched]; decide) holds
  obtain ⟨after, same⟩ : ∃ after, q.rrUthreadShutdown = after := ⟨_, rfl⟩
  have kept : after.schedStack = q.schedStack ∧ after.held = held ∧
      after.replayFd = p.replayFd := by
    rw [← same, freed, begun]
    exact ⟨rfl, rfl, rfl⟩
  rw [← kept.1, ← kept.2.1, ← kept.2.2] at holds
  obtain ⟨held, holds, stopped⟩ := rrSchedulerShutdown_holds holds
  rw [same, stopped]
  apply Cleared.closed _ holds
  rw [← same, freed, begun]
  refine ⟨rfl, rfl, rfl, fun ut => ?_, rfl, rfl, unrecorded.unready⟩
  simp [Sched.afterInit, Heap.set_apply]

/-- Outside of record mode the rest of `rr_init` completes, or undoes everything. -/
theorem Unrecorded.startScheduler (unrecorded : p.Unrecorded) (answer : InitAnswer) :
    (∃ stack reader, p.startScheduler answer =
        { p.mapped stack .afterInit with
          runtime := { (p.mapped stack .afterInit).runtime with
            seq := 0
            reader := reader
            config := { p.runtime.config with runtimeReady := true } } } ∧
      (p.runtime.config.modeReplay = true →
        p.runtime.reader.rrReplayExpectSched 0 1 = (reader, .ok ())) ∧
      (p.runtime.config.modeReplay = false → reader = p.runtime.reader)) ∨
    p.Undone (p.startScheduler answer) := by
  rcases startScheduler_cases answer unrecorded.sched with
    ⟨_, outcome⟩ | ⟨stack, threads, current, _, outcome⟩ | ⟨stack, outcome⟩
  · rw [outcome]
    refine .inr (Cleared.undo (p := { p with schedStack := none })
      ⟨rfl, rfl, rfl, fun ut => ?_, ?_, ?_, unrecorded.unready⟩ unrecorded.off unrecorded.held
      unrecorded.unread)
    · exact congrArg (fun sched => Sched.heap sched ut) unrecorded.sched
    · exact congrArg Sched.threads unrecorded.sched
    · exact congrArg Sched.allocated unrecorded.sched
  · rw [outcome]
    exact .inr (unrecorded.unmapped stack threads current)
  have unlogged : ({ (p.mapped stack .afterInit).runtime with seq := 0 }.rrLogSched 0 1) =
      { (p.mapped stack .afterInit).runtime with seq := 0 } :=
    if_neg (by simp [Process.mapped, unrecorded.off])
  rw [outcome, startMain, unlogged]
  dsimp only
  split
  · rename_i replays
    split
    · rename_i reader _ _
      exact .inr (unrecorded.refused stack reader rfl)
    · rename_i reader served
      refine .inl ⟨stack, reader, rfl, fun _ => served, fun off => ?_⟩
      exact absurd (replays.symm.trans off) (by simp)
  · rename_i passes
    exact .inl ⟨stack, p.runtime.reader, rfl, fun on => absurd on passes, fun _ => rfl⟩

theorem rrInit_passthrough (record : p.runtime.config.modeRecord = false)
    (replay : p.runtime.config.modeReplay = false) (answer : InitAnswer) :
    p.rrInit answer = some (p.startScheduler answer) := by
  simp [rrInit, record, replay]

theorem rrInit_replay (record : p.runtime.config.modeRecord = false)
    (replay : p.runtime.config.modeReplay = true) {answer : InitAnswer} {q : Process} {ok : Bool}
    (opened : p.rrReplayInit answer.replay = (q, ok)) :
    p.rrInit answer = some (if ok then q.startScheduler answer else q) := by
  cases ok <;> simp [rrInit, record, replay, opened]

/-- A failed `rr_replay_init` leaves no trace. -/
theorem rrReplayInit_cases (log : ReplayAnswer) (closed : p.replayFd = none) :
    (∃ fd file reader, log.openLog = some (fd, file) ∧
      Reader.rrReplayInit (some file) = some reader ∧
      p.rrReplayInit log =
        (({ p.acquire (.descriptor fd) with replayFd := some fd }).withReader reader, true)) ∨
    p.rrReplayInit log = (p, false) := by
  have same : { p with replayFd := none } = p := by rw [← closed]
  unfold rrReplayInit
  split
  · exact .inr rfl
  split
  · exact .inr (by rw [same])
  rename_i fd file opened
  dsimp only
  split
  · refine .inr ?_
    have back := congrArg (fun p : Process => { p with replayFd := none })
      (p.release_acquire (.descriptor fd))
    exact congrArg (·, false) (back.trans same)
  · rename_i reader read
    exact .inl ⟨fd, file, reader, opened, read, rfl⟩

end Process

namespace Life

variable {l : Life}

/-- `RR_MODE` selects one mode. -/
theorem one_mode (env : Environment) (record : (rrParseEnv env).config.modeRecord = true) :
    (rrParseEnv env).config.modeReplay = false := by
  simp only [rrParseEnv, isSetTo, Option.any_eq_true, beq_iff_eq] at record ⊢
  obtain ⟨text, set, same⟩ := record
  rw [set, Option.any_some, same]
  decide

/-- Right after the start there is the main thread alone, with no stack of its own. -/
theorem sound_of_begun (mode : l.Mode) (sched : l.runtime.sched = .afterInit)
    (quiet : ∀ ut, l.tfd ut = none) (holds : Holds l.held l.statics) : l.Sound := by
  have alone : ∀ ut, ¬ l.runtime.sched.SleepsAt ut := by
    rintro ut ⟨req, rem, serial, inside⟩
    rw [sched] at inside
    exact State.afterInit_frameAt ut _ serial inside
  have timers : l.timers = 0 := by
    simp [Life.timers, sched, Sched.afterInit, quiet]
  have maps : l.maps = 0 := by
    rw [Life.maps, sched]
    rfl
  refine ⟨mode, ?_, ?_, ?_, ?_, ?_, ?_, ?_, ?_⟩
  · rw [sched]
    exact Sched.afterInit_queueInvariant
  · rw [sched]
    exact State.afterInit_framed
  · intro ut
    rw [sched]
    simp [Sched.core, Sched.afterInit, Heap.set_apply]
  · rw [sched]
    decide
  · rw [sched]
    rfl
  · intro ut u found
    rw [sched] at found
    by_cases main : ut = 0
    · subst main
      cases found
      exact iff_of_true rfl rfl
    · simp [Sched.core, Sched.afterInit, Heap.set_apply, main] at found
  · intro ut
    rw [quiet]
    exact iff_of_false (by simp) (alone ut)
  · rw [timers, maps, zero_add, zero_add]
    exact holds

section Start

variable {mask : SigSet} {altstack : AltStack} {segv : Sigaction} {env : Environment}
  {answer : InitAnswer}

theorem sound_of_recorded {final : Process}
    (record : (rrParseEnv env).config.modeRecord = true)
    (started : (atLoad mask altstack segv (rrParseEnv env).config).toProcess.rrInit answer =
      some final) (up : final.runtime.config.runtimeReady = true) :
    ((atLoad mask altstack segv (rrParseEnv env).config).onProcess fun _ => final).Sound ∧
      final.runtime.config.stackSize = (rrParseEnv env).config.stackSize := by
  have replay := one_mode env record
  have loaded : (atLoad mask altstack segv (rrParseEnv env).config).toProcess.Loaded :=
    ⟨⟨rfl, rfl, rfl⟩, rfl, rfl, rfl, record, replay, rfl, rfl⟩
  rcases loaded.rrInit_cases started with ⟨sp, size, stack, fd, begun⟩ | ⟨dormant, _⟩
  · obtain ⟨_, _, _, altSp, altSize, replayFd, signalFd, addr, logFd, signal, ring, logged, held⟩ :=
      begun.armed
    have config : final.runtime.config =
        { (rrParseEnv env).config with runtimeReady := true } := by
      rw [begun.runtime, State.started, State.markRuntimeReady,
        (State.rrLogSched_same _ _ _).config]
      rfl
    have flies : final.runtime.ring.ready = true := by
      rw [begun.runtime, State.started, State.markRuntimeReady]
      exact congrArg Ring.ready (State.rrLogSched_same _ _ _).ring
    have sched : final.runtime.sched = .afterInit := by
      rw [begun.runtime, State.started, State.markRuntimeReady]
      exact (State.rrLogSched_same _ _ _).sched
    refine ⟨sound_of_begun (.records ⟨?_, ?_, up, flies⟩ replayFd) sched (fun _ => rfl)
      ⟨_, held, ?_⟩, by rw [config]⟩
    · exact (congrArg Config.modeRecord config).trans record
    · exact (congrArg Config.modeReplay config).trans replay
    · have unread : final.replayFd = none := replayFd
      simp only [statics, onProcess, begun.stack, flies, signal, altSp, altSize, logged, ring,
        unread]
      rfl
  · rw [dormant.unready] at up
    cases up

/-- The runtime of a start outside of record mode, with nothing but the log and the stack of
the scheduler taken. -/
theorem sound_of_started {p : Process} (unrecorded : p.Unrecorded) {stack : Nat} {reader : Reader}
    (ring : p.runtime.ring = .absent) (signals : p.signalFd = none ∧ p.altSp = none)
    (unlogged : p.logFd = none ∧ p.logRing = none) :
    (Life.mk { p.mapped stack .afterInit with
      runtime := { (p.mapped stack .afterInit).runtime with
        seq := 0
        reader := reader
        config := { p.runtime.config with runtimeReady := true } } } fun _ => none).Sound := by
  have off : p.runtime.ring.ready = false ∧ p.runtime.ring.inflight = [] := by
    rw [ring]
    exact ⟨rfl, rfl⟩
  refine sound_of_begun (.unrecorded ?_ signals.1 signals.2 unlogged.1 unlogged.2 fun _ => rfl) rfl
    (fun _ => rfl) ?_
  · cases mode : p.runtime.config.modeReplay with
    | false => exact .inl ⟨⟨unrecorded.off, mode, rfl, off.1, off.2⟩, unrecorded.unread mode⟩
    | true => exact .inr ⟨unrecorded.off, mode, rfl, off.1, off.2⟩
  · have holds := unrecorded.holds_mapped stack .afterInit
    simp only [statics, Process.mapped, Process.acquire, off.1, signals.1, signals.2, unlogged.1,
      unlogged.2, Bool.false_eq_true, ↓reduceIte, Option.map_none, Option.map_some, slot_none,
      zero_add]
    exact holds

/-- Where the runs of the mode begin. -/
def startOf (config : Config) (log : ReplayAnswer) : State :=
  if config.modeReplay then
    State.replayStart config.stackSize config.replayTimeVirtual (log.openLog.map Prod.snd)
  else
    { State.passthroughStart config.stackSize with
      config.replayTimeVirtual := config.replayTimeVirtual }

theorem startOf_stackSize (config : Config) (log : ReplayAnswer) :
    (startOf config log).config.stackSize = config.stackSize := by
  unfold startOf State.replayStart
  split
  · dsimp only
    split
    · rfl
    · split <;> rfl
  · rfl

/-- In the other modes: the runtime is as the runs begin, or nothing is left. -/
theorem started_unrecorded {config : Config} (record : config.modeRecord = false)
    (unready : config.runtimeReady = false) {final : Life}
    (ran : (atLoad mask altstack segv config).rrInit answer = some final) :
    (final.Sound ∧ final.runtime = startOf config answer.replay) ∨
    (atLoad mask altstack segv config).Undone final.toProcess := by
  obtain ⟨process, begins, rfl⟩ := Option.map_eq_some_iff.mp ran
  obtain ⟨_, replay, virtualTime, _, stackSize⟩ := config
  cases record
  cases unready
  cases replay with
  | true =>
      rcases Process.rrReplayInit_cases (p := (atLoad mask altstack segv
        ⟨false, true, virtualTime, false, stackSize⟩).toProcess) answer.replay rfl with
        ⟨fd, file, reader, opened, read, outcome⟩ | outcome
      · rw [Process.rrInit_replay rfl rfl outcome] at begins
        obtain rfl := Option.some.inj begins
        have unrecorded : (Process.withReader { (atLoad mask altstack segv
            ⟨false, true, virtualTime, false, stackSize⟩).toProcess.acquire (.descriptor fd) with
            replayFd := some fd } reader).Unrecorded :=
          ⟨rfl, rfl, rfl, fun off => (by cases off), ⟨_, rfl, rfl⟩⟩
        rcases unrecorded.startScheduler answer with ⟨stack, reader', same, served, _⟩ | undone
        · rw [if_pos rfl, same]
          refine .inl ⟨sound_of_started unrecorded rfl ⟨rfl, rfl⟩ ⟨rfl, rfl⟩, ?_⟩
          have first : reader.rrReplayExpectSched 0 1 = (reader', .ok ()) := served rfl
          simp only [startOf, State.replayStart, opened, Option.map_some, read, first]
          rfl
        · exact .inr ⟨undone.mask, undone.altstack, undone.segv, undone.released, undone.records,
            undone.threads, undone.allocated, undone.unread, undone.unready⟩
      · rw [Process.rrInit_replay rfl rfl outcome] at begins
        obtain rfl := Option.some.inj begins
        exact .inr ⟨rfl, rfl, rfl, rfl, fun _ => rfl, rfl, rfl, rfl, rfl⟩
  | false =>
      rw [Process.rrInit_passthrough rfl rfl] at begins
      obtain rfl := Option.some.inj begins
      have unrecorded : (atLoad mask altstack segv
          ⟨false, false, virtualTime, false, stackSize⟩).Unrecorded :=
        ⟨rfl, rfl, rfl, fun _ => rfl, ⟨_, rfl, rfl⟩⟩
      rcases unrecorded.startScheduler answer with ⟨stack, reader', same, _, kept⟩ | undone
      · rw [same, kept rfl]
        exact .inl ⟨sound_of_started unrecorded rfl ⟨rfl, rfl⟩ ⟨rfl, rfl⟩, rfl⟩
      · exact .inr undone

end Start

/-- Outside of record mode a start that fails undoes everything, whichever call fails and
whatever the log holds; one that succeeds begins as the runs of its mode do. -/
theorem unrecorded_start_whole_or_undone (mask : SigSet) (altstack : AltStack) (segv : Sigaction)
    (env : Environment) (unrecorded : (rrParseEnv env).config.modeRecord = false)
    (answer : InitAnswer) :
    ∃ final, (atLoad mask altstack segv (rrParseEnv env).config).rrInit answer = some final ∧
      (final.runtime.config.runtimeReady = true ∧ final.runtime =
        (if (rrParseEnv env).config.modeReplay then
          State.replayStart (rrParseEnv env).config.stackSize
            (rrParseEnv env).config.replayTimeVirtual (answer.replay.openLog.map Prod.snd)
        else { State.passthroughStart (rrParseEnv env).config.stackSize with
          config.replayTimeVirtual := (rrParseEnv env).config.replayTimeVirtual }) ∨
      (atLoad mask altstack segv (rrParseEnv env).config).Undone final.toProcess) := by
  have returns : ∃ process, (atLoad mask altstack segv (rrParseEnv env).config).toProcess.rrInit
      answer = some process := by
    cases replay : (rrParseEnv env).config.modeReplay with
    | true => exact ⟨_, Process.rrInit_replay unrecorded replay rfl⟩
    | false => exact ⟨_, Process.rrInit_passthrough unrecorded replay answer⟩
  obtain ⟨process, begins⟩ := returns
  have ran : (atLoad mask altstack segv (rrParseEnv env).config).rrInit answer =
      some ((atLoad mask altstack segv (rrParseEnv env).config).onProcess fun _ => process) := by
    rw [rrInit, begins, Option.map_some]
  exact ⟨_, ran, (started_unrecorded unrecorded rfl ran).imp_left fun started =>
    ⟨started.1.ready, started.2⟩⟩

def replayEnvironment : Environment :=
  ⟨some ⟨ascii "replay", by decide⟩, none, none, none, none⟩

/-- A world in which the log is empty and every call succeeds. -/
def emptyLog : InitAnswer := { Process.calmInit with replay := ⟨true, some (3, [])⟩ }

/-- The log is empty. -/
theorem empty_log_undone :
    ∃ final, (atLoad 0 ⟨0, 0, 2⟩ ⟨.default, 0, 0⟩ (rrParseEnv replayEnvironment).config).rrInit
        emptyLog = some final ∧
      (atLoad 0 ⟨0, 0, 2⟩ ⟨.default, 0, 0⟩ (rrParseEnv replayEnvironment).config).Undone
        final.toProcess := by
  have fails : ((atLoad 0 ⟨0, 0, 2⟩ ⟨.default, 0, 0⟩
      (rrParseEnv replayEnvironment).config).rrInit emptyLog).map
      (fun final => final.runtime.config.runtimeReady) = some false := by decide +kernel
  obtain ⟨final, ran, outcome⟩ := unrecorded_start_whole_or_undone 0 ⟨0, 0, 2⟩ ⟨.default, 0, 0⟩
    replayEnvironment (by decide) emptyLog
  rw [ran, Option.map_some, Option.some.injEq] at fails
  refine ⟨final, ran, outcome.resolve_left ?_⟩
  rintro ⟨ready, _⟩
  rw [fails] at ready
  cases ready

/-- Whatever mode the process runs in, and whenever the main thread calls `exit` or returns,
`rr_shutdown` frees every record and gives back everything the runtime has taken, once, except
for the timers of the uthreads that are suspended in a `nanosleep`; the table of guard pages is
freed in record mode only. On the stack of another uthread it unmaps that stack and does not come
to its end. The program has not closed a descriptor of the runtime. -/
theorem shutdown_releases_all_but_timers (mask : SigSet) (altstack : AltStack) (segv : Sigaction)
    (env : Environment) (answer : InitAnswer) (start : Life)
    (started : (atLoad mask altstack segv (rrParseEnv env).config).rrInit answer = some start)
    (ready : start.runtime.config.runtimeReady = true) (program : Program) (inputs : List Input)
    (granted : ∀ input ∈ inputs, Grants (rrParseEnv env).config.stackSize input)
    (alone : Along (Life.step program) (fun l input _ => l.LeavesAlone program input) start inputs)
    (l : Life) (reached : exec (Life.step program) start inputs = some l)
    (user : l.runtime.sched.control = .user) :
    (l.runtime.sched.current = some 0 → ∃ final, l.rrShutdown = some final ∧ l.Released final) ∧
      (l.runtime.sched.current ≠ some 0 → l.rrShutdown = none) ∧
      ∀ ut, (l.tfd ut).isSome ↔ l.runtime.sched.SleepsAt ut := by
  have begins : start.Sound ∧
      start.runtime.config.stackSize = (rrParseEnv env).config.stackSize := by
    cases record : (rrParseEnv env).config.modeRecord with
    | true =>
        obtain ⟨final, ran, rfl⟩ := Option.map_eq_some_iff.mp started
        exact sound_of_recorded record ran ready
    | false =>
        rcases started_unrecorded record rfl started with ⟨sound, runtime⟩ | undone
        · exact ⟨sound, by rw [runtime, startOf_stackSize]⟩
        · rw [undone.unready] at ready
          cases ready
  have sound := sound_of_exec begins.1 (begins.2 ▸ granted) alone reached
  exact ⟨sound.shutdown, sound.shutdown_elsewhere user, sound.timed⟩

/-- The main thread returns while another uthread sleeps. -/
def returnBesideSleep : Program
  | none, [] => .create (some 0)
  | none, [_] => .yield
  | none, _ => .ret
  | some _, _ => .call (.nanosleep ⟨1, 0⟩ none)

def recordEnvironment : Environment :=
  ⟨some ⟨ascii "record", by decide⟩, none, none, none, none⟩

/-- The steps up to the return of the main thread. -/
def returnBesideSleepRun : List Input :=
  [.act .calm, .act .calm, .loop .calm, .act .calm, .loop .calm]

/-- The timer of the sleep stays open. -/
theorem returnBesideSleep_leaves_timer :
    ∃ start l final, (atLoad 0 ⟨0, 0, 2⟩ ⟨.default, 0, 0⟩
        (rrParseEnv recordEnvironment).config).rrInit Process.calmInit = some start ∧
      exec (Life.step returnBesideSleep) start returnBesideSleepRun = some l ∧
      l.rrShutdown = some final ∧ final.held = some [.descriptor 9] ∧ l.Released final ∧
      ∀ ut, (l.tfd ut).isSome ↔ l.runtime.sched.SleepsAt ut := by
  have begins : ((atLoad 0 ⟨0, 0, 2⟩ ⟨.default, 0, 0⟩
      (rrParseEnv recordEnvironment).config).rrInit Process.calmInit).map
      (fun start => (start.runtime.config.runtimeReady,
        decide (Along (Life.step returnBesideSleep)
          (fun l input _ => l.LeavesAlone returnBesideSleep input) start returnBesideSleepRun))) =
        some (true, true) := by decide +kernel
  have ran : ((atLoad 0 ⟨0, 0, 2⟩ ⟨.default, 0, 0⟩
      (rrParseEnv recordEnvironment).config).rrInit Process.calmInit).bind
      (fun start => (exec (Life.step returnBesideSleep) start returnBesideSleepRun).map
        fun l => (l.runtime.sched.control, l.runtime.sched.current,
          l.rrShutdown.bind fun final => final.held)) =
        some (.user, some 0, some [.descriptor 9]) := by decide +kernel
  obtain ⟨start, started, facts⟩ := Option.map_eq_some_iff.mp begins
  rw [Prod.mk.injEq] at facts
  obtain ⟨ready, alone⟩ := facts
  rw [started, Option.bind_some, Option.map_eq_some_iff] at ran
  obtain ⟨l, reached, facts⟩ := ran
  simp only [Prod.mk.injEq] at facts
  obtain ⟨user, main, left⟩ := facts
  have granted : ∀ input ∈ returnBesideSleepRun,
      Grants (rrParseEnv recordEnvironment).config.stackSize input := by
    rintro input member answer mem rfl mapped
    obtain rfl : answer = .calm := by simpa [returnBesideSleepRun] using member
    cases mapped
    decide
  obtain ⟨releases, _, timers⟩ := shutdown_releases_all_but_timers 0 ⟨0, 0, 2⟩ ⟨.default, 0, 0⟩
    recordEnvironment Process.calmInit start started ready returnBesideSleep _ granted
    (of_decide_eq_true alone) l reached user
  obtain ⟨final, ended, released⟩ := releases main
  rw [ended, Option.bind_some] at left
  exact ⟨start, l, final, started, reached, ended, left, released, timers⟩

end Life

end Librr
