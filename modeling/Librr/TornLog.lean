import Librr.Base.Transition
import Librr.ReadLoop

set_option autoImplicit false

namespace Librr

open Transition

namespace Reader

/-- The header and the complete records of a log file. -/
def wholeRecords (file : Bytes) : Bytes :=
  file.take (sizeofHeader + (file.length - sizeofHeader) / sizeofEvent * sizeofEvent)

/-- A reader in front of complete records, and one that will find part of a record
behind them. -/
structure Torn (whole torn : Reader) : Prop where
  records : sizeofEvent ∣ whole.unread.length
  part : ∃ junk : Bytes, junk.length < sizeofEvent ∧
    torn = { whole with unread := whole.unread ++ junk }

theorem rrReadFull_torn {unread junk : Bytes} (records : sizeofEvent ∣ unread.length)
    (short : junk.length < sizeofEvent) :
    (unread = [] ∧ rrReadFull unread sizeofEvent = ([], none) ∧
        rrReadFull (unread ++ junk) sizeofEvent = ([], none)) ∨
      rrReadFull unread sizeofEvent =
          (unread.drop sizeofEvent, some (unread.take sizeofEvent)) ∧
        rrReadFull (unread ++ junk) sizeofEvent =
          (unread.drop sizeofEvent ++ junk, some (unread.take sizeofEvent)) := by
  have size : sizeofEvent = 112 := rfl
  by_cases empty : unread = []
  · subst empty
    refine Or.inl ⟨rfl, ?_, ?_⟩
    · rw [rrReadFull, if_neg (by simp [size])]
    · rw [rrReadFull, if_neg (by rw [List.nil_append]; omega)]
  · have enough : sizeofEvent ≤ unread.length :=
      Nat.le_of_dvd (List.length_pos_iff.mpr empty) records
    refine Or.inr ⟨?_, ?_⟩
    · rw [rrReadFull, if_pos enough]
    · rw [rrReadFull, if_pos (by rw [List.length_append]; omega),
        List.drop_append_of_le_length enough, List.take_append_of_le_length enough]

/-- Behind the complete records the part of one reads as the end of the log. -/
theorem Torn.next {whole torn : Reader} (both : Torn whole torn) :
    Torn whole.rrReplayNextEvent.1 torn.rrReplayNextEvent.1 ∧
      torn.rrReplayNextEvent.2 = whole.rrReplayNextEvent.2 := by
  obtain ⟨records, junk, short, rfl⟩ := both
  unfold rrReplayNextEvent
  cases closed : !whole.headerOk || !whole.opened with
  | true => exact ⟨⟨records, junk, short, rfl⟩, rfl⟩
  | false =>
      simp only [Bool.false_eq_true, if_false]
      rcases rrReadFull_torn records short with ⟨_, mine, theirs⟩ | ⟨mine, theirs⟩
      · rw [mine, theirs]
        exact ⟨⟨Nat.dvd_zero _, [], by decide, rfl⟩, rfl⟩
      · have left : sizeofEvent ∣ (whole.unread.drop sizeofEvent).length := by
          rw [List.length_drop]
          exact Nat.dvd_sub records (Nat.dvd_refl _)
        rw [mine, theirs]
        simp only [acceptEvent]
        split
        · exact ⟨⟨left, junk, short, rfl⟩, rfl⟩
        · exact ⟨⟨left, junk, short, rfl⟩, rfl⟩

theorem Torn.sched {whole torn : Reader} (both : Torn whole torn) (fromId toId : UInt64) :
    Torn (whole.rrReplayExpectSched fromId toId).1 (torn.rrReplayExpectSched fromId toId).1 ∧
      (torn.rrReplayExpectSched fromId toId).2 = (whole.rrReplayExpectSched fromId toId).2 :=
  ⟨both.next.1, congrArg (Except.bind · (checkSched fromId toId)) both.next.2⟩

theorem Torn.syscall {whole torn : Reader} (both : Torn whole torn) (nr : Int32)
    (uthreadId : UInt64) :
    Torn (whole.rrReplayNextSyscall nr uthreadId).1 (torn.rrReplayNextSyscall nr uthreadId).1 ∧
      (torn.rrReplayNextSyscall nr uthreadId).2 =
        (whole.rrReplayNextSyscall nr uthreadId).2 := by
  obtain ⟨after, same⟩ := both.next
  obtain ⟨_, junk, _, other⟩ := id both
  have header : torn.headerOk = whole.headerOk := by rw [other]
  have opened : torn.opened = whole.opened := by rw [other]
  unfold rrReplayNextSyscall
  rw [header, opened, same]
  split
  · exact ⟨both, rfl⟩
  · exact ⟨after, rfl⟩

end Reader

namespace State

def reading (s : State) (reader : Reader) : State := { s with reader := reader }

section Reading

/-! Everything but the two checks of replay leaves the reader alone and does not look
at it. -/

variable (s : State) (reader : Reader)

@[simp] theorem reading_config : (s.reading reader).config = s.config := rfl

@[simp] theorem reading_sched : (s.reading reader).sched = s.sched := rfl

@[simp] theorem reading_ring : (s.reading reader).ring = s.ring := rfl

@[simp] theorem reading_reader : (s.reading reader).reader = reader := rfl

theorem rrLogSyscall_reading (args : LogArgs) :
    (s.reading reader).rrLogSyscall args = (s.rrLogSyscall args).reading reader := by
  unfold rrLogSyscall
  rw [apply_ite (reading · reader)]
  rfl

theorem rrLogSignal_reading (signo activeUthread : UInt32) :
    (s.reading reader).rrLogSignal signo activeUthread =
      (s.rrLogSignal signo activeUthread).reading reader := by
  unfold rrLogSignal
  rw [apply_ite (reading · reader)]
  rfl

theorem rrLogSched_reading (fromId toId : UInt64) :
    (s.reading reader).rrLogSched fromId toId = (s.rrLogSched fromId toId).reading reader := by
  unfold rrLogSched
  rw [apply_ite (reading · reader)]
  rfl

theorem finishIo_reading (ut : Ptr) (call : Call) (raw : Int32) (data : Bytes) :
    (s.reading reader).finishIo ut call raw data =
      (s.finishIo ut call raw data).reading reader := by
  unfold finishIo
  split
  · rfl
  · rw [rrLogSyscall_reading]
    rfl

theorem submitAndBlock_reading (ut : Ptr) (call : Call) (op : IoOp) (submitted : Bool) :
    (s.reading reader).submitAndBlock ut call op submitted =
      (s.submitAndBlock ut call op submitted).reading reader := by
  unfold submitAndBlock
  rw [reading_ring, reading_sched]
  cases s.ring.prepare op s.sched.currentId with
  | none => exact finishIo_reading s reader ut call (-1) []
  | some ring =>
      cases submitted with
      | true => rfl
      | false =>
          exact finishIo_reading
            { s with ring := ring, history := s.history ++ [.failed s.ring.fresh] } reader ut call
            (-1) []

theorem resume_reading (ut : Ptr) (u : Uthread) :
    (s.reading reader).resume ut u = (s.resume ut u).reading reader := by
  unfold resume
  split
  · rfl
  · rfl
  · rfl
  · exact finishIo_reading (s.observe _) reader ut _ u.ioResult _
  · rfl

theorem switchTo_reading (popped : Sched) (next : Ptr) (u : Uthread) :
    (s.reading reader).switchTo popped next u = (s.switchTo popped next u).reading reader :=
  resume_reading { s with
    sched := popped.dispatch next
    history := s.history ++ s.switchSeen next u.id } reader next u

theorem rrIoSubmitSignalRead_reading (fd : Int32) (submitted : Bool) :
    (s.reading reader).rrIoSubmitSignalRead fd submitted =
      (s.rrIoSubmitSignalRead fd submitted).reading reader := by
  unfold rrIoSubmitSignalRead
  rw [reading_ring]
  cases s.ring.prepare (.read fd 128 0) rrSignalSentinel with
  | none => rfl
  | some ring => cases submitted <;> rfl

theorem rrSignalProcess_reading :
    (s.reading reader).rrSignalProcess = s.rrSignalProcess.reading reader := by
  unfold rrSignalProcess
  rw [rrLogSignal_reading, reading_ring, reading_sched]
  split <;> rfl

theorem processSignal_reading (cqe : Cqe) :
    (s.reading reader).processSignal cqe = (s.processSignal cqe).reading reader := by
  unfold processSignal
  rw [rrSignalProcess_reading]
  split <;> rfl

theorem rearmSignalRead_reading (submitted : Bool) :
    (s.reading reader).rearmSignalRead submitted =
      (s.rearmSignalRead submitted).reading reader := by
  unfold rearmSignalRead
  rw [reading_ring]
  cases s.ring.signalFd with
  | none => rfl
  | some fd => exact rrIoSubmitSignalRead_reading s reader fd submitted

theorem signalCompletion_reading (cqe : Cqe) (answer : WaitAnswer) :
    (s.reading reader).signalCompletion cqe answer =
      (s.signalCompletion cqe answer).reading reader := by
  unfold signalCompletion
  rw [processSignal_reading, reading_sched, rearmSignalRead_reading]
  split <;> rfl

theorem rrIoWait_reading (answer : WaitAnswer) :
    (s.reading reader).rrIoWait answer = (s.rrIoWait answer).map (reading · reader) := by
  unfold rrIoWait
  rw [reading_ring]
  split
  · rfl
  · cases s.ring.cq with
    | nil => rfl
    | cons cqe rest =>
        dsimp only
        rw [signalCompletion_reading]
        split <;> rfl

end Reading

/-- Two processes that differ only in a torn record at the end of the log they read. -/
inductive Beside : State → State → Prop where
  | mk (base : State) {whole torn : Reader} (both : Reader.Torn whole torn) :
    Beside (base.reading whole) (base.reading torn)

/-- Nothing but the reader is different. -/
theorem Beside.same {p q : State} (beside : Beside p q) : q = { p with reader := q.reader } := by
  obtain ⟨base, both⟩ := beside
  rfl

section Steps

variable {whole torn : Reader}

theorem wrappedCall_beside (s : State) (both : Reader.Torn whole torn) (ut : Ptr) (call : Call)
    (answer : Answer) :
    Beside ((s.reading whole).wrappedCall ut call answer)
      ((s.reading torn).wrappedCall ut call answer) := by
  unfold wrappedCall
  by_cases active : s.config.rrActive = true
  · have records : ∀ reader : Reader, (s.reading reader).config.rrActive = true := fun _ => active
    rw [if_pos (records whole), if_pos (records torn)]
    cases call.wrapper.issue answer with
    | done result args =>
        dsimp only
        rw [rrLogSyscall_reading, rrLogSyscall_reading]
        exact .mk ((s.rrLogSyscall args).returnCall ut call result) both
    | submit op =>
        dsimp only
        rw [submitAndBlock_reading, submitAndBlock_reading]
        exact .mk _ both
  · have unrecorded : ∀ reader : Reader, ¬ (s.reading reader).config.rrActive = true :=
      fun _ => active
    rw [if_neg (unrecorded whole), if_neg (unrecorded torn)]
    by_cases replays : s.config.rrReplayActive = true
    · have reads : ∀ reader : Reader, (s.reading reader).config.rrReplayActive = true :=
        fun _ => replays
      obtain ⟨after, same⟩ := both.syscall call.wrapper.nr s.sched.currentId
      rw [if_pos (reads whole), if_pos (reads torn), reading_reader, reading_reader, reading_sched,
        reading_sched]
      revert after same
      obtain ⟨first, outcome⟩ := whole.rrReplayNextSyscall call.wrapper.nr s.sched.currentId
      obtain ⟨second, other⟩ := torn.rrReplayNextSyscall call.wrapper.nr s.sched.currentId
      intro (after : Reader.Torn first second) (same : other = outcome)
      subst same
      cases other with
      | error errno =>
          exact .mk ((s.observe [.mismatch]).returnCall ut call (call.wrapper.refused errno)) after
      | ok event => exact .mk (s.returnCall ut call _) after
    · have plain : ∀ reader : Reader, ¬ (s.reading reader).config.rrReplayActive = true :=
        fun _ => replays
      rw [if_neg (plain whole), if_neg (plain torn)]
      exact .mk (s.returnCall ut call _) both

theorem perform_beside (s : State) (both : Reader.Torn whole torn) (ut : Ptr) (u : Uthread)
    (answer : Answer) (action : Action) :
    Beside ((s.reading whole).perform ut u answer action)
      ((s.reading torn).perform ut u answer action) := by
  cases action with
  | create fn => exact .mk { s with sched := _ } both
  | yield => exact .mk { s with sched := _ } both
  | join id out =>
      have unfolded : ∀ reader : Reader,
          (s.reading reader).perform ut u answer (.join id out) =
            (s.perform ut u answer (.join id out)).reading reader := by
        intro reader
        simp only [perform, reading]
        split <;> rfl
      rw [unfolded, unfolded]
      exact .mk _ both
  | exit value => exact .mk { s with sched := _ } both
  | call call => exact wrappedCall_beside s both ut call answer
  | ret =>
      simp only [perform]
      split
      · exact .mk { s with sched := _ } both
      · exact .mk { s with sched := _ } both

theorem performHost_beside (s : State) (both : Reader.Torn whole torn) (answer : Answer)
    (action : Action) :
    Beside ((s.reading whole).performHost answer action)
      ((s.reading torn).performHost answer action) := by
  have unfolded : ∀ reader : Reader, (s.reading reader).performHost answer action =
      (s.performHost answer action).reading reader := by
    intro reader
    cases action <;> rfl
  rw [unfolded, unfolded]
  exact .mk _ both

theorem schedulerLoop_beside (s : State) (both : Reader.Torn whole torn) (answer : WaitAnswer) :
    Option.Rel Beside ((s.reading whole).schedulerLoop answer)
      ((s.reading torn).schedulerLoop answer) := by
  unfold schedulerLoop
  simp only [reading_config, reading_sched, reading_reader, rrIoWait_reading, switchTo_reading,
    rrLogSched_reading]
  obtain ⟨front, popped⟩ := s.sched.runqPopFront
  cases front with
  | none =>
      dsimp only
      cases s.rrIoWait answer with
      | none => exact .none
      | some t => exact .some (.mk t both)
  | some next =>
      dsimp only
      cases popped.heap next with
      | none => exact .none
      | some u =>
          dsimp only
          by_cases stale : u.state ≠ .runnable
          · rw [if_pos stale, if_pos stale]
            exact .some (.mk { s with sched := popped } both)
          rw [if_neg stale, if_neg stale]
          by_cases same : s.sched.currentId = u.id
          · rw [if_pos same, if_pos same]
            exact .some (.mk _ both)
          rw [if_neg same, if_neg same]
          by_cases replays : s.config.rrReplayActive = true
          · obtain ⟨after, agree⟩ := both.sched s.sched.currentId u.id
            rw [if_pos replays, if_pos replays]
            revert after agree
            obtain ⟨first, outcome⟩ := whole.rrReplayExpectSched s.sched.currentId u.id
            obtain ⟨second, other⟩ := torn.rrReplayExpectSched s.sched.currentId u.id
            intro (after : Reader.Torn first second) (agree : other = outcome)
            subst agree
            cases other with
            | error errno =>
                exact .some (.mk
                  (observe { s with sched := { s.sched with control := .aborted } } [.mismatch])
                  after)
            | ok done =>
                refine .some ?_
                change Beside ((s.reading first).switchTo _ _ u) ((s.reading second).switchTo _ _ u)
                rw [switchTo_reading, switchTo_reading]
                exact .mk _ after
          · rw [if_neg replays, if_neg replays]
            exact .some (.mk _ both)

/-- One step: both processes take it, and still differ in nothing else, or neither does. -/
theorem Beside.step (program : Program) {p q : State} (beside : Beside p q) (input : Input) :
    Option.Rel Beside (Librr.step program p input) (Librr.step program q input) := by
  obtain ⟨s, both⟩ := beside
  cases input with
  | act answer =>
      simp only [Librr.step, State.act]
      change Option.Rel Beside (if s.sched.control = .user then _ else _)
        (if s.sched.control = .user then _ else _)
      by_cases user : s.sched.control = .user
      · rw [if_pos user, if_pos user]
        change Option.Rel Beside (if s.config.runtimeReady then _ else _)
          (if s.config.runtimeReady then _ else _)
        by_cases ready : s.config.runtimeReady = true
        · rw [if_pos ready, if_pos ready]
          change Option.Rel Beside (s.sched.running.map _) (s.sched.running.map _)
          cases s.sched.running with
          | none => exact .none
          | some found => exact .some (perform_beside s both found.1 found.2 answer _)
        · rw [if_neg ready, if_neg ready]
          exact .some (performHost_beside s both answer _)
      · rw [if_neg user, if_neg user]
        exact .none
  | loop answer =>
      simp only [Librr.step]
      change Option.Rel Beside (if s.sched.control = .scheduler then _ else _)
        (if s.sched.control = .scheduler then _ else _)
      by_cases idle : s.sched.control = .scheduler
      · rw [if_pos idle, if_pos idle]
        exact schedulerLoop_beside s both answer
      · rw [if_neg idle, if_neg idle]
        exact .none
  | post index res data =>
      simp only [Librr.step]
      change Option.Rel Beside
        (if s.sched.control = .user ∨ s.sched.control = .scheduler then
          s.ring.inflight[index]?.map _ else _)
        (if s.sched.control = .user ∨ s.sched.control = .scheduler then
          s.ring.inflight[index]?.map _ else _)
      by_cases live : s.sched.control = .user ∨ s.sched.control = .scheduler
      · rw [if_pos live, if_pos live]
        cases s.ring.inflight[index]? with
        | none => exact .none
        | some sqe => exact .some (.mk { s with ring := _, history := _ } both)
      · rw [if_neg live, if_neg live]
        exact .none

end Steps

end State

theorem Reader.Torn.refl {reader : Reader} (spent : reader.unread = []) : Torn reader reader := by
  refine ⟨?_, [], by decide, ?_⟩
  · rw [spent]
    exact Nat.dvd_zero _
  · rw [List.append_nil]

/-- Both files are refused, or what they open differs in the torn record only. -/
theorem Reader.rrReplayInit_wholeRecords (file : Bytes) :
    Option.Rel Torn (rrReplayInit (some (wholeRecords file))) (rrReplayInit (some file)) := by
  have size : sizeofEvent = 112 := rfl
  simp only [rrReplayInit, Option.bind_some]
  by_cases short : file.length < sizeofHeader
  · have same : wholeRecords file = file := List.take_of_length_le (by omega)
    rw [same, rrReadFull, if_neg (by omega)]
    exact .none
  · generalize count : (file.length - sizeofHeader) / sizeofEvent = n
    have fits : n * sizeofEvent ≤ file.length - sizeofHeader := by
      rw [← count]
      exact Nat.div_mul_le_self _ _
    have rest : file.length - sizeofHeader - n * sizeofEvent < sizeofEvent := by
      rw [← count, ← Nat.mod_eq_sub_div_mul]
      exact Nat.mod_lt _ (by omega)
    have mine : rrReadFull (wholeRecords file) sizeofHeader =
        ((file.drop sizeofHeader).take (n * sizeofEvent), some (file.take sizeofHeader)) := by
      rw [wholeRecords, count, rrReadFull,
        if_pos (by rw [List.length_take]; omega), List.drop_take, Nat.add_sub_cancel_left,
        List.take_take, Nat.min_eq_left (Nat.le_add_right _ _)]
    rw [mine, rrReadFull, if_pos (by omega)]
    simp only [acceptHeader]
    split
    · exact .none
    · refine .some ⟨?_, (file.drop sizeofHeader).drop (n * sizeofEvent), ?_, ?_⟩
      · rw [List.length_take, List.length_drop, Nat.min_eq_left fits]
        exact Nat.dvd_mul_left _ _
      · rw [List.length_drop, List.length_drop]
        exact rest
      · rw [List.take_append_drop]

namespace State

theorem replayStart_beside (stackSize : Nat) (virtualTime : Bool) (file : Bytes) :
    Beside (replayStart stackSize virtualTime (some (Reader.wholeRecords file)))
      (replayStart stackSize virtualTime (some file)) := by
  have refused : Beside ((fresh ⟨false, true, virtualTime, false, stackSize⟩).observe [.mismatch])
      ((fresh ⟨false, true, virtualTime, false, stackSize⟩).observe [.mismatch]) :=
    .mk ((fresh ⟨false, true, virtualTime, false, stackSize⟩).observe [.mismatch])
      (Reader.Torn.refl (rfl : Reader.closed.unread = []))
  have opened := Reader.rrReplayInit_wholeRecords file
  unfold replayStart
  revert opened
  cases Reader.rrReplayInit (some (Reader.wholeRecords file)) with
  | none =>
      cases Reader.rrReplayInit (some file) with
      | none => exact fun _ => refused
      | some torn => exact fun wrong => (by cases wrong)
  | some whole =>
      cases Reader.rrReplayInit (some file) with
      | none => exact fun wrong => (by cases wrong)
      | some torn =>
          intro opened
          cases opened with
          | some both =>
              obtain ⟨after, same⟩ := both.sched 0 1
              dsimp only
              revert after same
              obtain ⟨first, outcome⟩ := whole.rrReplayExpectSched 0 1
              obtain ⟨second, other⟩ := torn.rrReplayExpectSched 0 1
              rintro after rfl
              cases other with
              | error errno => exact refused
              | ok done =>
                  exact .mk (fresh ⟨false, true, virtualTime, false, stackSize⟩).markRuntimeReady
                    after

/-- Part of a record at the end of a log file, as a killed process leaves it, is invisible
to replay: whatever the file holds and whatever the world answers, the process goes
through the same states as with the complete records alone, but for the unread bytes. -/
theorem torn_record_invisible (program : Program) (stackSize : Nat) (virtualTime : Bool)
    (file : Bytes) (inputs : List Input) :
    Option.Rel Beside
      (exec (step program)
        (replayStart stackSize virtualTime (some (Reader.wholeRecords file))) inputs)
      (exec (step program) (replayStart stackSize virtualTime (some file)) inputs) := by
  have alike : List.Forall₂ (fun mine theirs : Input => mine = theirs) inputs inputs :=
    List.forall₂_same.mpr fun _ _ => rfl
  refine exec_rel ?_ (replayStart_beside stackSize virtualTime file) alike
  rintro p q input _ beside rfl
  exact beside.step program input

end State

end Librr
