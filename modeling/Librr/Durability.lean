import Librr.RecordReplay
import Librr.RoundTrip
import Librr.TornLog
import Mathlib.Data.List.ModifyLast

set_option autoImplicit false

namespace Librr

open Transition

/-- Two logs numbered from 1 on are told apart by what they log. -/
theorem Stamped.front {logged log : List Event} (mine : Stamped logged) (theirs : Stamped log)
    (front : logged.map (fun event => (event.uthreadId, event.payload)) <+:
      log.map fun event => (event.uthreadId, event.payload)) : logged <+: log := by
  rw [List.prefix_iff_getElem?] at front ⊢
  intro i inside
  have same := front i (by rwa [List.length_map])
  rw [List.getElem_map, List.getElem?_map] at same
  obtain ⟨event, found, alike⟩ := Option.map_eq_some_iff.mp same
  have number := mine i _ (List.getElem?_eq_getElem inside)
  rw [← theirs i event found] at number
  rw [found]
  obtain ⟨seq, uthreadId, payload⟩ := event
  simp only [Prod.mk.injEq] at alike
  rw [Option.some.injEq, Event.mk.injEq]
  exact ⟨number.symm, alike.1, alike.2⟩

namespace State

/-- The log is numbered from 1 on, and `g_rr_seq` is the last number. -/
structure Counted (s : State) : Prop where
  stamped : Stamped s.log
  count : s.seq = UInt64.ofNat s.log.length

section Counted

variable {s t : State}

theorem Counted.of_same (counted : s.Counted) (log : t.log = s.log) (seq : t.seq = s.seq) :
    t.Counted := by
  refine ⟨?_, ?_⟩
  · rw [log]
    exact counted.stamped
  · rw [seq, log]
    exact counted.count

theorem Counted.append (counted : s.Counted) (uthreadId : UInt64) (payload : Payload) :
    (s.appendEvent uthreadId payload).Counted := by
  have next : s.seq + 1 = UInt64.ofNat (s.log.length + 1) := by
    rw [counted.count, UInt64.ofNat_add]
    rfl
  refine ⟨?_, ?_⟩
  · show Stamped (s.log ++ [⟨s.seq + 1, uthreadId, payload⟩])
    rw [next]
    exact counted.stamped.snoc uthreadId payload
  · show s.seq + 1 = UInt64.ofNat (s.log ++ [_]).length
    rw [next, List.length_append, List.length_singleton]

theorem Counted.returned (counted : s.Counted) (records : s.Records) (args : LogArgs) (ut : Ptr)
    (call : Call) (result : CallResult) :
    ((s.rrLogSyscall args).returnCall ut call result).Counted := by
  rw [records.logSyscall]
  exact (counted.append s.sched.currentId args.payload).of_same rfl rfl

theorem Counted.switched (counted : s.Counted) (records : s.Records) (toId : UInt64) :
    (s.logSwitch toId).Counted := by
  unfold logSwitch
  split
  · exact counted
  · rw [records.logSched]
    exact counted.append _ _

/-- Every event is logged under the next number. -/
theorem RecordStep.counted {program : Program} {input : Input} (inv : s.Recording)
    (counted : s.Counted) (taken : RecordStep program s input t) : t.Counted := by
  cases taken with
  | perform answer ut u sched user running performed => exact counted.of_same rfl rfl
  | immediate answer ut u call result args user running next done =>
      exact counted.returned inv.records args ut call result
  | full answer ut u call op finish user running next submits half filled =>
      exact counted.returned inv.records _ ut call _
  | refused answer ut u call op finish user running next submits half room failed =>
      have left : (s.leave op).Counted := counted.of_same rfl rfl
      exact left.returned (inv.records.of_same rfl rfl) _ ut call _
  | submitted answer ut u call op finish user running next submits half room accepted =>
      exact counted.of_same rfl rfl
  | interrupted answer idle empty broken => exact counted
  | killed answer cqe rest idle empty first sentinel full fatal =>
      rw [inv.records.logSignal]
      exact (counted.append _ _).of_same rfl rfl
  | signal answer cqe rest idle empty first sentinel full harmless =>
      obtain ⟨_, _, log, seq⟩ := rearmSignalRead_ring
        (s.rrLogSignal s.ring.ssiSigno s.sched.currentId.toUInt32) answer.submit
      rw [inv.records.logSignal] at log seq ⊢
      exact (counted.append _ _).of_same log seq
  | short answer cqe rest idle empty first sentinel short =>
      obtain ⟨_, _, log, seq⟩ := s.rearmSignalRead_ring answer.submit
      exact counted.of_same log seq
  | wake answer cqe rest idle empty first tagged => exact counted.of_same rfl rfl
  | dispatch answer next u idle head found runnable =>
      have before := counted.switched inv.records u.id
      have records : (s.logSwitch u.id).Records := by
        rw [inv.records.logSwitch]
        exact inv.records.of_same rfl rfl
      rcases (s.logSwitch u.id).switchTo_cases s.sched.runqPopFront.2 next
          (head_resumes inv.framed found runnable) with
        ⟨_, same⟩ | ⟨_, same⟩ | ⟨_, _, _, _, same⟩ | ⟨call, serial, finish, _, _, _, same⟩
      · exact same ▸ before.of_same rfl rfl
      · exact same ▸ before.of_same rfl rfl
      · exact same ▸ before.of_same rfl rfl
      · -- The caller that goes on logs its call behind the switch to it.
        have arrived : (((s.logSwitch u.id).arrive s.sched.runqPopFront.2 next u.id).observe
            [.answered serial u.ioResult]).Counted := before.of_same rfl rfl
        rw [same]
        exact arrived.returned (records.of_same rfl rfl) _ next call _
  | post index res data sqe live flying => exact counted.of_same rfl rfl

end Counted

theorem recordStart_counted (stackSize : Nat) (signalFd : Int32) :
    (recordStart stackSize signalFd).Counted := by
  have empty : Stamped [] := fun _ _ found => by cases found
  exact ⟨empty.snoc 1 (.sched 0 1), rfl⟩

end State

/-- The event that a call logs. -/
def RecorderCall.entry : RecorderCall → Option (UInt64 × Payload)
  | .log uthreadId payload => some (uthreadId, payload)
  | .flush => none

namespace Recorder

/-- What a recorder whose writes are only cut short has on disk: a front of the complete
log, short of it by no more than the ring and the record of the call that writes. -/
structure Durable (startTime : UInt64) (pid : UInt32) (r : Recorder) : Prop where
  opened : sizeofHeader ≤ r.file.length
  front : r.file <+: r.complete startTime pid
  whole : r.Whole startTime pid
  bounded : r.Bounded
  held : sizeofHeader + sizeofEvent * r.logged.length ≤
    r.file.length + r.ring.length + sizeofEvent
  copied : sizeofEvent ∣ r.ring.length
  stamped : Stamped r.logged
  count : r.seq = UInt64.ofNat r.logged.length

variable {startTime : UInt64} {pid : UInt32} {r next : Recorder}

theorem Whole.length (whole : r.Whole startTime pid) (outside : r.writing = false) :
    r.file.length + r.ring.length = sizeofHeader + sizeofEvent * r.logged.length := by
  rw [← List.length_append, whole outside, length_complete]

/-- A flush takes nothing from the ring before all of it is written. -/
theorem rrRecordFlush_held (outside : r.writing = false) {answers : List WriteAnswer}
    (benign : ∀ answer ∈ answers, answer.Benign) :
    r.file.length + r.ring.length ≤
      (r.rrRecordFlush answers).1.file.length + (r.rrRecordFlush answers).1.ring.length := by
  rcases rrRecordFlush_benign benign r with ⟨inside, _⟩ | emptied
  · obtain ⟨written, _, _, _, kept | other⟩ := r.rrRecordFlush_cases answers
    · rw [kept]
      simp only [List.length_append]
      omega
    · rw [other, outside] at inside
      cases inside
  · rw [emptied]
    simp only [List.length_append, List.length_nil]
    omega

theorem madeRoom_held (outside : r.writing = false) {answers : List WriteAnswer}
    (benign : ∀ answer ∈ answers, answer.Benign) :
    r.file.length + r.ring.length ≤
      (r.madeRoom answers).file.length + (r.madeRoom answers).ring.length := by
  unfold madeRoom
  split
  · exact rrRecordFlush_held outside benign
  · exact Nat.le_refl _

/-- The call that logs an event is the only one whose record may be in neither place. -/
theorem Whole.held (whole : r.Whole startTime pid) {call : RecorderCall}
    {answers : List WriteAnswer} (benign : ∀ answer ∈ answers, answer.Benign)
    (taken : r.step (call, answers) = some next) :
    sizeofHeader + sizeofEvent * next.logged.length ≤
      next.file.length + next.ring.length + sizeofEvent := by
  obtain ⟨outside, ⟨_, flushed⟩ | ⟨uthreadId, payload, _, appended⟩⟩ := step_cases taken
  · have all := whole.length outside
    have kept := rrRecordFlush_held outside benign
    rw [flushed, (r.rrRecordFlush_kept answers).2]
    omega
  · have all := whole.length outside
    have kept := madeRoom_held outside benign
    rw [appended, rrRecordAppend_event, madeRoom_logged]
    split
    · simp only [List.length_append, List.length_singleton, Nat.mul_add, Nat.mul_one]
      omega
    · simp only [List.length_append, List.length_singleton, Nat.mul_add, Nat.mul_one]
      omega

theorem rrRecordFlush_file (r : Recorder) (answers : List WriteAnswer) :
    r.file.length ≤ (r.rrRecordFlush answers).1.file.length := by
  obtain ⟨written, _, _, _, inside | emptied⟩ := r.rrRecordFlush_cases answers
  · rw [inside]
    simp only [List.length_append]
    omega
  · rw [emptied]
    simp only [List.length_append]
    omega

theorem step_file {call : RecorderCall} {answers : List WriteAnswer}
    (taken : r.step (call, answers) = some next) : r.file.length ≤ next.file.length := by
  obtain ⟨_, ⟨_, flushed⟩ | ⟨uthreadId, payload, _, appended⟩⟩ := step_cases taken
  · rw [flushed]
    exact r.rrRecordFlush_file answers
  · have grown : r.file.length ≤ (r.madeRoom answers).file.length := by
      unfold madeRoom
      split
      · exact r.rrRecordFlush_file answers
      · exact Nat.le_refl _
    rw [appended, rrRecordAppend_event, madeRoom_logged]
    split
    · exact grown
    · exact grown

/-- Only complete records are copied into the ring. -/
theorem step_copied {call : RecorderCall} {answers : List WriteAnswer}
    (copied : sizeofEvent ∣ r.ring.length) (taken : r.step (call, answers) = some next) :
    sizeofEvent ∣ next.ring.length := by
  have flushed : sizeofEvent ∣ (r.rrRecordFlush answers).1.ring.length := by
    obtain ⟨written, _, _, _, inside | emptied⟩ := r.rrRecordFlush_cases answers
    · rw [inside]
      exact copied
    · rw [emptied]
      exact Nat.dvd_zero _
  obtain ⟨_, ⟨_, same⟩ | ⟨uthreadId, payload, _, appended⟩⟩ := step_cases taken
  · rw [same]
    exact flushed
  · have room : sizeofEvent ∣ (r.madeRoom answers).ring.length := by
      unfold madeRoom
      split
      · exact flushed
      · exact copied
    rw [appended, rrRecordAppend_event, madeRoom_logged]
    split
    · exact room
    · simp only [List.length_append, Event.length_encode]
      exact Nat.dvd_add room (Nat.dvd_refl _)

theorem step_counted {call : RecorderCall} {answers : List WriteAnswer}
    (stamped : Stamped r.logged) (count : r.seq = UInt64.ofNat r.logged.length)
    (taken : r.step (call, answers) = some next) :
    Stamped next.logged ∧ next.seq = UInt64.ofNat next.logged.length := by
  obtain ⟨_, ⟨_, flushed⟩ | ⟨uthreadId, payload, _, appended⟩⟩ := step_cases taken
  · obtain ⟨seq, logged⟩ := r.rrRecordFlush_kept answers
    rw [flushed, seq, logged]
    exact ⟨stamped, count⟩
  · obtain ⟨seq, logged⟩ := { r with
      seq := (r.nextEvent uthreadId payload).seq
      logged := r.logged ++ [r.nextEvent uthreadId payload] }.rrRecordAppend_kept
        (r.nextEvent uthreadId payload) answers
    have number : r.seq + 1 = UInt64.ofNat (r.logged.length + 1) := by
      rw [count, UInt64.ofNat_add]
      rfl
    rw [appended, seq, logged, nextEvent, number]
    refine ⟨stamped.snoc uthreadId payload, ?_⟩
    rw [List.length_append, List.length_singleton]

theorem Durable.step (durable : r.Durable startTime pid) {call : RecorderCall}
    {answers : List WriteAnswer} (benign : ∀ answer ∈ answers, answer.Benign)
    (taken : r.step (call, answers) = some next) : next.Durable startTime pid := by
  have outside := (step_cases taken).1
  have kept : ¬ r.Dropped := by
    have all := durable.whole.length outside
    unfold Dropped
    omega
  have contiguous : r.Contiguous startTime pid :=
    ⟨durable.front, fun outside _ => durable.whole outside⟩
  obtain ⟨stamped, count⟩ := step_counted durable.stamped durable.count taken
  exact ⟨Nat.le_trans durable.opened (step_file taken),
    (contiguous.step (fun dropped => absurd dropped kept) taken).front,
    durable.whole.step benign taken, durable.bounded.step taken, durable.whole.held benign taken,
    step_copied durable.copied taken, stamped, count⟩

theorem durable_of_init {answers : List WriteAnswer}
    (initialised : rrRecordInit startTime pid answers = some r) : r.Durable startTime pid := by
  have whole := whole_of_init initialised
  have front := (contiguous_of_init initialised).front
  obtain rfl := rrRecordInit_some initialised
  refine ⟨Nat.le_of_eq (Header.length_encode _).symm, front, whole, Nat.zero_le _, ?_,
    Nat.dvd_zero _, fun _ _ found => (by cases found), rfl⟩
  have all := whole.length rfl
  omega

theorem take_records (events : List Event) (n : Nat) :
    (events.flatMap Event.encode).take (n * sizeofEvent) =
      (events.take n).flatMap Event.encode := by
  induction events generalizing n with
  | nil => simp
  | cons event rest ih =>
      cases n with
      | zero => simp
      | succ n =>
          have size := event.length_encode
          have more : (n + 1) * sizeofEvent - sizeofEvent = n * sizeofEvent := by
            rw [Nat.succ_mul, Nat.add_sub_cancel]
          rw [List.flatMap_cons, List.take_append, size, more, ih, List.take_succ_cons,
            List.flatMap_cons, List.take_of_length_le]
          rw [size, Nat.succ_mul]
          exact Nat.le_add_left _ _

/-- The complete records of the file are the first events logged. -/
theorem Durable.records (durable : r.Durable startTime pid) :
    Reader.wholeRecords r.file = State.flushedLog startTime pid
      (r.logged.take ((r.file.length - sizeofHeader) / sizeofEvent)) := by
  have size := Header.length_encode (.recorded startTime pid)
  have behind := durable.opened
  have fits : sizeofHeader + (r.file.length - sizeofHeader) / sizeofEvent * sizeofEvent ≤
      r.file.length := by
    have below := Nat.div_mul_le_self (r.file.length - sizeofHeader) sizeofEvent
    omega
  have cut : Reader.wholeRecords r.file = (r.complete startTime pid).take
      (sizeofHeader + (r.file.length - sizeofHeader) / sizeofEvent * sizeofEvent) := by
    obtain ⟨rest, all⟩ := durable.front
    rw [← all, List.take_append_of_le_length fits, Reader.wholeRecords]
  rw [cut, complete, State.flushedLog, List.take_append, List.take_of_length_le (by omega), size,
    Nat.add_sub_cancel_left, take_records]
  rfl

/-- The calls that one step makes, as far as they come: a call that is still inside `write`
holds up the others. -/
def recordAll (r : Recorder) : List (RecorderCall × List WriteAnswer) → Recorder
  | [] => r
  | call :: rest =>
    match r.step call with
    | none => r
    | some next => next.recordAll rest

theorem step_none {input : RecorderCall × List WriteAnswer} (stuck : r.step input = none) :
    r.writing = true := by
  obtain ⟨call, answers⟩ := input
  by_contra outside
  simp only [Recorder.step, outside, if_false] at stuck
  cases call with
  | flush => cases stuck
  | log uthreadId payload => cases stuck

theorem recordAll_front (r : Recorder) (calls : List (RecorderCall × List WriteAnswer)) :
    ∃ front, front <+: calls ∧ exec Recorder.step r front = some (r.recordAll calls) ∧
      ((r.recordAll calls).writing = false → front = calls) := by
  induction calls generalizing r with
  | nil => exact ⟨[], List.prefix_refl _, rfl, fun _ => rfl⟩
  | cons call rest ih =>
      cases taken : r.step call with
      | none =>
          have same : r.recordAll (call :: rest) = r := by rw [recordAll, taken]
          refine ⟨[], List.nil_prefix, by rw [same, exec_nil], fun outside => ?_⟩
          rw [same, step_none taken] at outside
          cases outside
      | some next =>
          obtain ⟨front, part, reached, all⟩ := ih next
          have same : r.recordAll (call :: rest) = next.recordAll rest := by
            rw [recordAll, taken]
          rw [same]
          refine ⟨call :: front, List.cons_prefix_cons.mpr ⟨rfl, part⟩,
            exec_cons.mpr ⟨next, taken, reached⟩, fun returned => ?_⟩
          rw [all returned]

/-- A flush that returns leaves the ring empty. -/
theorem flush_empties {answers : List WriteAnswer} (benign : ∀ answer ∈ answers, answer.Benign)
    (taken : r.step (.flush, answers) = some next) (returned : next.writing = false) :
    next.ring = [] := by
  obtain ⟨_, ⟨_, flushed⟩ | ⟨_, _, other, _⟩⟩ := step_cases taken
  · rcases rrRecordFlush_benign benign r with ⟨inside, _⟩ | emptied
    · rw [flushed, inside] at returned
      cases returned
    · rw [flushed, emptied]
  · cases other

/-- What the writes of each call answer; where nothing is given, no `write` returns. -/
def answering : List RecorderCall → List (List WriteAnswer) →
    List (RecorderCall × List WriteAnswer)
  | [], _ => []
  | call :: rest, writes => (call, writes.headD []) :: answering rest writes.tail

theorem answering_calls (calls : List RecorderCall) (writes : List (List WriteAnswer)) :
    (answering calls writes).map Prod.fst = calls := by
  induction calls generalizing writes with
  | nil => rfl
  | cons call rest ih => rw [answering, List.map_cons, ih]

theorem entries_eq (given : List (RecorderCall × List WriteAnswer)) :
    entries given = (given.map Prod.fst).filterMap RecorderCall.entry := by
  rw [List.filterMap_map]
  rfl

theorem answering_all {P : WriteAnswer → Prop} {writes : List (List WriteAnswer)}
    (all : ∀ answers ∈ writes, ∀ answer ∈ answers, P answer) (calls : List RecorderCall) :
    ∀ input ∈ answering calls writes, ∀ answer ∈ input.2, P answer := by
  induction calls generalizing writes with
  | nil => exact fun _ member => absurd member List.not_mem_nil
  | cons call rest ih =>
      intro input member
      rcases List.mem_cons.mp member with rfl | later
      · cases writes with
        | nil => exact fun _ none => absurd none List.not_mem_nil
        | cons answers others => exact all answers List.mem_cons_self
      · apply ih _ input later
        intro answers inside
        exact all answers (List.mem_of_mem_tail inside)

/-- What the append of one event leaves in `errno`: the code of the last of its writes that
did not succeed, and nothing where the ring has room. -/
def appendErrno (r : Recorder) (uthreadId : UInt64) (payload : Payload)
    (answers : List WriteAnswer) : Option Int32 :=
  let event := r.nextEvent uthreadId payload
  let rest := ({ r with seq := event.seq, logged := r.logged ++ [event] }.rrRecordAppend
    event.encode answers).2
  ((answers.take (answers.length - rest.length)).filterMap WriteAnswer.errno).getLast?

/-- What the calls of one step leave in `errno` behind the result of a wrapped function. Every
wrapper sets `errno` first and logs the call last. -/
def errnoLeft (r : Recorder) : List (RecorderCall × List WriteAnswer) → Option Int32
  | [] => none
  | [(.log uthreadId (.syscall nr retval arg0 data dataLen), answers)] =>
    r.appendErrno uthreadId (.syscall nr retval arg0 data dataLen) answers
  | call :: rest => (r.step call).bind fun next => next.errnoLeft rest

/-- Writes that all take something leave `errno` alone. -/
theorem errnoLeft_silent (r : Recorder) {given : List (RecorderCall × List WriteAnswer)}
    (silent : ∀ input ∈ given, ∀ answer ∈ input.2, answer.errno = none) :
    r.errnoLeft given = none := by
  fun_induction errnoLeft r given with
  | case1 => rfl
  | case2 r uthreadId nr retval arg0 data dataLen answers =>
      have unset : ∀ answer ∈ answers, answer.errno = none := silent _ List.mem_cons_self
      simp only [appendErrno, List.getLast?_eq_none_iff, List.filterMap_eq_nil_iff]
      exact fun answer member => unset answer (List.mem_of_mem_take member)
  | case3 r call rest _ ih =>
      rw [Option.bind_eq_none_iff]
      exact fun next _ => ih next fun input member => silent input (List.mem_cons_of_mem _ member)

end Recorder

/-- A failure that is seen with another `errno`. After a success nobody looks at it. -/
def CallResult.withErrno (errno : Int32) (result : CallResult) : CallResult :=
  { result with errno := result.errno.map fun _ => errno }

def Reply.withErrno (errno : Int32) : Reply → Reply
  | .returned result => .returned (result.withErrno errno)
  | other => other

def Observation.withErrno (errno : Int32) : Observation → Observation
  | .returned id call result => .returned id call (result.withErrno errno)
  | other => other

/-- The last result that the uthread has received. -/
def Context.withErrno (errno : Int32) (ctx : Context) : Context :=
  { ctx with trace := ctx.trace.modifyLast fun done => (done.1, done.2.withErrno errno) }

def Sched.withErrno (errno : Int32) (s : Sched) : Sched :=
  match s.current with
  | none => s
  | some ut => s.modify ut fun u => { u with ctx := u.ctx.withErrno errno }

/-- The running uthread finds another `errno` than its wrapper has set. -/
def State.withErrno (s : State) : Option Int32 → State
  | none => s
  | some errno =>
    { s with
      sched := s.sched.withErrno errno
      history := s.history.modifyLast (Observation.withErrno errno) }

namespace Sched

theorem withErrno_control (errno : Int32) (s : Sched) :
    (s.withErrno errno).control = s.control := by
  unfold withErrno
  split <;> rfl

theorem withErrno_currentId (errno : Int32) (s : Sched) :
    (s.withErrno errno).currentId = s.currentId := by
  unfold withErrno
  split
  · rfl
  · rename_i ut current
    simp only [currentId, running, modify, current, Option.bind_some, Heap.modify_apply, if_true]
    cases s.heap ut <;> rfl

/-- A context that is told otherwise stands where it stood. -/
theorem QueueInvariant.withErrno {s : Sched} (inv : s.QueueInvariant) (errno : Int32) :
    (s.withErrno errno).QueueInvariant := by
  unfold Sched.withErrno
  split
  · exact inv
  rename_i ut current
  have states : (s.modify ut fun u => { u with ctx := u.ctx.withErrno errno }).stateOf =
      s.stateOf := by
    funext other
    rw [stateOf_modify]
    split <;> rfl
  have core : (s.modify ut fun u => { u with ctx := u.ctx.withErrno errno }).core =
      s.core.modify ut fun u => { u with ctx := u.ctx.withErrno errno } :=
    core_modify (fun _ => rfl)
  refine ⟨inv.runq.congr (links_modify (fun _ => rfl)) (fun ut => by rw [states]), ?_, ?_, ?_,
    ?_, inv.on⟩
  · rw [states]
    exact inv.user
  · rw [states]
    exact inv.scheduler
  · intro other v present
    rw [core, Heap.modify_apply] at present
    split at present
    · obtain ⟨w, found, rfl⟩ := Option.map_eq_some_iff.mp present
      exact inv.ended other w found
    · exact inv.ended other v present
  · intro other above
    rw [core, Heap.modify_eq_none]
    exact inv.unallocated other above

theorem Framed.withErrno {s : Sched} (framed : s.Framed) (errno : Int32) :
    (s.withErrno errno).Framed := by
  unfold Sched.withErrno
  split
  · exact framed
  · rename_i ut current
    have core : (s.modify ut fun u => { u with ctx := u.ctx.withErrno errno }).core =
        s.core.modify ut fun u => { u with ctx := u.ctx.withErrno errno } :=
      core_modify (fun _ => rfl)
    exact framed.modify core fun u found => framed ut u found

end Sched

namespace State

variable {s : State} (errno : Option Int32)

theorem withErrno_log : (s.withErrno errno).log = s.log := by
  cases errno <;> rfl

theorem withErrno_control : (s.withErrno errno).sched.control = s.sched.control := by
  cases errno with
  | none => rfl
  | some errno => exact Sched.withErrno_control errno s.sched

theorem Counted.withErrno (counted : s.Counted) : (s.withErrno errno).Counted := by
  cases errno with
  | none => exact counted
  | some errno => exact counted.of_same rfl rfl

theorem Recording.withErrno (recording : s.Recording) : (s.withErrno errno).Recording := by
  cases errno with
  | none => exact recording
  | some errno =>
      exact ⟨recording.records.of_same rfl rfl, recording.queue.withErrno errno,
        recording.framed.withErrno errno⟩

end State

/-- A recording process together with its log file. -/
structure Journaled where
  process : State
  recorder : Recorder

namespace Journaled

/-- The calls into the recorder that have led from the log `before` to the state `t`: one
for each event, and the flush of `rr_record_shutdown` if the process has ended, by the
return of `main` or by a fatal signal. -/
def calls (before : List Event) (t : State) : List RecorderCall :=
  (t.log.drop before.length).map (fun event => .log event.uthreadId event.payload) ++
    if t.sched.control = .exited then [.flush] else []

/-- The calls of a step to the state `t`, with what their writes answer. -/
def answered (j : Journaled) (t : State) (writes : List (List WriteAnswer)) :
    List (RecorderCall × List WriteAnswer) :=
  Recorder.answering (calls j.process.log t) writes

/-- One step of the process, with what each call's writes answer. While a call is inside
`write` nothing else happens, and a wrapped function returns with the `errno` that its
record has left. -/
def step (program : Program) (j : Journaled) (input : Input × List (List WriteAnswer)) :
    Option Journaled :=
  if j.recorder.writing then none
  else
    (Librr.step program j.process input.1).map fun t =>
      ⟨t.withErrno (j.recorder.errnoLeft (j.answered t input.2)),
        j.recorder.recordAll (j.answered t input.2)⟩

/-- After `rr_init`, which logs the switch to the main thread into the empty ring. -/
def start (stackSize : Nat) (signalFd : Int32) (recorder : Recorder) : Journaled where
  process := .recordStart stackSize signalFd
  recorder := recorder.recordAll
    (Recorder.answering (calls [] (.recordStart stackSize signalFd)) [])

/-- What holds between two steps, or when the process is killed inside a `write`. -/
structure Kept (startTime : UInt64) (pid : UInt32) (j : Journaled) : Prop where
  recording : j.process.Recording
  counted : j.process.Counted
  durable : j.recorder.Durable startTime pid
  front : j.recorder.logged <+: j.process.log
  mirrors : j.recorder.writing = false → j.recorder.logged = j.process.log
  closed : j.recorder.writing = false → j.process.sched.control = .exited → j.recorder.ring = []

variable {startTime : UInt64} {pid : UInt32}

theorem calls_withErrno (before : List Event) (t : State) (errno : Option Int32) :
    calls before (t.withErrno errno) = calls before t := by
  rw [calls, calls, State.withErrno_log, State.withErrno_control]

theorem entries_calls (before : List Event) (t : State) (writes : List (List WriteAnswer)) :
    Recorder.entries (Recorder.answering (calls before t) writes) =
      (t.log.drop before.length).map fun event => (event.uthreadId, event.payload) := by
  have flushes : (if t.sched.control = .exited then [RecorderCall.flush] else []).filterMap
      RecorderCall.entry = [] := by
    split <;> rfl
  rw [Recorder.entries_eq, Recorder.answering_calls, calls, List.filterMap_append,
    List.filterMap_map, flushes, List.append_nil]
  exact congrFun List.filterMap_eq_map _

/-- The recorder after the calls of one step. -/
theorem kept_of_calls {r : Recorder} {s t : State} (counted : s.Counted)
    (durable : r.Durable startTime pid) (same : r.logged = s.log) (recording : t.Recording)
    (after : t.Counted) (grows : s.log <+: t.log) {writes : List (List WriteAnswer)}
    (benign : ∀ answers ∈ writes, ∀ answer ∈ answers, answer.Benign) :
    Kept startTime pid ⟨t, r.recordAll (Recorder.answering (calls s.log t) writes)⟩ := by
  obtain ⟨front, part, reached, all⟩ :=
    r.recordAll_front (Recorder.answering (calls s.log t) writes)
  generalize r.recordAll (Recorder.answering (calls s.log t) writes) = r' at reached all ⊢
  have quiet : ∀ input ∈ front, ∀ answer ∈ input.2, answer.Benign := fun input member =>
    Recorder.answering_all benign _ input (part.subset member)
  have steps : ∀ a input b, Recorder.step a input = some b →
      (∀ answer ∈ input.2, answer.Benign) → a.Durable startTime pid → b.Durable startTime pid :=
    fun _ _ _ taken benign durable => durable.step benign taken
  have durable' : r'.Durable startTime pid :=
    (along_of_inputs quiet).invariant steps durable reached
  have mirrored := Recorder.mirrors_of_exec reached (s := s)
    ⟨same, by rw [durable.count, same, counted.count]⟩
  have logged : r'.logged.map (fun event => (event.uthreadId, event.payload)) =
      s.log.map (fun event => (event.uthreadId, event.payload)) ++ Recorder.entries front := by
    rw [mirrored, foldl_appendEvent_entries]
  have new : t.log.map (fun event => (event.uthreadId, event.payload)) =
      s.log.map (fun event => (event.uthreadId, event.payload)) ++
        Recorder.entries (Recorder.answering (calls s.log t) writes) := by
    obtain ⟨rest, grown⟩ := grows
    rw [entries_calls, ← grown, List.map_append, List.drop_left]
  have behind : r'.logged <+: t.log := by
    apply durable'.stamped.front after.stamped
    rw [logged, new]
    exact (List.prefix_append_right_inj _).mpr (part.filterMap _)
  refine ⟨recording, after, durable', behind, ?_, ?_⟩
  · intro returned
    apply behind.eq_of_length
    have lengths := congrArg List.length (logged.trans (by rw [all returned, ← new]))
    simpa only [List.length_map] using lengths
  · intro returned exited
    -- The last call was the flush.
    have ends := Recorder.answering_calls (calls s.log t) writes
    rw [← all returned, calls, if_pos exited] at ends
    obtain ⟨earlier, last, split, _, single⟩ := List.map_eq_append_iff.mp ends
    obtain ⟨⟨call, answers⟩, rfl, rfl⟩ := List.map_eq_singleton_iff.mp single
    rw [split] at reached quiet
    obtain ⟨middle, before, _⟩ := exec_append.mp reached
    exact Recorder.flush_empties (quiet (.flush, answers) (by simp)) (exec_after before reached)
      returned

theorem Kept.step {program : Program} {j next : Journaled} (kept : j.Kept startTime pid)
    {input : Input × List (List WriteAnswer)}
    (benign : ∀ answers ∈ input.2, ∀ answer ∈ answers, answer.Benign)
    (taken : j.step program input = some next) : next.Kept startTime pid := by
  unfold Journaled.step at taken
  split at taken
  · cases taken
  rename_i outside
  obtain ⟨t, moved, rfl⟩ := Option.map_eq_some_iff.mp taken
  have same := kept.mirrors (Bool.eq_false_iff.mpr outside)
  obtain ⟨kind, recording⟩ := kept.recording.step moved
  generalize j.recorder.errnoLeft (j.answered t input.2) = errno
  rw [answered, ← calls_withErrno _ t errno]
  have grows : j.process.log <+: (t.withErrno errno).log := by
    rw [State.withErrno_log]
    exact kind.log_grows kept.recording.records
  exact kept_of_calls kept.counted kept.durable same (recording.withErrno errno)
    ((kind.counted kept.recording kept.counted).withErrno errno) grows benign

theorem kept_start (stackSize : Nat) (signalFd : Int32) {opening : List WriteAnswer}
    {recorder : Recorder}
    (initialised : Recorder.rrRecordInit startTime pid opening = some recorder) :
    (start stackSize signalFd recorder).Kept startTime pid := by
  have empty : (State.fresh ⟨true, false, true, false, stackSize⟩).Counted :=
    ⟨fun _ _ found => (by cases found), rfl⟩
  have unlogged : recorder.logged = [] := by rw [Recorder.rrRecordInit_some initialised]
  exact kept_of_calls empty (Recorder.durable_of_init initialised) unlogged
    (State.recordStart_recording stackSize signalFd) (State.recordStart_counted stackSize signalFd)
    List.nil_prefix fun _ none => absurd none List.not_mem_nil

/-- The complete records in the file, and how many of the events logged they miss. -/
theorem Kept.records {j : Journaled} (kept : j.Kept startTime pid) :
    ∃ n ≤ j.process.log.length,
      Reader.wholeRecords j.recorder.file =
        State.flushedLog startTime pid (j.process.log.take n) ∧
      sizeofEvent * j.recorder.logged.length < sizeofEvent * (n + 2) + rrLogRingSize ∧
      (j.recorder.writing = false →
        sizeofEvent * j.process.log.length ≤ sizeofEvent * n + rrLogRingSize ∧
        j.recorder.file = State.flushedLog startTime pid (j.process.log.take n) ∧
        (j.process.sched.control = .exited → n = j.process.log.length)) := by
  have durable := kept.durable
  obtain ⟨n, count⟩ : ∃ n, n = (j.recorder.file.length - sizeofHeader) / sizeofEvent := ⟨_, rfl⟩
  have short : j.recorder.file.length ≤ sizeofHeader + sizeofEvent * j.recorder.logged.length := by
    rw [← Recorder.length_complete]
    exact durable.front.length_le
  have header := durable.opened
  have held := durable.held
  have bounded : j.recorder.ring.length ≤ rrLogRingSize := durable.bounded
  have size : sizeofEvent = 112 := rfl
  simp only [size] at count short held ⊢
  have few : n ≤ j.recorder.logged.length := by omega
  have whole : Reader.wholeRecords j.recorder.file =
      State.flushedLog startTime pid (j.process.log.take n) := by
    obtain ⟨rest, grown⟩ := kept.front
    rw [durable.records, size, ← count, ← grown, List.take_append_of_le_length few]
  refine ⟨n, Nat.le_trans few kept.front.length_le, whole, by omega, fun returned => ?_⟩
  have all := durable.whole.length returned
  obtain ⟨copies, copied⟩ := durable.copied
  simp only [size] at all copied
  refine ⟨?_, ?_, fun exited => ?_⟩
  · rw [← kept.mirrors returned]
    omega
  · rw [← whole, Reader.wholeRecords, List.take_of_length_le]
    simp only [size]
    omega
  · have empty := kept.closed returned exited
    rw [empty, List.length_nil] at all
    rw [← kept.mirrors returned]
    omega

section Runs

variable {program : Program} {stackSize : Nat} {signalFd : Int32} {opening : List WriteAnswer}
  {recorder : Recorder} {inputs : List (Input × List (List WriteAnswer))} {j : Journaled}

theorem kept_of_exec (initialised : Recorder.rrRecordInit startTime pid opening = some recorder)
    (benign : ∀ input ∈ inputs, ∀ answers ∈ input.2, ∀ answer ∈ answers, answer.Benign)
    (reached : exec (Journaled.step program) (start stackSize signalFd recorder) inputs = some j) :
    j.Kept startTime pid := by
  have steps : ∀ a input b, Journaled.step program a input = some b →
      (∀ answers ∈ input.2, ∀ answer ∈ answers, answer.Benign) →
      a.Kept startTime pid → b.Kept startTime pid :=
    fun _ _ _ taken benign kept => kept.step benign taken
  exact (along_of_inputs benign).invariant steps (kept_start stackSize signalFd initialised) reached

/-- Where no write of the log leaves anything in `errno`, the process takes the same steps as
without a recorder. -/
theorem process_of_exec {origin : Journaled}
    (silent : ∀ input ∈ inputs, ∀ answers ∈ input.2, ∀ answer ∈ answers, answer.errno = none)
    (reached : exec (Journaled.step program) origin inputs = some j) :
    exec (Librr.step program) origin.process (inputs.map Prod.fst) = some j.process := by
  induction inputs generalizing origin with
  | nil =>
      cases reached
      rfl
  | cons input rest ih =>
      obtain ⟨next, taken, onwards⟩ := exec_cons.mp reached
      unfold Journaled.step at taken
      split at taken
      · cases taken
      obtain ⟨t, moved, rfl⟩ := Option.map_eq_some_iff.mp taken
      have unset : origin.recorder.errnoLeft (origin.answered t input.2) = none :=
        Recorder.errnoLeft_silent _
          (Recorder.answering_all (silent input List.mem_cons_self) _)
      rw [unset] at onwards
      exact exec_cons.mpr ⟨t, moved,
        ih (fun later member => silent later (List.mem_cons_of_mem _ member)) onwards⟩

/-- However the log writes of a recording process are cut short or interrupted, as long as none
fails, and whenever it is killed, inside a `write` or not, the complete records in its file
are those of the first events it logged. What is missing fits into the ring, but for the
record that a write held up and the one it tore; after the return of `main`, or where
SIGINT or SIGTERM is read from the signalfd, nothing is missing. -/
theorem file_keeps_front_of_log (program : Program) (stackSize : Nat) (signalFd : Int32)
    (startTime : UInt64) (pid : UInt32) (opening : List WriteAnswer) (recorder : Recorder)
    (initialised : Recorder.rrRecordInit startTime pid opening = some recorder)
    (inputs : List (Input × List (List WriteAnswer)))
    (benign : ∀ input ∈ inputs, ∀ answers ∈ input.2, ∀ answer ∈ answers, answer.Benign)
    (j : Journaled)
    (reached : exec (Journaled.step program) (start stackSize signalFd recorder) inputs = some j) :
    ∃ n ≤ j.process.log.length,
      Reader.wholeRecords j.recorder.file =
        State.flushedLog startTime pid (j.process.log.take n) ∧
      sizeofEvent * j.recorder.logged.length < sizeofEvent * (n + 2) + rrLogRingSize ∧
      (j.recorder.writing = false →
        sizeofEvent * j.process.log.length ≤ sizeofEvent * n + rrLogRingSize ∧
        j.recorder.file = State.flushedLog startTime pid (j.process.log.take n) ∧
        (j.process.sched.control = .exited → n = j.process.log.length)) :=
  (kept_of_exec initialised benign reached).records

end Runs

/-- A uthread that asks for its process id and returns. -/
def askPid : Program
  | _, [] => .call .getpid
  | _, _ => .ret

/-- The flush at the end is cut inside the second record. -/
theorem askPid_file_keeps_front :
    ∃ recorder j, Recorder.rrRecordInit 0 7 [.accepted 24] = some recorder ∧
      exec (Journaled.step askPid) (start 8192 5 recorder)
        [(.act .calm, []), (.act .calm, [[.interrupted, .accepted 150]])] = some j ∧
      j.recorder.file.length = 174 ∧
      ∃ n ≤ j.process.log.length,
        Reader.wholeRecords j.recorder.file = State.flushedLog 0 7 (j.process.log.take n) ∧
        sizeofEvent * j.recorder.logged.length < sizeofEvent * (n + 2) + rrLogRingSize ∧
        (j.recorder.writing = false →
          sizeofEvent * j.process.log.length ≤ sizeofEvent * n + rrLogRingSize ∧
          j.recorder.file = State.flushedLog 0 7 (j.process.log.take n) ∧
          (j.process.sched.control = .exited → n = j.process.log.length)) := by
  have header : Recorder.rrRecordInit 0 7 [.accepted 24] =
      some ⟨(Header.recorded 0 7).encode, [], 0, false, []⟩ := by decide +kernel
  have ran : (exec (Journaled.step askPid)
      (start 8192 5 ⟨(Header.recorded 0 7).encode, [], 0, false, []⟩)
      [(.act .calm, []), (.act .calm, [[.interrupted, .accepted 150]])]).map
        (fun j => j.recorder.file.length) = some 174 := by
    decide +kernel
  obtain ⟨j, reached, size⟩ := Option.map_eq_some_iff.mp ran
  exact ⟨_, j, header, reached, size, file_keeps_front_of_log askPid 8192 5 0 7 [.accepted 24] _
    header _ (by simp [WriteAnswer.Benign]) j reached⟩

end Journaled

end Librr
