import Librr.ReadLoop
import Librr.Recorder
import Librr.Requests

set_option autoImplicit false

namespace Librr

open Transition

/-- A short write or an interruption. -/
def WriteAnswer.Benign : WriteAnswer → Prop
  | .interrupted => True
  | .failed _ => False
  | .accepted count => 0 < count

instance : DecidablePred WriteAnswer.Benign
  | .interrupted => isTrue trivial
  | .failed _ => isFalse id
  | .accepted count => inferInstanceAs (Decidable (0 < count))

def WriteAnswer.takes : WriteAnswer → Bool
  | .accepted _ => true
  | _ => false

/-- However the writes are cut, everything is written once `rr_write_direct` returns, and
it returns if bytes are taken often enough. -/
theorem rrWriteDirect_benign {answers : List WriteAnswer}
    (benign : ∀ answer ∈ answers, answer.Benign) (file buf : Bytes) :
    ((rrWriteDirect file buf answers).2.1 = .inside ∧
        answers.countP WriteAnswer.takes < buf.length) ∨
      (rrWriteDirect file buf answers).1 = file ++ buf ∧
        (rrWriteDirect file buf answers).2.1 = .done := by
  induction answers generalizing file buf with
  | nil =>
      by_cases empty : buf = []
      · exact .inr (by simp [rrWriteDirect, empty])
      · exact .inl ⟨by simp [rrWriteDirect, empty], by simpa using List.length_pos_iff.mpr empty⟩
  | cons answer rest ih =>
      have later := fun other member => benign other (List.mem_cons_of_mem answer member)
      by_cases empty : buf = []
      · exact .inr (by simp [rrWriteDirect, empty])
      cases answer with
      | interrupted =>
          simp only [rrWriteDirect, if_neg empty]
          rw [List.countP_cons_of_neg (by simp [WriteAnswer.takes])]
          exact ih later file buf
      | failed errno => exact absurd (benign (.failed errno) List.mem_cons_self) id
      | accepted count =>
          have positive : 0 < count := benign (.accepted count) List.mem_cons_self
          have some : 0 < buf.length := List.length_pos_iff.mpr empty
          have progress : ¬ min count buf.length = 0 := by omega
          rw [List.countP_cons_of_pos (by simp [WriteAnswer.takes])]
          simp only [rrWriteDirect, if_neg empty, if_neg progress]
          rcases ih later (file ++ buf.take count) (buf.drop count) with ⟨inside, few⟩ | written
          · rw [List.length_drop] at few
            exact .inl ⟨inside, by omega⟩
          · rw [List.append_assoc, List.take_append_drop] at written
            exact .inr written

namespace Recorder

/-- The events that the calls log. -/
def entries (calls : List (RecorderCall × List WriteAnswer)) : List (UInt64 × Payload) :=
  calls.filterMap fun call =>
    match call.1 with
    | .log uthreadId payload => some (uthreadId, payload)
    | .flush => none

/-- Everything logged is in the file or in the ring, unless a write is going on. -/
def Whole (startTime : UInt64) (pid : UInt32) (r : Recorder) : Prop :=
  r.writing = false → r.file ++ r.ring = r.complete startTime pid

/-- The ring is within its 4 MiB. -/
def Bounded (r : Recorder) : Prop := r.ring.length ≤ rrLogRingSize

variable {startTime : UInt64} {pid : UInt32}

/-- With cut writes a flush is still going on, or it has emptied the ring. -/
theorem rrRecordFlush_benign {answers : List WriteAnswer}
    (benign : ∀ answer ∈ answers, answer.Benign) (r : Recorder) :
    ((r.rrRecordFlush answers).1.writing = true ∧
        answers.countP WriteAnswer.takes < r.ring.length) ∨
      (r.rrRecordFlush answers).1 = { r with file := r.file ++ r.ring, ring := [] } := by
  by_cases empty : r.ring = []
  · refine .inr ?_
    rw [rrRecordFlush, if_pos empty, empty, List.append_nil, ← empty]
  · unfold rrRecordFlush
    rw [if_neg empty]
    rcases rrWriteDirect_benign benign r.file r.ring with ⟨inside, few⟩ | ⟨file, done⟩
    · refine .inl ⟨?_, few⟩
      split <;> simp_all
    · refine .inr ?_
      split <;> simp_all

theorem Bounded.flush {r : Recorder} (bounded : r.Bounded) (answers : List WriteAnswer) :
    (r.rrRecordFlush answers).1.Bounded := by
  obtain ⟨written, remaining, _, _, inside | emptied⟩ := r.rrRecordFlush_cases answers
  · rw [inside]
    exact bounded
  · rw [emptied]
    exact Nat.zero_le _

/-- Before the copy there is room for one record. -/
theorem Bounded.madeRoom {r : Recorder} (bounded : r.Bounded) (answers : List WriteAnswer) :
    (r.madeRoom answers).Bounded ∧ ((r.madeRoom answers).writing = false →
      (r.madeRoom answers).ring.length + sizeofEvent ≤ rrLogRingSize) := by
  have small : sizeofEvent ≤ rrLogRingSize := by decide
  by_cases full : r.ring.length + sizeofEvent > rrLogRingSize
  · rw [Recorder.madeRoom, if_pos full]
    refine ⟨bounded.flush answers, fun outside => ?_⟩
    obtain ⟨written, remaining, _, _, inside | emptied⟩ := r.rrRecordFlush_cases answers
    · rw [inside] at outside
      cases outside
    · rw [emptied, List.length_nil]
      omega
  · rw [Recorder.madeRoom, if_neg full]
    exact ⟨bounded, fun _ => by omega⟩

/-- Every copy into the ring is within its bounds, whatever the writes do. -/
theorem Bounded.step {r next : Recorder} (bounded : r.Bounded) {call : RecorderCall}
    {answers : List WriteAnswer} (taken : r.step (call, answers) = some next) : next.Bounded := by
  obtain ⟨_, ⟨_, flushed⟩ | ⟨uthreadId, payload, _, appended⟩⟩ := step_cases taken
  · rw [flushed]
    exact bounded.flush answers
  · obtain ⟨kept, room⟩ := bounded.madeRoom answers
    rw [appended, rrRecordAppend_event, madeRoom_logged]
    cases writing : (r.madeRoom answers).writing with
    | true =>
        simp only [writing, if_true]
        exact kept
    | false =>
        simp only [writing, Bool.false_eq_true, if_false]
        show ((r.madeRoom answers).ring ++ _).length ≤ rrLogRingSize
        rw [List.length_append, Event.length_encode]
        exact room writing

theorem Whole.flush {r : Recorder} (whole : r.Whole startTime pid) (outside : r.writing = false)
    {answers : List WriteAnswer} (benign : ∀ answer ∈ answers, answer.Benign) :
    (r.rrRecordFlush answers).1.Whole startTime pid := by
  rcases rrRecordFlush_benign benign r with ⟨inside, _⟩ | emptied
  · intro not
    rw [inside] at not
    cases not
  · rw [emptied]
    intro _
    rw [List.append_nil]
    exact whole outside

theorem Whole.madeRoom {r : Recorder} (whole : r.Whole startTime pid) (outside : r.writing = false)
    {answers : List WriteAnswer} (benign : ∀ answer ∈ answers, answer.Benign) :
    (r.madeRoom answers).Whole startTime pid := by
  by_cases full : r.ring.length + sizeofEvent > rrLogRingSize
  · rw [Recorder.madeRoom, if_pos full]
    exact whole.flush outside benign
  · rw [Recorder.madeRoom, if_neg full]
    exact whole

theorem Whole.step {r next : Recorder} (whole : r.Whole startTime pid) {call : RecorderCall}
    {answers : List WriteAnswer} (benign : ∀ answer ∈ answers, answer.Benign)
    (taken : r.step (call, answers) = some next) : next.Whole startTime pid := by
  obtain ⟨outside, ⟨_, flushed⟩ | ⟨uthreadId, payload, _, appended⟩⟩ := step_cases taken
  · rw [flushed]
    exact whole.flush outside benign
  · have room := whole.madeRoom outside benign
    have kept := (r.madeRoom_kept answers).2
    rw [appended, rrRecordAppend_event, madeRoom_logged, ← kept]
    cases writing : (r.madeRoom answers).writing with
    | true =>
        simp only [writing, if_true]
        intro not
        cases not
    | false =>
        simp only [writing, Bool.false_eq_true, if_false]
        intro _
        have grown := complete_snoc startTime pid (r.madeRoom answers)
          (r.nextEvent uthreadId payload) (r.nextEvent uthreadId payload).seq
        rw [← room writing, List.append_assoc] at grown
        exact grown.symm

/-- A call that is given enough writes returns. -/
theorem step_returns {r : Recorder} (bounded : r.Bounded) (outside : r.writing = false)
    (call : RecorderCall) {answers : List WriteAnswer}
    (benign : ∀ answer ∈ answers, answer.Benign)
    (enough : rrLogRingSize ≤ answers.countP WriteAnswer.takes) :
    ∃ next, r.step (call, answers) = some next ∧ next.writing = false := by
  have flushed : (r.rrRecordFlush answers).1.writing = false := by
    rcases rrRecordFlush_benign benign r with ⟨_, few⟩ | emptied
    · exact absurd few (Nat.not_lt.mpr (Nat.le_trans bounded enough))
    · rw [emptied]
      exact outside
  have room : (r.madeRoom answers).writing = false := by
    by_cases full : r.ring.length + sizeofEvent > rrLogRingSize
    · rw [Recorder.madeRoom, if_pos full]
      exact flushed
    · rw [Recorder.madeRoom, if_neg full]
      exact outside
  cases call with
  | flush => exact ⟨(r.rrRecordFlush answers).1, by simp [Recorder.step, outside], flushed⟩
  | log uthreadId payload =>
      have taken : r.step (.log uthreadId payload, answers) = some ({ r with
          seq := (r.nextEvent uthreadId payload).seq
          logged := r.logged ++ [r.nextEvent uthreadId payload] }.rrRecordAppend
            (r.nextEvent uthreadId payload).encode answers).1 := by
        simp only [Recorder.step, outside, Bool.false_eq_true, if_false]
      refine ⟨_, taken, ?_⟩
      rw [rrRecordAppend_event, madeRoom_logged]
      simp only [room, Bool.false_eq_true, if_false]

theorem rrRecordAppend_kept (r : Recorder) (event : Event) (answers : List WriteAnswer) :
    (r.rrRecordAppend event.encode answers).1.seq = r.seq ∧
      (r.rrRecordAppend event.encode answers).1.logged = r.logged := by
  have room := r.madeRoom_kept answers
  rw [rrRecordAppend_event]
  split
  · exact room
  · exact room

/-- The recorder numbers and orders what it logs as the runtime's log does. -/
theorem mirrors_of_exec {calls : List (RecorderCall × List WriteAnswer)} {start r : Recorder}
    {s : State} (reached : exec Recorder.step start calls = some r)
    (same : start.logged = s.log ∧ start.seq = s.seq) :
    r.logged = ((entries calls).foldl (fun s entry => s.appendEvent entry.1 entry.2) s).log := by
  induction calls generalizing start s with
  | nil =>
      cases reached
      exact same.1
  | cons input rest ih =>
      obtain ⟨call, answers⟩ := input
      obtain ⟨next, taken, onwards⟩ := exec_cons.mp reached
      obtain ⟨_, ⟨rfl, flushed⟩ | ⟨uthreadId, payload, rfl, appended⟩⟩ := step_cases taken
      · refine ih onwards ?_
        rw [flushed]
        obtain ⟨seq, logged⟩ := start.rrRecordFlush_kept answers
        exact ⟨logged.trans same.1, seq.trans same.2⟩
      · refine @ih next (s.appendEvent uthreadId payload) onwards ?_
        obtain ⟨seq, logged⟩ := { start with
          seq := (start.nextEvent uthreadId payload).seq
          logged := start.logged ++ [start.nextEvent uthreadId payload] }.rrRecordAppend_kept
            (start.nextEvent uthreadId payload) answers
        rw [appended, seq, logged, nextEvent, same.1, same.2]
        exact ⟨rfl, rfl⟩

/-- With enough writes for each of its calls, a run comes to its end. -/
theorem exec_returns {calls : List (RecorderCall × List WriteAnswer)} {start : Recorder}
    (bounded : start.Bounded) (outside : start.writing = false)
    (benign : ∀ input ∈ calls, ∀ answer ∈ input.2, answer.Benign)
    (enough : ∀ input ∈ calls, rrLogRingSize ≤ input.2.countP WriteAnswer.takes) :
    ∃ r, exec Recorder.step start calls = some r ∧ r.writing = false := by
  induction calls generalizing start with
  | nil => exact ⟨start, rfl, outside⟩
  | cons input rest ih =>
      obtain ⟨call, answers⟩ := input
      obtain ⟨next, taken, returned⟩ := step_returns bounded outside call
        (benign _ List.mem_cons_self) (enough _ List.mem_cons_self)
      obtain ⟨r, reached, done⟩ := ih (bounded.step taken) returned
        (fun other member => benign other (List.mem_cons_of_mem _ member))
        (fun other member => enough other (List.mem_cons_of_mem _ member))
      exact ⟨r, exec_cons.mpr ⟨next, taken, reached⟩, done⟩

end Recorder

theorem Reader.consecutive_of_numbered {events : List Event} {k : Nat}
    (numbered : ∀ i event, events[i]? = some event → event.seq = UInt64.ofNat (k + i)) :
    Consecutive (UInt64.ofNat k) events := by
  induction events generalizing k with
  | nil => trivial
  | cons event rest ih =>
      refine ⟨numbered 0 event rfl, ?_⟩
      have next : UInt64.ofNat k + 1 = UInt64.ofNat (k + 1) := by
        rw [UInt64.ofNat_add]
        rfl
      rw [next]
      refine ih fun i other found => ?_
      rw [numbered (i + 1) other found]
      congr 1
      omega

theorem foldl_appendEvent_entries (entries : List (UInt64 × Payload)) (s : State) :
    (entries.foldl (fun s entry => s.appendEvent entry.1 entry.2) s).log.map
        (fun event => (event.uthreadId, event.payload)) =
      s.log.map (fun event => (event.uthreadId, event.payload)) ++ entries := by
  induction entries generalizing s with
  | nil => rw [List.foldl_nil, List.append_nil]
  | cons entry rest ih =>
      rw [List.foldl_cons, ih, State.appendEvent, List.map_append, List.append_assoc]
      rfl

theorem Reader.rrReplayInit_cut (startTime : UInt64) (pid : UInt32) (events : List Event)
    {cut : Nat} (behind : sizeofHeader ≤ cut) :
    rrReplayInit (some ((State.flushedLog startTime pid events).take cut)) =
      some ⟨true, true, (events.flatMap Event.encode).take (cut - sizeofHeader), 1⟩ := by
  have size := Header.length_encode (.recorded startTime pid)
  have kept : (State.flushedLog startTime pid events).take cut =
      (Header.recorded startTime pid).encode ++
        (events.flatMap Event.encode).take (cut - sizeofHeader) := by
    rw [State.flushedLog, List.take_append, List.take_of_length_le (by omega), size]
  rw [kept, rrReplayInit, Option.bind_some, rrReadFull_append size, acceptHeader,
    Header.decode_encode]
  simp [Header.recorded]

/-- However its bytes are handed out, the file opens, and it gives these events and after
them no data. -/
def Reader.ReadsBack (file : Bytes) (events : List Event) : Prop :=
  ∀ opening : List ReadAnswer, (∀ answer ∈ opening, answer.Benign) →
    (rrReplayInitWith file opening = none →
      opening.countP ReadAnswer.gives < sizeofHeader) ∧
    ∀ opened, rrReplayInitWith file opening = some opened →
      ∃ reader, opened = some reader ∧
        ∀ patterns : List (List ReadAnswer),
          (∀ answers ∈ patterns, ∀ answer ∈ answers, answer.Benign) →
          (reader.nextEventsWith patterns = none →
            ∃ answers ∈ patterns, answers.countP ReadAnswer.gives < sizeofEvent) ∧
          ∀ results, reader.nextEventsWith patterns = some results →
            results = (events.map Except.ok ++
              List.replicate patterns.length (Except.error Errno.ENODATA)).take patterns.length

/-- Wherever the file of a numbered log is cut behind the header. -/
theorem Reader.readsBack_cut (startTime : UInt64) (pid : UInt32) {events : List Event}
    (numbered : Consecutive 1 events) {cut : Nat} (behind : sizeofHeader ≤ cut) :
    ReadsBack ((State.flushedLog startTime pid events).take cut)
      (events.take ((cut - sizeofHeader) / sizeofEvent)) := by
  intro opening benign
  have init := rrReplayInit_cut startTime pid events behind
  rcases rrReplayInitWith_benign benign ((State.flushedLog startTime pid events).take cut) with
    ⟨none, few⟩ | same
  · refine ⟨fun _ => few, fun opened returned => ?_⟩
    rw [none] at returned
    cases returned
  rw [init] at same
  refine ⟨fun none => (by rw [same] at none; cases none), fun opened returned => ?_⟩
  obtain rfl := Option.some.inj (same.symm.trans returned)
  refine ⟨_, rfl, fun patterns benign => ?_⟩
  rcases nextEventsWith_benign benign
      ⟨true, true, (events.flatMap Event.encode).take (cut - sizeofHeader), 1⟩ with
    ⟨none, few⟩ | all
  · refine ⟨fun _ => few, fun results returned => ?_⟩
    rw [none] at returned
    cases returned
  · refine ⟨fun none => (by rw [all] at none; cases none), fun results returned => ?_⟩
    rw [← Option.some.inj (all.symm.trans returned)]
    exact nextEvents_cut events 1 numbered (cut - sizeofHeader) patterns.length

namespace Recorder

/-- `rr_record_init` returns if the header is taken often enough. -/
theorem rrRecordInit_benign (startTime : UInt64) (pid : UInt32) {answers : List WriteAnswer}
    (benign : ∀ answer ∈ answers, answer.Benign)
    (enough : sizeofHeader ≤ answers.countP WriteAnswer.takes) :
    ∃ start, rrRecordInit startTime pid answers = some start := by
  have size := Header.length_encode (.recorded startTime pid)
  have written := rrWriteDirect_benign benign [] (Header.recorded startTime pid).encode
  rcases answered : rrWriteDirect [] (Header.recorded startTime pid).encode answers with
    ⟨file, status, rest⟩
  rw [answered] at written
  rcases written with ⟨_, few⟩ | ⟨_, rfl⟩
  · omega
  · exact ⟨⟨file, [], 0, false, []⟩, by rw [rrRecordInit, answered]⟩

theorem whole_of_init {answers : List WriteAnswer} {start : Recorder} {startTime : UInt64}
    {pid : UInt32} (initialised : rrRecordInit startTime pid answers = some start) :
    start.Whole startTime pid := by
  rw [rrRecordInit_some initialised]
  intro _
  rw [complete, State.flushedLog, List.flatMap_nil]

/-- A run that ends with a flush leaves everything it logged in the file. -/
theorem file_of_exec {calls : List (RecorderCall × List WriteAnswer)}
    {opening closing : List WriteAnswer} {start r : Recorder} {startTime : UInt64} {pid : UInt32}
    (initialised : rrRecordInit startTime pid opening = some start)
    (benign : ∀ input ∈ calls ++ [(.flush, closing)], ∀ answer ∈ input.2, answer.Benign)
    (reached : exec Recorder.step start (calls ++ [(.flush, closing)]) = some r)
    (returned : r.writing = false) :
    r.file = State.flushedLog startTime pid (recordedLog (entries calls)) := by
  have kept : ∀ s input t, Recorder.step s input = some t →
      (∀ answer ∈ input.2, answer.Benign) → s.Whole startTime pid → t.Whole startTime pid :=
    fun s _ t taken quiet whole => whole.step quiet taken
  have whole : r.Whole startTime pid :=
    (along_of_inputs benign).invariant kept (whole_of_init initialised) reached
  obtain ⟨middle, before, _⟩ := exec_append.mp reached
  have taken := exec_after before reached
  have emptied : r.ring = [] := by
    obtain ⟨_, ⟨_, flushed⟩ | ⟨_, _, other, _⟩⟩ := step_cases taken
    · rcases rrRecordFlush_benign (benign (.flush, closing) (by simp)) middle with
        ⟨inside, _⟩ | emptied
      · rw [flushed, inside] at returned
        cases returned
      · rw [flushed, emptied]
    · cases other
  have logged : r.logged = recordedLog (entries (calls ++ [(.flush, closing)])) :=
    mirrors_of_exec reached (by rw [rrRecordInit_some initialised]; exact ⟨rfl, rfl⟩)
  have same : entries (calls ++ [(.flush, closing)]) = entries calls := by simp [entries]
  rw [← same, ← logged]
  have all := whole returned
  rw [emptied, List.append_nil] at all
  exact all

/-- Whatever is logged, however the writes are cut and wherever flushes are made, the ring
stays within its bounds, and after `rr_record_shutdown` the file is the header and the
records of the events in order. Cut anywhere behind the header and read in any pieces, it
gives back the events whose records are complete. -/
theorem log_round_trip (startTime : UInt64) (pid : UInt32) (opening : List WriteAnswer)
    (calls : List (RecorderCall × List WriteAnswer)) (closing : List WriteAnswer)
    (opened : ∀ answer ∈ opening, answer.Benign)
    (benign : ∀ input ∈ calls ++ [(.flush, closing)], ∀ answer ∈ input.2, answer.Benign) :
    (sizeofHeader ≤ opening.countP WriteAnswer.takes →
      ∃ start, rrRecordInit startTime pid opening = some start) ∧
    ∀ start, rrRecordInit startTime pid opening = some start →
      ((∀ input ∈ calls ++ [(.flush, closing)],
          rrLogRingSize ≤ input.2.countP WriteAnswer.takes) →
        ∃ r, exec Recorder.step start (calls ++ [(.flush, closing)]) = some r ∧
          r.writing = false) ∧
      Along Recorder.step (fun s _ t => s.Bounded ∧ t.Bounded) start
        (calls ++ [(.flush, closing)]) ∧
      ∀ r, exec Recorder.step start (calls ++ [(.flush, closing)]) = some r →
        r.writing = false →
        ∃ events, Stamped events ∧
          events.map (fun event => (event.uthreadId, event.payload)) = entries calls ∧
          r.file = State.flushedLog startTime pid events ∧
          ∀ cut, sizeofHeader ≤ cut →
            Reader.ReadsBack (r.file.take cut)
              (events.take ((cut - sizeofHeader) / sizeofEvent)) := by
  refine ⟨rrRecordInit_benign startTime pid opened, fun start initialised => ?_⟩
  have shape := rrRecordInit_some initialised
  have bounded : start.Bounded := by
    rw [shape]
    exact Nat.zero_le _
  have outside : start.writing = false := by rw [shape]
  refine ⟨exec_returns bounded outside benign, ?_, fun r reached returned => ?_⟩
  · have kept : ∀ s input t, Recorder.step s input = some t → True → s.Bounded → t.Bounded :=
      fun _ _ _ taken _ bounded => bounded.step taken
    have always : Along Recorder.step (fun _ _ _ => True) start (calls ++ [(.flush, closing)]) :=
      along_of_forall (fun _ _ _ _ => trivial) start _
    exact (always.strengthen kept bounded).mono fun _ _ _ holds => holds.2
  · have stamped := recordedLog_stamped (entries calls)
    have numbered : Reader.Consecutive 1 (recordedLog (entries calls)) :=
      Reader.consecutive_of_numbered fun i event found => by
        rw [stamped i event found, Nat.add_comm]
    have file := file_of_exec initialised benign reached returned
    refine ⟨recordedLog (entries calls), stamped, ?_, file, fun cut behind => ?_⟩
    · exact foldl_appendEvent_entries (entries calls) _
    · rw [file]
      exact Reader.readsBack_cut startTime pid numbered behind

/-- Two events, with a flush cut short between them. -/
theorem flushed_between_round_trip :
    ∃ start r, rrRecordInit 0 7 [.interrupted, .accepted 20, .accepted 24] = some start ∧
      exec Recorder.step start ([(.log 1 (.sched 0 1), []),
        (.flush, [.accepted 100, .interrupted, .accepted 12]), (.log 1 (.signal 10 1), [])] ++
          [(.flush, [.accepted 200])]) = some r ∧ r.writing = false ∧
      ∃ events, Stamped events ∧
        events.map (fun event => (event.uthreadId, event.payload)) =
          [(1, .sched 0 1), (1, .signal 10 1)] ∧
        ∀ cut, sizeofHeader ≤ cut →
          Reader.ReadsBack (r.file.take cut)
            (events.take ((cut - sizeofHeader) / sizeofEvent)) := by
  obtain ⟨start, initialised⟩ : ∃ start,
      rrRecordInit 0 7 [.interrupted, .accepted 20, .accepted 24] = some start := ⟨_, rfl⟩
  have ends : (exec Recorder.step ⟨(Header.recorded 0 7).encode, [], 0, false, []⟩
      ([(.log 1 (.sched 0 1), []), (.flush, [.accepted 100, .interrupted, .accepted 12]),
        (.log 1 (.signal 10 1), [])] ++ [(.flush, [.accepted 200])])).map Recorder.writing =
      some false := by decide +kernel
  rw [← rrRecordInit_some initialised] at ends
  obtain ⟨r, reached, returned⟩ := Option.map_eq_some_iff.mp ends
  obtain ⟨_, run⟩ := log_round_trip 0 7 [.interrupted, .accepted 20, .accepted 24]
    [(.log 1 (.sched 0 1), []), (.flush, [.accepted 100, .interrupted, .accepted 12]),
      (.log 1 (.signal 10 1), [])] [.accepted 200] (by decide) (by decide)
  obtain ⟨_, _, whole⟩ := run start initialised
  obtain ⟨events, stamped, entered, _, cuts⟩ := whole r reached returned
  exact ⟨start, r, initialised, reached, returned, events, stamped, entered, cuts⟩

end Recorder

end Librr
