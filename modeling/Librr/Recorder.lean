import Librr.Base.Transition
import Librr.Requests

set_option autoImplicit false

namespace Librr

open Transition

/-- What one `write` on the log does: it is interrupted, it fails with another `errno`, or
it takes up to `count` of the bytes offered. -/
inductive WriteAnswer where
  | interrupted
  | failed (errno : Int32)
  | accepted (count : Nat)
  deriving DecidableEq, Repr

/-- The code a `write` leaves in `errno`. One that takes something, or nothing at all, leaves
it alone. -/
def WriteAnswer.errno : WriteAnswer → Option Int32
  | .interrupted => some Errno.EINTR
  | .failed errno => some errno
  | .accepted _ => none

/-- How far `rr_write_direct` has come when the answers given to it end. -/
inductive WriteStatus where
  | done
  | failed
  | inside
  deriving DecidableEq, Repr

/-- The loop of `rr_write_direct` over the part of the buffer that is not written yet. -/
def rrWriteDirect (file buf : Bytes) : List WriteAnswer → Bytes × WriteStatus × List WriteAnswer
  | [] => if buf = [] then (file, .done, []) else (file, .inside, [])
  | answer :: rest =>
    if buf = [] then (file, .done, answer :: rest)
    else
      match answer with
      | .interrupted => rrWriteDirect file buf rest
      | .failed _ => (file, .failed, rest)
      | .accepted count =>
        if min count buf.length = 0 then (file, .failed, rest)
        else rrWriteDirect (file ++ buf.take count) (buf.drop count) rest

/-- The log file and the static variables of `record.c`, with the events logged so far.
`ring` is the used part of `g_ring`; `writing` says that the current call has not come
back from `write`. -/
structure Recorder where
  file : Bytes
  ring : Bytes
  seq : UInt64
  writing : Bool
  logged : List Event
  deriving DecidableEq, Repr

/-- A call into the recorder while it is active. -/
inductive RecorderCall where
  | log (uthreadId : UInt64) (payload : Payload)
  | flush
  deriving DecidableEq, Repr

namespace Recorder

def rrRecordFlush (r : Recorder) (answers : List WriteAnswer) : Recorder × List WriteAnswer :=
  if r.ring = [] then (r, answers)
  else
    match rrWriteDirect r.file r.ring answers with
    | (file, .inside, rest) => ({ r with file := file, writing := true }, rest)
    -- The buffer is given up whether or not all of it was written.
    | (file, _, rest) => ({ r with file := file, ring := [] }, rest)

def rrRecordAppend (r : Recorder) (entry : Bytes) (answers : List WriteAnswer) :
    Recorder × List WriteAnswer :=
  if entry.length > rrLogRingSize then
    let flushed := r.rrRecordFlush answers
    if flushed.1.writing then flushed
    else
      match rrWriteDirect flushed.1.file entry flushed.2 with
      | (file, .inside, rest) => ({ flushed.1 with file := file, writing := true }, rest)
      | (file, _, rest) => ({ flushed.1 with file := file }, rest)
  else
    let ready :=
      if r.ring.length + entry.length > rrLogRingSize then r.rrRecordFlush answers
      else (r, answers)
    if ready.1.writing then ready
    else ({ ready.1 with ring := ready.1.ring ++ entry }, ready.2)

/-- The event that the next `rr_log_*` call builds. -/
def nextEvent (r : Recorder) (uthreadId : UInt64) (payload : Payload) : Event :=
  ⟨r.seq + 1, uthreadId, payload⟩

/-- One call, with what `write` does during it. Nothing is called before it returns. -/
def step (r : Recorder) : RecorderCall × List WriteAnswer → Option Recorder
  | (call, answers) =>
    if r.writing then none
    else
      match call with
      | .flush => some (r.rrRecordFlush answers).1
      | .log uthreadId payload =>
        let event := r.nextEvent uthreadId payload
        some ({ r with seq := event.seq, logged := r.logged ++ [event] }.rrRecordAppend
          event.encode answers).1

/-- `rr_record_init` once the ring is mapped and the file is open. -/
def rrRecordInit (startTime : UInt64) (pid : UInt32) (answers : List WriteAnswer) :
    Option Recorder :=
  match rrWriteDirect [] (Header.recorded startTime pid).encode answers with
  | (file, .done, _) => some ⟨file, [], 0, false, []⟩
  | _ => none

/-- The header and the records of everything logged so far. -/
def complete (startTime : UInt64) (pid : UInt32) (r : Recorder) : Bytes :=
  State.flushedLog startTime pid r.logged

/-- Bytes of records are neither in the file nor in the ring. -/
def Dropped (r : Recorder) : Prop :=
  r.file.length + r.ring.length < sizeofHeader + sizeofEvent * r.logged.length

instance (r : Recorder) : Decidable r.Dropped :=
  inferInstanceAs (Decidable (_ < _))

end Recorder

/-- No byte is taken. -/
def WriteAnswer.Idle : WriteAnswer → Prop
  | .interrupted => True
  | .failed _ => True
  | .accepted count => count = 0

instance : DecidablePred WriteAnswer.Idle
  | .interrupted => isTrue trivial
  | .failed _ => isTrue trivial
  | .accepted count => inferInstanceAs (Decidable (count = 0))

/-- What `rr_write_direct` leaves behind: a front of the buffer is added to the file,
all of it exactly if it returns 0, nothing of it if no answer takes a byte. -/
theorem rrWriteDirect_cases (answers : List WriteAnswer) (file buf : Bytes) :
    ∃ written remaining status rest,
      rrWriteDirect file buf answers = (file ++ written, status, rest) ∧
      written ++ remaining = buf ∧ (remaining = [] ↔ status = .done) ∧
      ((∀ answer ∈ answers, answer.Idle) → written = []) := by
  induction answers generalizing file buf with
  | nil =>
      by_cases empty : buf = []
      · exact ⟨[], [], .done, [], by simp [rrWriteDirect, empty], by simp [empty], by simp,
          by simp⟩
      · exact ⟨[], buf, .inside, [], by simp [rrWriteDirect, empty], by simp, by simp [empty],
          by simp⟩
  | cons answer rest ih =>
      by_cases empty : buf = []
      · exact ⟨[], [], .done, answer :: rest, by simp [rrWriteDirect, empty], by simp [empty],
          by simp, by simp⟩
      cases answer with
      | interrupted =>
          obtain ⟨written, remaining, status, left, eq, split, full, idle⟩ := ih file buf
          refine ⟨written, remaining, status, left, by simpa [rrWriteDirect, empty] using eq,
            split, full, ?_⟩
          intro all
          exact idle fun later member => all later (List.mem_cons_of_mem _ member)
      | failed errno =>
          exact ⟨[], buf, .failed, rest, by simp [rrWriteDirect, empty], by simp, by simp [empty],
            by simp⟩
      | accepted count =>
          by_cases nothing : min count buf.length = 0
          · exact ⟨[], buf, .failed, rest, by simp [rrWriteDirect, empty, nothing], by simp,
              by simp [empty], by simp⟩
          · obtain ⟨written, remaining, status, left, eq, split, full, idle⟩ :=
              ih (file ++ buf.take count) (buf.drop count)
            refine ⟨buf.take count ++ written, remaining, status, left, ?_, ?_, full, ?_⟩
            · rw [rrWriteDirect, if_neg empty]
              simp only [if_neg nothing]
              rw [eq, List.append_assoc]
            · rw [List.append_assoc, split, List.take_append_drop]
            · intro all
              have zero : count = 0 := all (.accepted count) List.mem_cons_self
              omega

namespace Recorder

variable {startTime : UInt64} {pid : UInt32}

theorem length_complete (r : Recorder) :
    (r.complete startTime pid).length = sizeofHeader + sizeofEvent * r.logged.length := by
  simp [complete, State.flushedLog, List.length_flatMap, Nat.mul_comm]

/-- The file is a front of the complete log, and unless bytes have been dropped the ring
holds the rest of it. -/
structure Contiguous (startTime : UInt64) (pid : UInt32) (r : Recorder) : Prop where
  front : r.file <+: r.complete startTime pid
  whole : r.writing = false → ¬ r.Dropped → r.file ++ r.ring = r.complete startTime pid

/-- Nothing is written any more once bytes have been dropped. -/
def Silent (r : Recorder) (answers : List WriteAnswer) : Prop :=
  r.Dropped → ∀ answer ∈ answers, answer.Idle

instance (r : Recorder) (answers : List WriteAnswer) : Decidable (r.Silent answers) :=
  inferInstanceAs (Decidable (_ → _))

theorem rrRecordFlush_logged (r : Recorder) (answers : List WriteAnswer) (seq : UInt64)
    (logged : List Event) :
    { r with seq := seq, logged := logged }.rrRecordFlush answers =
      ({ (r.rrRecordFlush answers).1 with seq := seq, logged := logged },
        (r.rrRecordFlush answers).2) := by
  simp only [rrRecordFlush]
  by_cases empty : r.ring = []
  · simp only [if_pos empty]
  · simp only [if_neg empty]
    rcases rrWriteDirect r.file r.ring answers with ⟨file, status, rest⟩
    cases status <;> rfl

/-- The three ways a flush ends. -/
theorem rrRecordFlush_cases (r : Recorder) (answers : List WriteAnswer) :
    ∃ written remaining, written ++ remaining = r.ring ∧
      ((∀ answer ∈ answers, answer.Idle) → written = []) ∧
      ((r.rrRecordFlush answers).1 = { r with file := r.file ++ written, writing := true } ∨
        (r.rrRecordFlush answers).1 = { r with file := r.file ++ written, ring := [] }) := by
  by_cases empty : r.ring = []
  · refine ⟨[], [], by simp [empty], by simp, .inr ?_⟩
    rw [rrRecordFlush, if_pos empty, List.append_nil, ← empty]
  · obtain ⟨written, remaining, status, rest, eq, split, _, idle⟩ :=
      rrWriteDirect_cases answers r.file r.ring
    refine ⟨written, remaining, split, idle, ?_⟩
    rw [rrRecordFlush, if_neg empty, eq]
    cases status with
    | inside => exact .inl rfl
    | done => exact .inr rfl
    | failed => exact .inr rfl

theorem Contiguous.flush {r : Recorder} (contiguous : r.Contiguous startTime pid)
    (outside : r.writing = false) {answers : List WriteAnswer} (silent : r.Silent answers) :
    (r.rrRecordFlush answers).1.Contiguous startTime pid := by
  obtain ⟨written, remaining, split, idle, ends⟩ := r.rrRecordFlush_cases answers
  have front : r.file ++ written <+: r.complete startTime pid := by
    by_cases dropped : r.Dropped
    · rw [idle (silent dropped), List.append_nil]
      exact contiguous.front
    · rw [← contiguous.whole outside dropped, ← split, ← List.append_assoc]
      exact List.prefix_append _ _
  rcases ends with inside | emptied
  · rw [inside]
    exact ⟨front, fun not => by cases not⟩
  · rw [emptied]
    refine ⟨front, fun _ kept => ?_⟩
    have long : (r.complete startTime pid).length ≤ (r.file ++ written).length := by
      rw [length_complete]
      exact Nat.not_lt.mp kept
    rw [List.append_nil]
    exact front.eq_of_length_le long

theorem complete_snoc (startTime : UInt64) (pid : UInt32) (r : Recorder) (event : Event)
    (seq : UInt64) :
    { r with seq := seq, logged := r.logged ++ [event] }.complete startTime pid =
      r.complete startTime pid ++ event.encode := by
  simp [complete, State.flushedLog]

/-- The record is copied behind what the ring holds. -/
theorem Contiguous.copied {r : Recorder} (contiguous : r.Contiguous startTime pid)
    (outside : r.writing = false) (event : Event) (seq : UInt64) :
    { r with
      ring := r.ring ++ event.encode
      seq := seq
      logged := r.logged ++ [event] }.Contiguous startTime pid := by
  have grown := complete_snoc startTime pid r event seq
  refine ⟨?_, fun _ kept => ?_⟩
  · show r.file <+: { r with seq := seq, logged := r.logged ++ [event] }.complete startTime pid
    rw [grown]
    exact contiguous.front.trans (List.prefix_append _ _)
  · have before : ¬ r.Dropped := by
      simp only [Dropped, List.length_append, Event.length_encode, List.length_singleton,
        Nat.mul_add, Nat.mul_one] at kept ⊢
      omega
    show r.file ++ (r.ring ++ event.encode) =
      { r with seq := seq, logged := r.logged ++ [event] }.complete startTime pid
    rw [grown, ← contiguous.whole outside before, List.append_assoc]

/-- The ring before an event is copied into it. -/
def madeRoom (r : Recorder) (answers : List WriteAnswer) : Recorder :=
  if r.ring.length + sizeofEvent > rrLogRingSize then (r.rrRecordFlush answers).1 else r

/-- An event is copied into the ring unless the flush before it has not come back. -/
theorem rrRecordAppend_event (r : Recorder) (event : Event) (answers : List WriteAnswer) :
    (r.rrRecordAppend event.encode answers).1 =
      if (r.madeRoom answers).writing then r.madeRoom answers
      else { r.madeRoom answers with ring := (r.madeRoom answers).ring ++ event.encode } := by
  have small : ¬ event.encode.length > rrLogRingSize := by
    rw [Event.length_encode]
    decide
  rw [rrRecordAppend, if_neg small, Event.length_encode, madeRoom]
  by_cases full : r.ring.length + sizeofEvent > rrLogRingSize
  · simp only [if_pos full]
    by_cases writing : (r.rrRecordFlush answers).1.writing
    · simp only [if_pos writing]
    · simp only [if_neg writing]
  · simp only [if_neg full]
    by_cases writing : r.writing
    · simp only [if_pos writing]
    · simp only [if_neg writing]

theorem madeRoom_logged (r : Recorder) (answers : List WriteAnswer) (seq : UInt64)
    (logged : List Event) :
    { r with seq := seq, logged := logged }.madeRoom answers =
      { r.madeRoom answers with seq := seq, logged := logged } := by
  simp only [madeRoom, rrRecordFlush_logged]
  by_cases full : r.ring.length + sizeofEvent > rrLogRingSize
  · simp only [if_pos full]
  · simp only [if_neg full]

theorem rrRecordFlush_kept (r : Recorder) (answers : List WriteAnswer) :
    (r.rrRecordFlush answers).1.seq = r.seq ∧ (r.rrRecordFlush answers).1.logged = r.logged := by
  obtain ⟨written, remaining, _, _, inside | emptied⟩ := r.rrRecordFlush_cases answers
  · rw [inside]
    exact ⟨rfl, rfl⟩
  · rw [emptied]
    exact ⟨rfl, rfl⟩

theorem madeRoom_kept (r : Recorder) (answers : List WriteAnswer) :
    (r.madeRoom answers).seq = r.seq ∧ (r.madeRoom answers).logged = r.logged := by
  by_cases full : r.ring.length + sizeofEvent > rrLogRingSize
  · rw [madeRoom, if_pos full]
    exact r.rrRecordFlush_kept answers
  · rw [madeRoom, if_neg full]
    exact ⟨rfl, rfl⟩

theorem Contiguous.madeRoom {r : Recorder} (contiguous : r.Contiguous startTime pid)
    (outside : r.writing = false) {answers : List WriteAnswer} (silent : r.Silent answers) :
    (r.madeRoom answers).Contiguous startTime pid := by
  by_cases full : r.ring.length + sizeofEvent > rrLogRingSize
  · rw [Recorder.madeRoom, if_pos full]
    exact contiguous.flush outside silent
  · rw [Recorder.madeRoom, if_neg full]
    exact contiguous

/-- One `rr_log_*` call. -/
theorem Contiguous.appended {r : Recorder} (contiguous : r.Contiguous startTime pid)
    (outside : r.writing = false) {answers : List WriteAnswer} (silent : r.Silent answers)
    (event : Event) (seq : UInt64) :
    ({ r with seq := seq, logged := r.logged ++ [event] }.rrRecordAppend event.encode
      answers).1.Contiguous startTime pid := by
  have room := contiguous.madeRoom outside silent
  have kept := (r.madeRoom_kept answers).2
  rw [rrRecordAppend_event, madeRoom_logged, ← kept]
  cases writing : (r.madeRoom answers).writing with
  | false =>
      simp only [writing, Bool.false_eq_true, if_false]
      rw [← writing]
      exact room.copied writing event seq
  | true =>
      -- The event is logged, but the call is still in the flush before the copy.
      simp only [writing, if_true]
      refine ⟨?_, fun not => by cases not⟩
      have grown := complete_snoc startTime pid (r.madeRoom answers) event seq
      simp only [complete] at grown ⊢
      rw [grown]
      exact room.front.trans (List.prefix_append _ _)

theorem step_cases {r next : Recorder} {call : RecorderCall} {answers : List WriteAnswer}
    (taken : r.step (call, answers) = some next) :
    r.writing = false ∧
      (call = .flush ∧ next = (r.rrRecordFlush answers).1 ∨
        ∃ uthreadId payload, call = .log uthreadId payload ∧
          next = ({ r with
            seq := (r.nextEvent uthreadId payload).seq
            logged := r.logged ++ [r.nextEvent uthreadId payload] }.rrRecordAppend
              (r.nextEvent uthreadId payload).encode answers).1) := by
  simp only [Recorder.step] at taken
  by_cases writing : r.writing = true
  · rw [if_pos writing] at taken
    cases taken
  · rw [if_neg writing] at taken
    refine ⟨Bool.eq_false_iff.mpr writing, ?_⟩
    cases call with
    | flush => exact .inl ⟨rfl, (Option.some.inj taken).symm⟩
    | log uthreadId payload => exact .inr ⟨uthreadId, payload, rfl, (Option.some.inj taken).symm⟩

theorem Contiguous.step {r next : Recorder} (contiguous : r.Contiguous startTime pid)
    {call : RecorderCall} {answers : List WriteAnswer} (silent : r.Silent answers)
    (taken : r.step (call, answers) = some next) : next.Contiguous startTime pid := by
  obtain ⟨outside, ⟨_, flushed⟩ | ⟨uthreadId, payload, _, appended⟩⟩ := step_cases taken
  · rw [flushed]
    exact contiguous.flush outside silent
  · rw [appended]
    exact contiguous.appended outside silent _ _

/-- After a successful `rr_record_init` the file holds the header. -/
theorem rrRecordInit_some {answers : List WriteAnswer} {r : Recorder}
    (initialised : rrRecordInit startTime pid answers = some r) :
    r = ⟨(Header.recorded startTime pid).encode, [], 0, false, []⟩ := by
  obtain ⟨written, remaining, status, rest, eq, split, full, _⟩ :=
    rrWriteDirect_cases answers [] (Header.recorded startTime pid).encode
  rw [rrRecordInit, eq] at initialised
  cases status with
  | inside => cases initialised
  | failed => cases initialised
  | done =>
      rw [full.mpr rfl, List.append_nil] at split
      rw [← split, ← Option.some.inj initialised, List.nil_append]

theorem contiguous_of_init {answers : List WriteAnswer} {r : Recorder}
    (initialised : rrRecordInit startTime pid answers = some r) :
    r.Contiguous startTime pid := by
  have header : State.flushedLog startTime pid [] = (Header.recorded startTime pid).encode := by
    rw [State.flushedLog, List.flatMap_nil, List.append_nil]
  rw [rrRecordInit_some initialised]
  refine ⟨?_, fun _ _ => ?_⟩
  · refine ⟨[], ?_⟩
    rw [List.append_nil]
    exact header.symm
  · rw [complete, header, List.append_nil]

/-- As long as nothing is written behind dropped bytes, the file is at every moment a
front of the header and the records logged so far. -/
theorem log_has_no_hole {answers : List WriteAnswer} {start r : Recorder}
    (initialised : rrRecordInit startTime pid answers = some start)
    {calls : List (RecorderCall × List WriteAnswer)}
    (silent : Along Recorder.step (fun s input _ => s.Silent input.2) start calls)
    (reached : exec Recorder.step start calls = some r) :
    r.file <+: r.complete startTime pid := by
  have contiguous : r.Contiguous startTime pid := by
    refine silent.invariant ?_ (contiguous_of_init initialised) reached
    rintro s ⟨call, given⟩ t taken quiet kept
    exact kept.step quiet taken
  exact contiguous.front

/-- A flush that fails in the middle, and no byte after it. -/
theorem short_flush_has_no_hole :
    ∃ start r,
      rrRecordInit 0 7 [.interrupted, .accepted 20, .accepted 24] = some start ∧
      exec Recorder.step start [(.log 1 (.sched 0 1), []),
        (.flush, [.accepted 100, .failed Errno.ENOSPC]), (.log 2 (.sched 1 2), []),
        (.flush, [.interrupted, .failed Errno.ENOSPC])] = some r ∧
      r.file <+: r.complete 0 7 := by
  have header : rrRecordInit 0 7 [.interrupted, .accepted 20, .accepted 24] =
      some ⟨(Header.recorded 0 7).encode, [], 0, false, []⟩ := by decide +kernel
  have returns : (exec Recorder.step ⟨(Header.recorded 0 7).encode, [], 0, false, []⟩
      [(.log 1 (.sched 0 1), []), (.flush, [.accepted 100, .failed Errno.ENOSPC]),
        (.log 2 (.sched 1 2), []), (.flush, [.interrupted, .failed Errno.ENOSPC])]).isSome := by
    decide +kernel
  obtain ⟨r, reached⟩ := Option.isSome_iff_exists.mp returns
  exact ⟨_, r, header, reached, log_has_no_hole header (by decide +kernel) reached⟩

/-- One failed flush and a flush that succeeds: the second record stands where the first
one belongs. -/
theorem failed_flush_leaves_hole :
    ((rrRecordInit 0 7 [.accepted 24]).bind fun start =>
      exec Recorder.step start [(.log 1 (.sched 0 1), []), (.flush, [.failed Errno.ENOSPC]),
        (.log 2 (.sched 1 2), []), (.flush, [.accepted 112])]).map
      (fun r => decide (r.file <+: r.complete 0 7)) = some false := by
  decide +kernel

end Recorder

end Librr
