import Librr.Runtime
import Librr.WrapperFacts

set_option autoImplicit false

namespace Librr

namespace Reader

/-- A reader in front of these events of a log, expecting the number `seq`. -/
def before (events : List Event) (seq : UInt64) : Reader :=
  ⟨true, true, events.flatMap Event.encode, seq⟩

theorem rrReadFull_append {front : Bytes} {len : Nat} (length : front.length = len)
    (rest : Bytes) : rrReadFull (front ++ rest) len = (rest, some front) := by
  subst length
  simp [rrReadFull]

theorem rrReplayInit_flushed (startTime : UInt64) (pid : UInt32) (events : List Event) :
    rrReplayInit (some (State.flushedLog startTime pid events)) = some (.before events 1) := by
  have header := rrReadFull_append (Header.length_encode (.recorded startTime pid))
    (events.flatMap Event.encode)
  rw [rrReplayInit, Option.bind_some, State.flushedLog, header, acceptHeader,
    Header.decode_encode]
  simp [Header.recorded, before]

theorem rrReplayNextEvent_before (event : Event) (rest : List Event) :
    (before (event :: rest) event.seq).rrReplayNextEvent =
      (before rest (event.seq + 1), .ok event) := by
  have record := rrReadFull_append (Event.length_encode event) (rest.flatMap Event.encode)
  simp only [rrReplayNextEvent, before, List.flatMap_cons, record, acceptEvent,
    Event.decode_encode]
  simp

theorem rrReplayExpectSched_before (seq fromId toId : UInt64) (rest : List Event) :
    (before (⟨seq, toId, .sched fromId toId⟩ :: rest) seq).rrReplayExpectSched fromId toId =
      (before rest (seq + 1), .ok ()) := by
  have read := rrReplayNextEvent_before ⟨seq, toId, .sched fromId toId⟩ rest
  rw [rrReplayExpectSched, read]
  simp [Except.bind, checkSched]

theorem rrReplayNextSyscall_before (args : LogArgs) (seq uthreadId : UInt64)
    (rest : List Event) :
    (before (⟨seq, uthreadId, args.payload⟩ :: rest) seq).rrReplayNextSyscall args.nr uthreadId =
      (before rest (seq + 1), .ok (args.event seq)) := by
  have read := rrReplayNextEvent_before ⟨seq, uthreadId, args.payload⟩ rest
  have ready : (!(before (⟨seq, uthreadId, args.payload⟩ :: rest) seq).headerOk ||
      !(before (⟨seq, uthreadId, args.payload⟩ :: rest) seq).opened) = false := rfl
  rw [rrReplayNextSyscall, ready, if_neg Bool.false_ne_true, read]
  simp only [Except.bind, checkSyscall_logged]

end Reader

end Librr
