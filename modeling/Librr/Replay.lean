import Librr.LogFormat

set_option autoImplicit false

namespace Librr

/-- The static variables of `replay.c`: the bytes of the log file not read yet
stand for the open descriptor. -/
structure Reader where
  opened : Bool
  headerOk : Bool
  unread : Bytes
  expectedSeq : UInt64
  deriving DecidableEq, Repr

namespace Reader

def closed : Reader := ⟨false, false, [], 1⟩

/-- What `rr_read_full` makes of the bytes left: all it asks for, or a failure
that has used them up. -/
def rrReadFull (unread : Bytes) (len : Nat) : Bytes × Option Bytes :=
  if len ≤ unread.length then (unread.drop len, some (unread.take len)) else ([], none)

/-- `rr_replay_init` once `rr_read_full` has returned. -/
def acceptHeader : Bytes × Option Bytes → Option Reader
  | (_, none) => none
  | (rest, some raw) =>
    if (Header.decode raw).magic ≠ rrLogMagic ∨ (Header.decode raw).version ≠ rrLogVersion then none
    else some ⟨true, true, rest, 1⟩

/-- `file` is the content of the log, and `none` where it cannot be opened. -/
def rrReplayInit (file : Option Bytes) : Option Reader :=
  file.bind fun bytes => acceptHeader (rrReadFull bytes sizeofHeader)

/-- `rr_replay_next_event` once `rr_read_full` has returned. A wrong number is
reported without advancing the expected one. -/
def acceptEvent (reader : Reader) : Bytes × Option Bytes → Reader × Except Int32 Event
  | (rest, none) => ({ reader with unread := rest }, .error Errno.ENODATA)
  | (rest, some raw) =>
    if (Event.decode raw).seq ≠ reader.expectedSeq then
      ({ reader with unread := rest }, .error Errno.EPROTO)
    else
      ({ reader with unread := rest, expectedSeq := reader.expectedSeq + 1 },
        .ok (Event.decode raw))

def rrReplayNextEvent (reader : Reader) : Reader × Except Int32 Event :=
  if !reader.headerOk || !reader.opened then (reader, .error Errno.EINVAL)
  else reader.acceptEvent (rrReadFull reader.unread sizeofEvent)

/-- The check of `rr_replay_expect_sched` on the event it read. -/
def checkSched (fromId toId : UInt64) (event : Event) : Except Int32 Unit :=
  match event.payload with
  | .sched actualFrom actualTo =>
    if actualFrom ≠ fromId ∨ actualTo ≠ toId then .error Errno.EPROTO else .ok ()
  | _ => .error Errno.EPROTO

def rrReplayExpectSched (reader : Reader) (fromId toId : UInt64) : Reader × Except Int32 Unit :=
  (reader.rrReplayNextEvent.1, reader.rrReplayNextEvent.2.bind (checkSched fromId toId))

/-- The checks of `rr_replay_next_syscall` on the event it read, and the copy it
hands out. -/
def checkSyscall (nr : Int32) (uthreadId : UInt64) (event : Event) : Except Int32 ReplayEvent :=
  match event.payload with
  | .syscall actualNr retval arg0 data dataLen =>
    if actualNr ≠ nr then .error Errno.EPROTO
    else if event.uthreadId ≠ uthreadId then .error Errno.EPROTO
    else
      let copied := min dataLen.toNat 64
      .ok ⟨event.seq, actualNr, retval, arg0, .ofBytes (data.val.take copied), copied⟩
  | _ => .error Errno.EPROTO

def rrReplayNextSyscall (reader : Reader) (nr : Int32) (uthreadId : UInt64) :
    Reader × Except Int32 ReplayEvent :=
  if !reader.headerOk || !reader.opened then (reader, .error Errno.EINVAL)
  else (reader.rrReplayNextEvent.1, reader.rrReplayNextEvent.2.bind (checkSyscall nr uthreadId))

end Reader

end Librr
