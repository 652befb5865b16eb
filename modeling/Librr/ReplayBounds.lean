import Librr.Base.Copy
import Librr.Deviation
import Librr.Endings

set_option autoImplicit false

namespace Librr

open Transition Copy

/-- The copy of `read` and `recv` in replay. -/
def bufferCopy (buf : Option Bytes) (count : Nat) (ev : ReplayEvent) : Option (Option Bytes) :=
  match buf with
  | none => some none
  | some object =>
    if 0 < ev.retval then
      let toCopy := ev.retval.toInt.toNat
      let toCopy := if count < toCopy then count else toCopy
      let toCopy := if ev.dataLen < toCopy then ev.dataLen else toCopy
      (memcpy object ev.data.val toCopy).map some
    else some (some object)

/-- The copy of the wrappers that fill a struct of `size` bytes. -/
def structCopy (object : Bytes) (size : Nat) (ev : ReplayEvent) : Option (Option Bytes) :=
  if 0 ≤ ev.retval then
    let toCopy := ev.dataLen
    let toCopy := if size < toCopy then size else toCopy
    (memcpy object ev.data.val toCopy).map some
  else some (some object)

/-- The copy of `getcwd` and the terminator behind it. -/
def pathCopy (buf : Option Bytes) (size : Nat) (ev : ReplayEvent) : Option (Option Bytes) :=
  match buf with
  | none => some none
  | some object =>
    if ev.retval < 0 then some (some object)
    else if 0 < size then
      let toCopy := ev.dataLen
      let toCopy := if size ≤ toCopy then size - 1 else toCopy
      ((memcpy object ev.data.val toCopy).bind (assign · toCopy 0)).map some
    else some (some object)

namespace Call

/-- The output object after the replay path, every copy checked. Only `gettimeofday` copies
without a look at a null pointer it may be given. -/
def replayOut (call : Call) (virtual : Bool) (real : Real) (ev : ReplayEvent) :
    Option (Option Bytes) :=
  match call with
  | .read _ buf count => bufferCopy buf count ev
  | .recv _ buf len _ => bufferCopy buf len ev
  | .clockGettime _ tp =>
    if !virtual then some (realOut real (some tp)) else structCopy tp 16 ev
  | .gettimeofday tv _ =>
    if !virtual then some (realOut real tv)
    else
      match tv with
      | none => if 0 ≤ ev.retval then none else some none
      | some object => structCopy object 16 ev
  | .uname buf =>
    match buf with
    | none => some none
    | some object => structCopy object 390 ev
  | .stat _ st => structCopy st 144 ev
  | .fstat _ st => structCopy st 144 ev
  | .lstat _ st => structCopy st 144 ev
  | .getcwd buf size => pathCopy buf size ev
  | .accept _ addr _ => some addr
  | .nanosleep _ rem => some rem
  | _ => some none

/-- The call fills an object of the caller, which has the size the call says. -/
def OwnsOutput : Call → Prop
  | .read _ (some buf) count => buf.length = count
  | .recv _ (some buf) len _ => buf.length = len
  | .clockGettime _ tp => tp.length = 16
  | .gettimeofday (some tv) _ => tv.length = 16
  | .uname (some buf) => buf.length = 390
  | .stat _ st | .fstat _ st | .lstat _ st => st.length = 144
  | .getcwd (some buf) size => buf.length = size
  | _ => False

end Call

/-- `rr_replay_next_syscall` on the event it read, with its copy checked. -/
def Reader.checkSyscallCopied (nr : Int32) (uthreadId : UInt64) (event : Event) :
    Option (Except Int32 ReplayEvent) :=
  match event.payload with
  | .syscall actualNr retval arg0 data dataLen =>
    if actualNr ≠ nr then some (.error Errno.EPROTO)
    else if event.uthreadId ≠ uthreadId then some (.error Errno.EPROTO)
    else
      let copied := if 64 < dataLen.toNat then 64 else dataLen.toNat
      (memcpy (List.replicate 64 0) data.val copied).map fun bytes =>
        .ok ⟨event.seq, actualNr, retval, arg0, .ofBytes bytes, copied⟩
  | _ => some (.error Errno.EPROTO)

/-- The replay path of a wrapper with every copy checked: `none` where one of them reads behind
the payload of the event or writes behind the caller's object. -/
def Reader.replayChecked (reader : Reader) (call : Call) (uthreadId : UInt64) (virtual : Bool)
    (real : Real) : Option (Reader × CallResult) :=
  if !reader.headerOk || !reader.opened then
    some (reader, call.wrapper.refused Errno.EINVAL)
  else
    match reader.rrReplayNextEvent with
    | (rest, .error errno) => some (rest, call.wrapper.refused errno)
    | (rest, .ok event) =>
      (checkSyscallCopied call.wrapper.nr uthreadId event).bind fun
        | .error errno => some (rest, call.wrapper.refused errno)
        | .ok ev =>
          (call.replayOut virtual real ev).map fun out =>
            (rest, { call.wrapper.replay virtual real ev with out := out })

/-- The replay path as the runtime's model has it. -/
def Reader.replayCall (reader : Reader) (call : Call) (uthreadId : UInt64) (virtual : Bool)
    (real : Real) : Reader × CallResult :=
  match reader.rrReplayNextSyscall call.wrapper.nr uthreadId with
  | (rest, .error errno) => (rest, call.wrapper.refused errno)
  | (rest, .ok ev) => (rest, call.wrapper.replay virtual real ev)

theorem overwrite_take {object src : Bytes} {n : Nat} (readable : n ≤ src.length) :
    overwrite object (src.take n) = src.take n ++ object.drop n := by
  rw [overwrite, List.length_take_of_le readable]

/-- The zeroes behind a copy are there already. -/
theorem EventData.ofBytes_padded (bytes : Bytes) (zeroes : Nat) :
    EventData.ofBytes (bytes ++ List.replicate zeroes 0) = EventData.ofBytes bytes := by
  have padded : ∀ (m : Nat) (bytes : Bytes) (zeroes : Nat),
      (bytes ++ List.replicate zeroes 0).takeD m 0 = bytes.takeD m 0 := by
    intro m
    induction m with
    | zero => intros; rfl
    | succ m ih =>
        intro bytes zeroes
        cases bytes with
        | cons byte rest => exact congrArg (byte :: ·) (ih rest zeroes)
        | nil =>
            cases zeroes with
            | zero => rfl
            | succ zeroes => exact congrArg (0 :: ·) (ih [] zeroes)
  exact Subtype.ext (padded 64 bytes zeroes)

section Copies

variable {ev : ReplayEvent}

/-- An event copied as far as both it and the object reach. -/
theorem memcpy_event {object : Bytes} {n : Nat} (readable : n ≤ 64)
    (writable : n ≤ object.length) :
    memcpy object ev.data.val n = some (overwrite object (ev.data.val.take n)) := by
  have inside : n ≤ ev.data.val.length := by rw [ev.data.property]; exact readable
  rw [memcpy_inside inside writable, overwrite_take inside]

theorem bufferCopy_eq {nr fd : Int32} {object : Bytes} {count : Nat} {issue : Answer → Begun}
    (sized : object.length = count) (clamped : ev.dataLen ≤ 64) (virtual : Bool) (real : Real) :
    bufferCopy (some object) count ev =
      some ((bufferWrapper nr fd (some object) count issue).replay virtual real ev).out := by
  simp only [bufferCopy, bufferWrapper, clamp_eq_min]
  split
  · rw [memcpy_event (by omega) (by omega)]
    rfl
  · rfl

theorem structCopy_eq {nr : Int32} {arg0 : UInt64} {object : Bytes} {size : Nat} {timed : Bool}
    {tz : Option Bytes} (sized : object.length = size) (clamped : ev.dataLen ≤ 64) {virtual : Bool}
    (recorded : (timed && !virtual) = false) (real : Real) :
    structCopy object size ev =
      some ((structWrapper nr arg0 (some object) size timed tz).replay virtual real ev).out := by
  simp only [structCopy, structWrapper, recorded, Bool.false_eq_true, if_false, clamp_eq_min]
  split
  · rw [memcpy_event (by omega) (by omega)]
    rfl
  · rfl

theorem pathCopy_eq {object : Bytes} {size : Nat} (sized : object.length = size)
    (clamped : ev.dataLen ≤ 64) (virtual : Bool) (real : Real) :
    pathCopy (some object) size ev =
      some ((Wrapper.getcwd (some object) size).replay virtual real ev).out := by
  simp only [pathCopy, Wrapper.getcwd]
  split
  · rfl
  · by_cases empty : size = 0
    · rw [if_pos empty, if_neg (by omega)]
    · rw [if_neg empty, if_pos (by omega)]
      -- One byte of the object is kept for the terminator.
      have room : (if size ≤ ev.dataLen then size - 1 else ev.dataLen) < object.length ∧
          (if size ≤ ev.dataLen then size - 1 else ev.dataLen) ≤ ev.data.val.length := by
        rw [ev.data.property]
        split <;> omega
      generalize (if size ≤ ev.dataLen then size - 1 else ev.dataLen) = n at room
      rw [memcpy_inside room.2 (by omega), Option.bind_some, assign_behind 0 room.2 room.1,
        Option.map_some, overwrite, List.length_append, List.length_take_of_le room.2]
      simp

end Copies

/-- Every copy into an object of the right size stays inside it, and leaves what the model of the
wrapper says. -/
theorem Call.replayOut_eq {call : Call} (owns : call.OwnsOutput) {ev : ReplayEvent}
    (clamped : ev.dataLen ≤ 64) (virtual : Bool) (real : Real) :
    call.replayOut virtual real ev = some (call.wrapper.replay virtual real ev).out := by
  cases call with
  | read fd buf count =>
      cases buf with
      | none => exact absurd owns id
      | some object => exact bufferCopy_eq owns clamped virtual real
  | recv sockfd buf len flags =>
      cases buf with
      | none => exact absurd owns id
      | some object => exact bufferCopy_eq owns clamped virtual real
  | clockGettime clockId tp =>
      cases virtual with
      | false => rfl
      | true => exact structCopy_eq owns clamped rfl real
  | gettimeofday tv tz =>
      cases tv with
      | none => exact absurd owns id
      | some object =>
          cases virtual with
          | false => rfl
          | true => exact structCopy_eq owns clamped rfl real
  | uname buf =>
      cases buf with
      | none => exact absurd owns id
      | some object => exact structCopy_eq owns clamped rfl real
  | stat path st => exact structCopy_eq owns clamped rfl real
  | fstat fd st => exact structCopy_eq owns clamped rfl real
  | lstat path st => exact structCopy_eq owns clamped rfl real
  | getcwd buf size =>
      cases buf with
      | none => exact absurd owns id
      | some object => exact pathCopy_eq owns clamped virtual real
  | _ => exact absurd owns id

namespace Reader

theorem checkSyscall_dataLen {nr : Int32} {uthreadId : UInt64} {event : Event} {ev : ReplayEvent}
    (accepted : checkSyscall nr uthreadId event = .ok ev) : ev.dataLen ≤ 64 := by
  obtain ⟨seq, id, payload⟩ := event
  cases payload with
  | syscall actualNr retval arg0 data dataLen =>
      simp only [checkSyscall] at accepted
      split at accepted
      · cases accepted
      · split at accepted
        · cases accepted
        · cases accepted
          exact Nat.min_le_right _ _
  | _ => cases accepted

/-- The copy of the payload never leaves its 64 bytes, whatever length the record claims. -/
theorem checkSyscallCopied_eq (nr : Int32) (uthreadId : UInt64) (event : Event) :
    checkSyscallCopied nr uthreadId event = some (checkSyscall nr uthreadId event) := by
  obtain ⟨seq, id, payload⟩ := event
  cases payload with
  | syscall actualNr retval arg0 data dataLen =>
      simp only [checkSyscallCopied, checkSyscall, clamp_eq_min]
      split
      · rfl
      · split
        · rfl
        · have readable : min dataLen.toNat 64 ≤ data.val.length := by
            rw [data.property]
            exact Nat.min_le_right _ _
          have writable : min dataLen.toNat 64 ≤ (List.replicate 64 (0 : UInt8)).length := by
            rw [List.length_replicate]
            exact Nat.min_le_right _ _
          rw [memcpy_inside readable writable, Option.map_some, List.drop_replicate,
            EventData.ofBytes_padded]
  | _ => rfl

/-- Whatever stands in the log, the replay path copies inside the payload and the caller's object,
and does what the model says. -/
theorem replayChecked_eq (reader : Reader) {call : Call} (owns : call.OwnsOutput)
    (uthreadId : UInt64) (virtual : Bool) (real : Real) :
    reader.replayChecked call uthreadId virtual real =
      some (reader.replayCall call uthreadId virtual real) := by
  unfold replayChecked replayCall rrReplayNextSyscall
  split
  · rfl
  · obtain ⟨rest, read⟩ := reader.rrReplayNextEvent
    cases read with
    | error errno => rfl
    | ok event =>
        simp only [checkSyscallCopied_eq, Option.bind_some, Except.bind]
        cases checked : checkSyscall call.wrapper.nr uthreadId event with
        | error errno => rfl
        | ok ev =>
            simp only [Call.replayOut_eq owns (checkSyscall_dataLen checked), Option.map_some]

end Reader

namespace State

/-- The running uthread is about to call a wrapped function. -/
structure AboutToCall (program : Program) (s : State) (call : Call) : Prop where
  ready : s.config.runtimeReady = true
  user : s.sched.control = .user
  next : s.nextAction program = some (.call call)

variable {program : Program} {s t : State}

/-- A replayed call moves the reader on and returns what its replay path gives. -/
theorem Replaying.call_returns {call : Call} {answer : Answer} (replaying : s.Replaying)
    (about : s.AboutToCall program call) (taken : Librr.step program s (.act answer) = some t) :
    t.reader =
      (s.reader.replayCall call s.sched.currentId s.config.replayTimeVirtual answer.real).1 ∧
    t.history.getLast? = some (.returned s.sched.currentId call
      (s.reader.replayCall call s.sched.currentId s.config.replayTimeVirtual answer.real).2) := by
  have ready := about.ready
  have next := about.next
  simp only [nextAction, ready, if_true, Option.map_eq_some_iff, Prod.exists] at next
  obtain ⟨ut, u, running, calls⟩ := next
  have inactive : s.config.rrActive = false := by
    simp [Config.rrActive, replaying.replays.modeRecord]
  have active : s.config.rrReplayActive = true := by
    simp [Config.rrReplayActive, replaying.replays.modeReplay, ready]
  rw [step_call ready about.user running calls, wrappedCall, if_neg (by simp [inactive]),
    if_pos active] at taken
  unfold Reader.replayCall
  generalize s.reader.rrReplayNextSyscall call.wrapper.nr s.sched.currentId = outcome at taken ⊢
  obtain ⟨reader, errno | event⟩ := outcome
  · cases taken
    simp [returnCall]
  · cases taken
    simp [returnCall]

theorem AboutToCall.replaying {stackSize : Nat} {virtualTime : Bool} {file : Option Bytes}
    {inputs : List Input} {call : Call} (about : s.AboutToCall program call)
    (reached : exec (Librr.step program) (replayStart stackSize virtualTime file) inputs = some s) :
    s.Replaying := by
  rcases replay_of_exec reached with replaying | unready
  · exact replaying
  · have ready := about.ready
    rw [unready.unready] at ready
    cases ready

/-- Whatever file is replayed, a call that fills an object of its caller copies inside this object
and inside the payload of the event, and returns what its copies give. -/
theorem replay_copies_stay_inside {stackSize : Nat} {virtualTime : Bool} {file : Bytes}
    {inputs : List Input} {call : Call} {answer : Answer}
    (reached : exec (Librr.step program) (replayStart stackSize virtualTime (some file)) inputs =
      some s)
    (about : s.AboutToCall program call) (owns : call.OwnsOutput)
    (taken : Librr.step program s (.act answer) = some t) :
    ∃ result, s.reader.replayChecked call s.sched.currentId s.config.replayTimeVirtual
        answer.real = some (t.reader, result) ∧
      t.history.getLast? = some (.returned s.sched.currentId call result) := by
  obtain ⟨reader, returned⟩ := (about.replaying reached).call_returns about taken
  refine ⟨_, ?_, returned⟩
  rw [Reader.replayChecked_eq s.reader owns, reader]

/-- A log with one system call behind the first switch. -/
def forgedLog (nr retval : Int32) (dataLen : UInt32) : Bytes :=
  flushedLog 7 42 [⟨1, 1, .sched 0 1⟩,
    ⟨2, 1, .syscall nr retval 3 (.ofBytes (List.replicate 64 255)) dataLen⟩]

/-- Three bytes are read from a log that claims 2^31 - 1 of them in 2^32 - 1 bytes of data. -/
theorem forged_read_stays_inside : ∃ s t,
    s = replayStart 8192 true (some (forgedLog Nr.read 2147483647 4294967295)) ∧
    Librr.step (callOnce (.read 3 (some [0, 0, 0]) 3)) s (.act .calm) = some t ∧
    ∃ result, s.reader.replayChecked (.read 3 (some [0, 0, 0]) 3) s.sched.currentId
        s.config.replayTimeVirtual Answer.calm.real = some (t.reader, result) ∧
      t.history.getLast? =
        some (.returned s.sched.currentId (.read 3 (some [0, 0, 0]) 3) result) := by
  have about : AboutToCall (callOnce (.read 3 (some [0, 0, 0]) 3))
      (replayStart 8192 true (some (forgedLog Nr.read 2147483647 4294967295)))
      (.read 3 (some [0, 0, 0]) 3) :=
    ⟨by decide +kernel, by decide +kernel, by decide +kernel⟩
  have runs : (Librr.step (callOnce (.read 3 (some [0, 0, 0]) 3))
      (replayStart 8192 true (some (forgedLog Nr.read 2147483647 4294967295)))
      (.act .calm)).isSome := by decide +kernel
  obtain ⟨t, taken⟩ := Option.isSome_iff_exists.mp runs
  exact ⟨_, t, rfl, taken, replay_copies_stay_inside (exec_nil _ _) about rfl taken⟩

end State

end Librr
