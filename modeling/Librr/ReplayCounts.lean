import Librr.ReplayBounds

set_option autoImplicit false

namespace Librr

open Transition

/-- A number of bytes no greater than what was asked for, or a failure with a positive code. The
code is `-raw`, and the negation overflows exactly where it is not positive. -/
def CallResult.ValidCount (result : CallResult) (count : Nat) : Prop :=
  (result.ret = -1 ∧ ∃ errno, result.errno = some errno ∧ 0 < errno) ∨
    (0 ≤ result.ret ∧ result.ret ≤ count)

/-- The number of bytes a `read`, `write` or `send` asks to transfer. -/
def Call.transfers : Call → Option Nat
  | .read _ _ count => some count
  | .write _ buf => some buf.length
  | .send _ buf _ => some buf.length
  | _ => none

/-- Of the negative numbers only the least has no positive counterpart. -/
theorem neg_pos_iff {raw : Int32} (negative : raw < 0) : 0 < -raw ↔ -2 ^ 31 < raw.toInt := by
  have zero : (0 : Int32).toInt = 0 := rfl
  have lower := raw.le_toInt
  rw [Int32.lt_iff_toInt_lt, zero] at negative
  rw [Int32.lt_iff_toInt_lt, zero, Int32.toInt_neg]
  constructor
  · intro positive
    by_contra least
    have value : raw.toInt = -2 ^ 31 := by omega
    rw [value] at positive
    exact absurd positive (by decide)
  · intro above
    rw [Int.bmod_eq_of_le (by omega) (by omega)]
    omega

theorem CallResult.validCount_iff {result : CallResult} {raw : Int32}
    (ret : result.ret = (rawToSsize raw).1) (errno : result.errno = (rawToSsize raw).2)
    (count : Nat) : result.ValidCount count ↔ -2 ^ 31 < raw.toInt ∧ raw.toInt ≤ count := by
  have zero : (0 : Int32).toInt = 0 := rfl
  have lower := raw.le_toInt
  unfold ValidCount
  rw [ret, errno, rawToSsize]
  by_cases negative : raw < 0
  · have below := Int32.lt_iff_toInt_lt.mp negative
    have fits : raw.toInt ≤ count := by omega
    simp [if_pos negative, neg_pos_iff negative, fits]
  · have above : 0 ≤ raw.toInt := by
      rw [Int32.lt_iff_toInt_lt] at negative
      omega
    simp only [if_neg negative]
    constructor
    · rintro (⟨failed, -⟩ | ⟨-, fits⟩) <;> omega
    · rintro ⟨-, fits⟩
      exact Or.inr ⟨above, fits⟩

namespace Reader

theorem checkSyscall_errno {nr : Int32} {uthreadId : UInt64} {event : Event} {errno : Int32}
    (missed : checkSyscall nr uthreadId event = .error errno) : errno = Errno.EPROTO := by
  obtain ⟨seq, id, payload⟩ := event
  cases payload with
  | syscall actualNr retval arg0 data dataLen =>
      simp only [checkSyscall] at missed
      split at missed
      · cases missed
        rfl
      · split at missed
        · cases missed
          rfl
        · cases missed
  | _ =>
      cases missed
      rfl

theorem rrReplayNextEvent_errno {reader : Reader} {errno : Int32}
    (missed : reader.rrReplayNextEvent.2 = .error errno) :
    errno = Errno.EINVAL ∨ errno = Errno.ENODATA ∨ errno = Errno.EPROTO := by
  unfold rrReplayNextEvent at missed
  split at missed
  · cases missed
    exact Or.inl rfl
  · generalize rrReadFull reader.unread sizeofEvent = read at missed
    obtain ⟨rest, _ | raw⟩ := read
    · cases missed
      exact Or.inr (Or.inl rfl)
    · simp only [acceptEvent] at missed
      split at missed
      · cases missed
        exact Or.inr (Or.inr rfl)
      · cases missed

/-- A refused event comes with one of three codes. -/
theorem rrReplayNextSyscall_errno {reader rest : Reader} {nr : Int32} {uthreadId : UInt64}
    {errno : Int32}
    (missed : reader.rrReplayNextSyscall nr uthreadId = (rest, .error errno)) : 0 < errno := by
  have known : errno = Errno.EINVAL ∨ errno = Errno.ENODATA ∨ errno = Errno.EPROTO := by
    unfold rrReplayNextSyscall at missed
    split at missed
    · cases missed
      exact Or.inl rfl
    · have refused := congrArg Prod.snd missed
      simp only at refused
      cases read : reader.rrReplayNextEvent.2 with
      | error code =>
          rw [read] at refused
          cases refused
          exact rrReplayNextEvent_errno read
      | ok event =>
          rw [read] at refused
          exact Or.inr (Or.inr (checkSyscall_errno refused))
  rcases known with rfl | rfl | rfl <;> decide

/-- The replay path of a transfer passes the logged result on unchecked. -/
theorem replayCall_validCount_iff {call : Call} {count : Nat}
    (transfers : call.transfers = some count)
    (reader : Reader) (uthreadId : UInt64) (virtual : Bool) (real : Real) :
    (reader.replayCall call uthreadId virtual real).2.ValidCount count ↔
      ∀ rest event, reader.rrReplayNextSyscall call.wrapper.nr uthreadId = (rest, .ok event) →
        -2 ^ 31 < event.retval.toInt ∧ event.retval.toInt ≤ count := by
  unfold replayCall
  split
  · rename_i rest errno missed
    have positive := rrReplayNextSyscall_errno missed
    have failed : call.wrapper.refused errno = failure errno (call.wrapper.refused errno).out
        (call.wrapper.refused errno).second := by
      cases call <;> first | rfl | cases transfers
    constructor
    · rintro _ other event matched
      rw [missed] at matched
      cases matched
    · intro _
      rw [failed]
      exact Or.inl ⟨rfl, errno, rfl, positive⟩
  · rename_i rest event matched
    have passed : (call.wrapper.replay virtual real event).ret = (rawToSsize event.retval).1 ∧
        (call.wrapper.replay virtual real event).errno = (rawToSsize event.retval).2 := by
      cases call <;> first | exact ⟨rfl, rfl⟩ | cases transfers
    rw [CallResult.validCount_iff passed.1 passed.2]
    constructor
    · rintro valid _ _ again
      rw [matched] at again
      cases again
      exact valid
    · intro valid
      exact valid rest event matched

end Reader

namespace State

/-- The call that returned last gave a valid count. -/
def CountsValidly (t : State) (call : Call) (count : Nat) : Prop :=
  ∃ id result, t.history.getLast? = some (.returned id call result) ∧ result.ValidCount count

/-- Whatever file is replayed, a transfer returns a valid count exactly if its event is refused or
holds a result above -2^31 and no greater than the count of the caller. -/
theorem replayed_count_valid_iff {program : Program} {stackSize : Nat} {virtualTime : Bool}
    {file : Bytes} {inputs : List Input} {s t : State} {call : Call} {count : Nat}
    {answer : Answer}
    (reached : exec (Librr.step program) (replayStart stackSize virtualTime (some file)) inputs =
      some s)
    (about : s.AboutToCall program call) (transfers : call.transfers = some count)
    (taken : Librr.step program s (.act answer) = some t) :
    t.CountsValidly call count ↔
      ∀ rest event,
        s.reader.rrReplayNextSyscall call.wrapper.nr s.sched.currentId = (rest, .ok event) →
        -2 ^ 31 < event.retval.toInt ∧ event.retval.toInt ≤ count := by
  obtain ⟨_, returned⟩ := (about.replaying reached).call_returns about taken
  rw [← Reader.replayCall_validCount_iff transfers s.reader s.sched.currentId
    s.config.replayTimeVirtual answer.real]
  constructor
  · rintro ⟨id, result, seen, valid⟩
    rw [returned] at seen
    cases seen
    exact valid
  · intro valid
    exact ⟨_, _, returned, valid⟩

/-- A `read` of three bytes is said to have read a hundred. -/
theorem forged_count_exceeds : ∃ s t,
    s = replayStart 8192 true (some (forgedLog Nr.read 100 0)) ∧
    s.AboutToCall (callOnce (.read 3 (some [0, 0, 0]) 3)) (.read 3 (some [0, 0, 0]) 3) ∧
    Librr.step (callOnce (.read 3 (some [0, 0, 0]) 3)) s (.act .calm) = some t ∧
    t.history = [.returned 1 (.read 3 (some [0, 0, 0]) 3) ⟨100, none, some [0, 0, 0], none⟩] ∧
    ¬ t.CountsValidly (.read 3 (some [0, 0, 0]) 3) 3 := by
  have about : AboutToCall (callOnce (.read 3 (some [0, 0, 0]) 3))
      (replayStart 8192 true (some (forgedLog Nr.read 100 0))) (.read 3 (some [0, 0, 0]) 3) :=
    ⟨by decide +kernel, by decide +kernel, by decide +kernel⟩
  have runs : (Librr.step (callOnce (.read 3 (some [0, 0, 0]) 3))
      (replayStart 8192 true (some (forgedLog Nr.read 100 0))) (.act .calm)).map State.history =
      some [.returned 1 (.read 3 (some [0, 0, 0]) 3) ⟨100, none, some [0, 0, 0], none⟩] := by
    decide +kernel
  obtain ⟨t, taken, history⟩ := Option.map_eq_some_iff.mp runs
  refine ⟨_, t, rfl, about, taken, history, ?_⟩
  rintro ⟨id, result, seen, valid⟩
  rw [history] at seen
  cases seen
  rcases valid with ⟨failed, -⟩ | ⟨-, fits⟩
  · exact absurd failed (by decide)
  · exact absurd fits (by decide)

/-- A log that says a `write` of two bytes wrote two. -/
theorem genuine_count_valid : ∃ s t,
    s = replayStart 8192 true (some (forgedLog Nr.write 2 0)) ∧
    Librr.step (callOnce (.write 3 [1, 2])) s (.act .calm) = some t ∧
    t.CountsValidly (.write 3 [1, 2]) 2 := by
  have about : AboutToCall (callOnce (.write 3 [1, 2]))
      (replayStart 8192 true (some (forgedLog Nr.write 2 0))) (.write 3 [1, 2]) :=
    ⟨by decide +kernel, by decide +kernel, by decide +kernel⟩
  have runs : (Librr.step (callOnce (.write 3 [1, 2]))
      (replayStart 8192 true (some (forgedLog Nr.write 2 0))) (.act .calm)).isSome := by
    decide +kernel
  have found : ((replayStart 8192 true (some (forgedLog Nr.write 2 0))).reader.rrReplayNextSyscall
      (Call.write 3 [1, 2]).wrapper.nr (replayStart 8192 true
        (some (forgedLog Nr.write 2 0))).sched.currentId).2.toOption.map ReplayEvent.retval =
      some 2 := by decide +kernel
  obtain ⟨t, taken⟩ := Option.isSome_iff_exists.mp runs
  refine ⟨_, t, rfl, taken, ?_⟩
  apply (replayed_count_valid_iff (exec_nil _ _) about rfl taken).mpr
  intro rest event matched
  rw [matched] at found
  have retval : event.retval = 2 := Option.some.inj found
  rw [retval]
  decide

end State

end Librr
