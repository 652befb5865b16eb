import Librr.ReplayFacts

set_option autoImplicit false

namespace Librr

/-- The wrappers that go through io_uring. -/
def Call.Asynchronous : Call → Prop
  | .read .. | .write .. | .recv .. | .send .. | .accept .. | .connect .. | .openat .. | .close ..
  | .nanosleep .. => True
  | _ => False

/-- The results a completion can have, a failed submission included: at least -4095, and
for a call that fills a buffer as many bytes as are stored, no more than were asked for. -/
def Call.Reports (call : Call) (raw : Int32) (data : Bytes) : Prop :=
  -4095 ≤ raw.toInt ∧
    match call with
    | .read _ _ count => raw.toInt ≤ count ∧ data.length = raw.toInt.toNat
    | .recv _ _ len _ => raw.toInt ≤ len ∧ data.length = raw.toInt.toNat
    | _ => True

/-- The results of the plain functions a wrapper calls: -1 with a positive `errno`, or no
more than was asked for. -/
def Call.Answers (call : Call) (answer : Answer) : Prop :=
  match call with
  | .read _ _ count => answer.real.rc = -1 ∧ 0 < answer.real.errno ∨
    0 ≤ answer.real.rc ∧ answer.real.rc ≤ count
  | .write _ buf => answer.real.rc = -1 ∧ 0 < answer.real.errno ∨
    0 ≤ answer.real.rc ∧ answer.real.rc ≤ buf.length
  | .nanosleep req _ => (∀ errno, answer.timerfdCreate = .error errno → 0 < errno) ∧
    ∀ errno, answer.timerfdSettime req = some errno → 0 < errno
  | _ => True

/-- Every way through the record path of an asynchronous wrapper, with what it returns
and what it logs. -/
inductive Call.Records (call : Call) (result : CallResult) (args : LogArgs) : Prop where
  | direct (answer : Answer) (answers : call.Answers answer)
    (done : call.wrapper.issue answer = .done result args)
  | completed (submits : call.Submits) (raw : Int32) (data : Bytes)
    (reports : call.Reports raw data) (finish : Int32 → Bytes → CallResult × LogArgs)
    (half : call.wrapper.finish = some finish)
    (ended : finish raw data = (result, args))

theorem Call.Records.outcome {call : Call} {result : CallResult} {args : LogArgs}
    (records : call.Records result args) : call.Outcome result args := by
  cases records with
  | direct answer answers done => exact .inl ⟨answer, done⟩
  | completed submits raw data reports finish half ended =>
      exact .inr ⟨submits, finish, raw, data, half, ended⟩

theorem rawToSsize_toLogInt {real : Real}
    (sane : real.rc = -1 ∧ 0 < real.errno ∨ 0 ≤ real.rc ∧ real.rc ≤ 0)
    (out second : Option Bytes) :
    rawToSsize (toLogInt real) =
      ((realResult real out second).ret, (realResult real out second).errno) := by
  rcases sane with ⟨failed, positive⟩ | ⟨lower, upper⟩
  · simp only [toLogInt, realResult]
    rw [if_pos failed, if_pos failed, rawToSsize_failed positive, failed]
  · have apart : real.rc ≠ -1 := by omega
    simp only [toLogInt, realResult, if_neg apart, rawToSsize_success lower (by omega)]

theorem toLogInt_nonpositive {real : Real}
    (sane : real.rc = -1 ∧ 0 < real.errno ∨ 0 ≤ real.rc ∧ real.rc ≤ 0) :
    ¬ (0 : Int32) < toLogInt real := by
  rcases sane with ⟨failed, positive⟩ | ⟨lower, upper⟩
  · rw [toLogInt, if_pos failed]
    exact Int32.lt_asymm (neg_errno_lt positive)
  · have zero : real.rc = 0 := by omega
    rw [toLogInt, if_neg (by omega), zero]
    decide

/-- Whatever an asynchronous wrapper returns is what its logged value stands for. -/
theorem Call.Records.raw {call : Call} (asynchronous : call.Asynchronous) {result : CallResult}
    {args : LogArgs} (records : call.Records result args) :
    rawToSsize args.retval = (result.ret, result.errno) := by
  cases records with
  | direct answer answers done =>
      cases call with
      | read fd buf count =>
          simp only [Call.wrapper, Wrapper.read, bufferWrapper] at done
          split at done
          · rename_i empty
            subst empty
            cases done
            exact rawToSsize_toLogInt answers buf none
          · cases done
      | write fd buf =>
          simp only [Call.wrapper, Wrapper.write, resultWrapper] at done
          split at done
          · rename_i empty
            simp only [Call.Answers, empty] at answers
            cases done
            exact rawToSsize_toLogInt answers none none
          · cases done
      | nanosleep req rem =>
          simp only [Call.wrapper, Wrapper.nanosleep] at done
          split at done
          · rename_i errno refused
            cases done
            exact rawToSsize_failed (answers.1 errno refused)
          · split at done
            · rename_i errno refused
              cases done
              exact rawToSsize_failed (answers.2 errno refused)
            · cases done
      | recv sockfd buf len flags => cases done
      | send sockfd buf flags => cases done
      | accept sockfd addr addrlen => cases done
      | connect sockfd addr => cases done
      | openat dirfd pathname flags mode => cases done
      | close fd => cases done
      | clockGettime clockId tp => exact asynchronous.elim
      | gettimeofday tv tz => exact asynchronous.elim
      | getpid => exact asynchronous.elim
      | getuid => exact asynchronous.elim
      | uname buf => exact asynchronous.elim
      | stat path st => exact asynchronous.elim
      | fstat fd st => exact asynchronous.elim
      | lstat path st => exact asynchronous.elim
      | getcwd buf size => exact asynchronous.elim
  | completed submits raw data reports finish half ended =>
      cases call with
      | nanosleep req rem =>
          cases half
          simp only at ended
          split at ended
          · rename_i negative
            cases ended
            rw [rawToSsize, if_pos negative]
            rfl
          · cases ended
            rfl
      | read fd buf count => cases half; cases ended; rfl
      | write fd buf => cases half; cases ended; rfl
      | recv sockfd buf len flags => cases half; cases ended; rfl
      | send sockfd buf flags => cases half; cases ended; rfl
      | accept sockfd addr addrlen => cases half; cases ended; rfl
      | connect sockfd addr => cases half; cases ended; rfl
      | openat dirfd pathname flags mode => cases half; cases ended; rfl
      | close fd => cases half; cases ended; rfl
      | clockGettime clockId tp => exact asynchronous.elim
      | gettimeofday tv tz => exact asynchronous.elim
      | getpid => exact asynchronous.elim
      | getuid => exact asynchronous.elim
      | uname buf => exact asynchronous.elim
      | stat path st => exact asynchronous.elim
      | fstat fd st => exact asynchronous.elim
      | lstat path st => exact asynchronous.elim
      | getcwd buf size => exact asynchronous.elim

/-- The replay path of such a wrapper goes by the logged value alone. -/
theorem Call.replay_raw {call : Call} (asynchronous : call.Asynchronous) (virtual : Bool)
    (real : Real) (event : ReplayEvent) :
    ((call.wrapper.replay virtual real event).ret,
      (call.wrapper.replay virtual real event).errno) = rawToSsize event.retval := by
  cases call with
  | clockGettime clockId tp => exact asynchronous.elim
  | gettimeofday tv tz => exact asynchronous.elim
  | getpid => exact asynchronous.elim
  | getuid => exact asynchronous.elim
  | uname buf => exact asynchronous.elim
  | stat path st => exact asynchronous.elim
  | fstat fd st => exact asynchronous.elim
  | lstat path st => exact asynchronous.elim
  | getcwd buf size => exact asynchronous.elim
  | _ => rfl

/-- The caller's buffer of a call that fills one. -/
def Call.buffer : Call → Option Bytes
  | .read _ buf _ => buf
  | .recv _ buf _ _ => buf
  | _ => none

/-- The same call in another process, where the buffer holds something else. -/
def Call.onto (call : Call) (object : Bytes) : Call :=
  match call with
  | .read fd (some _) count => .read fd (some object) count
  | .recv sockfd (some _) len flags => .recv sockfd (some object) len flags
  | other => other

theorem Call.onto_asynchronous {call : Call} (asynchronous : call.Asynchronous) (object : Bytes) :
    (call.onto object).Asynchronous ∧ (call.onto object).number = call.number := by
  cases call with
  | read fd buf count => cases buf <;> exact ⟨trivial, rfl⟩
  | recv sockfd buf len flags => cases buf <;> exact ⟨trivial, rfl⟩
  | _ => exact ⟨asynchronous, rfl⟩

theorem int32_pos {raw : Int32} : 0 < raw ↔ 0 < raw.toInt := Int32.lt_iff_toInt_lt

/-- Out of an event come the first 64 bytes of what was logged. -/
theorem event_front (args : LogArgs) {bytes : Bytes} (stored : args.data = some bytes)
    (enough : args.dataLen ≤ bytes.length) (seq : UInt64) :
    (args.event seq).dataLen = min args.dataLen 64 ∧
      (args.event seq).data.val.take (min args.dataLen 64) = bytes.take (min args.dataLen 64) := by
  have capped : args.capped = min args.dataLen 64 := by
    rw [LogArgs.capped, stored]
    exact if_neg (Option.some_ne_none bytes)
  refine ⟨capped, ?_⟩
  have length : (bytes.take (min args.dataLen 64)).length = min args.dataLen 64 := by
    rw [List.length_take]
    omega
  have front : (args.event seq).data.val = (bytes.take (min args.dataLen 64)).takeD 64 0 := by
    simp only [LogArgs.event, EventData.ofBytes, stored, Option.getD_some, capped]
  rw [front]
  have whole : ((bytes.take (min args.dataLen 64)).takeD 64 0).take
      (bytes.take (min args.dataLen 64)).length = bytes.take (min args.dataLen 64) :=
    take_takeD (by omega)
  rw [length] at whole
  exact whole

/-- What the replay path of `read` and `recv` copies, after the clamps to the result, to
the count and to the logged length. -/
theorem bufferWrapper_replay_copied {nr fd : Int32} {object : Bytes} {count : Nat}
    {issue : Answer → Begun} {args : LogArgs} {bytes : Bytes} {n : Nat} (positive : 0 < n)
    (returned : args.retval.toInt = n) (fits : n ≤ count) (stored : args.data = some bytes)
    (length : args.dataLen = n) (enough : n ≤ bytes.length) (virtual : Bool) (real : Real)
    (seq : UInt64) :
    ((bufferWrapper nr fd (some object) count issue).replay virtual real (args.event seq)).out =
      some (bytes.take (min n 64) ++ object.drop (min n 64)) := by
  obtain ⟨logged, front⟩ := event_front args stored (by omega) seq
  rw [length] at logged front
  have retval : (args.event seq).retval = args.retval := rfl
  have filled : (0 : Int32) < args.retval := int32_pos.mpr (by omega)
  have toCopy : min (min (args.retval.toInt.toNat) count) (min n 64) = min n 64 := by
    rw [returned, Int.toNat_natCast]
    omega
  have taken : (bytes.take (min n 64)).length = min n 64 := by
    rw [List.length_take]
    omega
  simp only [bufferWrapper, retval, if_pos filled, logged, toCopy, front, Option.map_some,
    overwrite, taken]

/-- The bytes of a buffer after a read of `data` into it. -/
theorem bufferWrapper_replay_completed {nr fd : Int32} {old object : Bytes} {count : Nat}
    {issue issue' : Answer → Begun} {finish : Int32 → Bytes → CallResult × LogArgs} {raw : Int32}
    {data : Bytes} {result : CallResult} {args : LogArgs}
    (half : (bufferWrapper nr fd (some old) count issue).finish = some finish)
    (ended : finish raw data = (result, args)) (bounded : raw.toInt ≤ count)
    (length : data.length = raw.toInt.toNat) (positive : 0 < result.ret) (virtual : Bool)
    (real : Real) (seq : UInt64) :
    ((bufferWrapper nr fd (some object) count issue').replay virtual real (args.event seq)).out =
      result.out.map fun recorded => recorded.take (min result.ret.toNat 64) ++
        object.drop (min result.ret.toNat 64) := by
  cases half
  cases ended
  have filled : 0 < raw.toInt := by
    by_contra none
    have empty := ret_toNat_rawToSsize raw
    rw [if_neg (fun positive => none (int32_pos.mp positive))] at empty
    simp only at positive
    omega
  have value : (rawToSsize raw).1.toNat = raw.toInt.toNat := by
    rw [ret_toNat_rawToSsize, if_pos (int32_pos.mpr filled)]
  simp only [Option.map_some, value]
  refine bufferWrapper_replay_copied (by omega) (by simp only; omega) (by omega) rfl ?_ ?_ _ _ _
  · exact if_pos (int32_pos.mpr filled)
  · simp only [overwrite, List.length_append]
    omega

/-- The clause on the buffer for every asynchronous call. -/
theorem Call.Records.buffer {call : Call} {result : CallResult} {args : LogArgs}
    (records : call.Records result args) {old : Bytes} (filled : call.buffer = some old)
    (positive : 0 < result.ret) (object : Bytes) (virtual : Bool) (real : Real) (seq : UInt64) :
    ((call.onto object).wrapper.replay virtual real (args.event seq)).out =
      result.out.map fun recorded => recorded.take (min result.ret.toNat 64) ++
        object.drop (min result.ret.toNat 64) := by
  cases records with
  | direct answer answers done =>
      cases call with
      | read fd buf count =>
          simp only [Call.wrapper, Wrapper.read, bufferWrapper] at done
          split at done
          · -- A read of no bytes returns none.
            rename_i empty
            simp only [Call.Answers, empty] at answers
            cases done
            simp only [realResult] at positive
            omega
          · cases done
      | recv sockfd buf len flags => cases done
      | _ => cases filled
  | completed submits raw data reports finish half ended =>
      cases call with
      | read fd buf count =>
          cases filled
          exact bufferWrapper_replay_completed half ended reports.2.1 reports.2.2 positive _ _ _
      | recv sockfd buf len flags =>
          cases filled
          exact bufferWrapper_replay_completed half ended reports.2.1 reports.2.2 positive _ _ _
      | _ => cases filled

/-- A front of one object before the rest of another is the first object exactly if they
agree behind the front. -/
theorem take_append_drop_iff {bytes object : Bytes} {m : Nat} :
    bytes.take m ++ object.drop m = bytes ↔ bytes.drop m = object.drop m := by
  constructor
  · intro same
    exact (List.append_cancel_left (same.trans (List.take_append_drop m bytes).symm)).symm
  · intro same
    rw [← same, List.take_append_drop]

/-- Behind its first 64 bytes the object is what it was before the call. -/
def CallResult.KeepsTail (result : CallResult) (object : Option Bytes) : Prop :=
  result.out.map (List.drop 64) = object.map (List.drop 64)

/-- The result fits one event, which has 64 bytes for one object and a signed result of 32
bits. Nothing else is logged: neither the address `accept` stores, nor what is left of a
sleep, nor the time zone. -/
def Call.FitsEvent (call : Call) (result : CallResult) : Prop :=
  match call with
  | .read _ buf _ => result.KeepsTail buf
  | .recv _ buf _ _ => result.KeepsTail buf
  | .accept _ addr addrlen => result.out = addr ∧ result.second = addrlen
  | .nanosleep _ rem => result.out = rem
  | .gettimeofday _ tz => result.second = tz
  | .getuid => result.ret < 2 ^ 31
  | .uname buf => result.KeepsTail buf
  | .stat _ st | .fstat _ st | .lstat _ st => result.KeepsTail (some st)
  | .getcwd buf size => result.ret = 0 ∨
    buf ≠ none ∧ Wrapper.pathLength (result.out.getD []) size ≤ 64
  | _ => True

/-- What was read comes back whole exactly if it is at most 64 bytes, or if the rest of it
is in the buffer already. -/
theorem bufferWrapper_out_iff {nr fd : Int32} {buf : Option Bytes} {count : Nat}
    {issue : Answer → Begun} {finish : Int32 → Bytes → CallResult × LogArgs} {raw : Int32}
    {data : Bytes} {result : CallResult} {args : LogArgs}
    (half : (bufferWrapper nr fd buf count issue).finish = some finish)
    (ended : finish raw data = (result, args)) (bounded : raw.toInt ≤ count)
    (length : data.length = raw.toInt.toNat) (virtual : Bool) (real : Real) (seq : UInt64) :
    ((bufferWrapper nr fd buf count issue).replay virtual real (args.event seq)).out =
      result.out ↔ result.KeepsTail buf := by
  have stored : result.out = buf.map (overwrite · data) := by cases half; cases ended; rfl
  have retval : args.retval = raw := by cases half; cases ended; rfl
  have value : result.ret.toNat = if 0 < raw then raw.toInt.toNat else 0 := by
    cases half
    cases ended
    exact ret_toNat_rawToSsize raw
  simp only [CallResult.KeepsTail]
  cases buf with
  | none => simp [stored, bufferWrapper]
  | some object =>
      by_cases filled : 0 < raw
      · have positive := int32_pos.mp filled
        rw [if_pos filled, ← length] at value
        rw [bufferWrapper_replay_completed half ended bounded length (by omega), value]
        simp only [stored, Option.map_some, Option.some.injEq]
        rw [take_append_drop_iff]
        rcases Nat.le_total data.length 64 with short | long
        · have behind : ∀ m, data.length ≤ m →
              (overwrite object data).drop m = object.drop m := by
            intro m past
            rw [overwrite, List.drop_append, List.drop_eq_nil_of_le past, List.nil_append,
              List.drop_drop]
            congr 1
            omega
          rw [Nat.min_eq_left short]
          exact iff_of_true (behind _ (Nat.le_refl _)) (behind 64 short)
        · rw [Nat.min_eq_right long]
      · have empty : data = [] := by
          rw [← List.length_eq_zero_iff, length]
          have nonpositive : ¬ 0 < raw.toInt := fun positive => filled (int32_pos.mpr positive)
          omega
        have kept : (args.event seq).retval = raw := retval
        simp [stored, empty, overwrite_nil, bufferWrapper, kept, filled]

/-- Replay gives the result of an asynchronous call back exactly if it fits the event. -/
theorem Call.Records.replayed_iff {call : Call} (asynchronous : call.Asynchronous)
    {result : CallResult} {args : LogArgs} (records : call.Records result args) :
    call.replayed result = result ↔ call.FitsEvent result := by
  have logged := records.outcome.logged
  have same := (Call.replay_raw asynchronous true ⟨0, 0, [], []⟩ (args.event 0)).trans
    (records.raw asynchronous)
  obtain ⟨ret, errno⟩ := Prod.mk.inj same
  have objects : call.replayed result = result ↔
      (call.wrapper.replay true ⟨0, 0, [], []⟩ (args.event 0)).out = result.out ∧
      (call.wrapper.replay true ⟨0, 0, [], []⟩ (args.event 0)).second = result.second := by
    rw [Call.replayed, ← logged, CallResult.ext_iff]
    simp only [ret, errno, true_and]
  rw [objects]
  cases records with
  | direct answer answers done =>
      cases call with
      | read fd buf count =>
          simp only [Call.wrapper, Wrapper.read, bufferWrapper] at done
          split at done
          · -- A read of no bytes returns none and leaves the buffer alone.
            rename_i empty
            simp only [Call.Answers, empty] at answers
            cases done
            have nonpositive : ¬ (0 : Int32) < toLogInt answer.real :=
              toLogInt_nonpositive answers
            simp [Call.wrapper, Wrapper.read, bufferWrapper, LogArgs.event, nonpositive,
              realResult, Call.FitsEvent, CallResult.KeepsTail]
          · cases done
      | write fd buf =>
          simp only [Call.wrapper, Wrapper.write, resultWrapper] at done
          split at done <;> cases done
          exact iff_of_true ⟨rfl, rfl⟩ trivial
      | nanosleep req rem =>
          simp only [Call.wrapper, Wrapper.nanosleep] at done
          split at done
          · cases done
            exact iff_of_true ⟨rfl, rfl⟩ rfl
          · split at done <;> cases done
            exact iff_of_true ⟨rfl, rfl⟩ rfl
      | recv sockfd buf len flags => cases done
      | send sockfd buf flags => cases done
      | accept sockfd addr addrlen => cases done
      | connect sockfd addr => cases done
      | openat dirfd pathname flags mode => cases done
      | close fd => cases done
      | _ => exact asynchronous.elim
  | completed submits raw data reports finish half ended =>
      cases call with
      | read fd buf count =>
          have single : result.second = none := by cases half; cases ended; rfl
          exact (and_iff_left single.symm).trans
            (bufferWrapper_out_iff half ended reports.2.1 reports.2.2 _ _ _)
      | recv sockfd buf len flags =>
          have single : result.second = none := by cases half; cases ended; rfl
          exact (and_iff_left single.symm).trans
            (bufferWrapper_out_iff half ended reports.2.1 reports.2.2 _ _ _)
      | accept sockfd addr addrlen => exact and_congr eq_comm eq_comm
      | nanosleep req rem =>
          have single : result.second = none := by
            cases half
            simp only at ended
            split at ended <;> cases ended <;> rfl
          exact (and_iff_left single.symm).trans eq_comm
      | write fd buf => cases half; cases ended; exact iff_of_true ⟨rfl, rfl⟩ trivial
      | send sockfd buf flags => cases half; cases ended; exact iff_of_true ⟨rfl, rfl⟩ trivial
      | connect sockfd addr => cases half; cases ended; exact iff_of_true ⟨rfl, rfl⟩ trivial
      | openat dirfd pathname flags mode =>
          cases half; cases ended; exact iff_of_true ⟨rfl, rfl⟩ trivial
      | close fd => cases half; cases ended; exact iff_of_true ⟨rfl, rfl⟩ trivial
      | _ => exact asynchronous.elim

/-- For every asynchronous wrapper and every way through its record path, the replay path
finds its event and returns the same value and the same `errno`; and if bytes were read,
the caller's buffer has the first 64 of them in front and is otherwise what it was. -/
theorem async_replay_returns_recorded {call : Call} (asynchronous : call.Asynchronous)
    {result : CallResult} {args : LogArgs} (records : call.Records result args) (object : Bytes)
    (seq uthreadId : UInt64) (virtual : Bool) (real : Real) :
    ∃ event,
      Reader.checkSyscall (call.onto object).wrapper.nr uthreadId
        ⟨seq, uthreadId, args.payload⟩ = .ok event ∧
      ((call.onto object).wrapper.replay virtual real event).ret = result.ret ∧
      ((call.onto object).wrapper.replay virtual real event).errno = result.errno ∧
      (∀ old, call.buffer = some old → 0 < result.ret →
        ((call.onto object).wrapper.replay virtual real event).out =
          result.out.map fun recorded => recorded.take (min result.ret.toNat 64) ++
            object.drop (min result.ret.toNat 64)) := by
  obtain ⟨kept, number⟩ := Call.onto_asynchronous asynchronous object
  have nr : (call.onto object).wrapper.nr = args.nr := by
    rw [Call.number_eq, number, records.outcome.logged]
    rfl
  have same := (Call.replay_raw kept virtual real (args.event seq)).trans
    (records.raw asynchronous)
  obtain ⟨ret, errno⟩ := Prod.mk.inj same
  refine ⟨args.event seq, ?_, ret, errno, ?_⟩
  · rw [nr]
    exact checkSyscall_logged args seq uthreadId
  · intro old filled positive
    exact records.buffer filled positive object virtual real seq

/-- Seventy bytes are read and the first 64 of them come back. -/
theorem long_read_replayed :
    ∃ result args, (Call.read 3 (some (List.replicate 80 0)) 80).Records result args ∧
      0 < result.ret ∧
      ∃ event, Reader.checkSyscall Nr.read 1 ⟨1, 1, args.payload⟩ = .ok event ∧
        ((Call.read 3 (some (List.replicate 80 9)) 80).wrapper.replay true ⟨0, 0, [], []⟩
          event).ret = result.ret := by
  have records : (Call.read 3 (some (List.replicate 80 0)) 80).Records
      ⟨70, none, some (List.replicate 70 7 ++ List.replicate 10 0), none⟩
      ⟨Nr.read, 70, 3, some (List.replicate 70 7 ++ List.replicate 10 0), 70⟩ :=
    .completed ⟨⟨⟨true, 0, none, true, true, true, true, true, true⟩, ⟨0, 0, [], []⟩, true, .ok 0,
      fun _ => none⟩, _, rfl⟩ 70 (List.replicate 70 7)
      ⟨by decide, by decide, by decide⟩ _ rfl (by decide +kernel)
  have asynchronous : (Call.read 3 (some (List.replicate 80 0)) 80).Asynchronous := trivial
  obtain ⟨event, found, ret, _⟩ := async_replay_returns_recorded asynchronous records
    (List.replicate 80 9) 1 1 true ⟨0, 0, [], []⟩
  exact ⟨_, _, records, by decide, event, found, ret⟩

end Librr
