import Librr.Frames

set_option autoImplicit false

namespace Librr

/-- The system call number a wrapped function goes by in the log. -/
def Call.number : Call → Int32
  | .read .. => Nr.read
  | .write .. => Nr.write
  | .recv .. => Nr.recvfrom
  | .send .. => Nr.sendto
  | .accept .. => Nr.accept
  | .connect .. => Nr.connect
  | .openat .. => Nr.openat
  | .close .. => Nr.close
  | .nanosleep .. => Nr.nanosleep
  | .clockGettime .. => Nr.clockGettime
  | .gettimeofday .. => Nr.gettimeofday
  | .getpid => Nr.getpid
  | .getuid => Nr.getuid
  | .uname .. => Nr.uname
  | .stat .. => Nr.stat
  | .fstat .. => Nr.fstat
  | .lstat .. => Nr.lstat
  | .getcwd .. => Nr.getcwd

/-- The first argument as a 64-bit number, and 0 where the log leaves it out. -/
def Call.arg0 : Call → UInt64
  | .read fd .. => argOfInt fd
  | .write fd .. => argOfInt fd
  | .recv sockfd .. => argOfInt sockfd
  | .send sockfd .. => argOfInt sockfd
  | .accept sockfd .. => argOfInt sockfd
  | .connect sockfd .. => argOfInt sockfd
  | .openat dirfd .. => argOfInt dirfd
  | .close fd => argOfInt fd
  | .clockGettime clockId _ => argOfInt clockId
  | .stat path _ => path
  | .fstat fd _ => argOfInt fd
  | .lstat path _ => path
  | .getcwd _ size => UInt64.ofNat size
  | _ => 0

/-- A result in 32 bits: minus the `errno` of a failure, or the value itself. -/
def logInt (ret : Int) : Option Int32 → Int32
  | some errno => -errno
  | none => Int32.ofInt ret

/-- The result the log has for a completed call. A successful `getcwd` or
`nanosleep` counts as 0. -/
def Call.loggedResult (call : Call) (result : CallResult) : Int32 :=
  match call with
  | .getcwd .. => logInt 0 result.errno
  | .nanosleep .. => logInt 0 result.errno
  | _ => logInt result.ret result.errno

/-- The bytes the log has for a completed call, before they are cut to 64. -/
def Call.loggedData (call : Call) (result : CallResult) : Option Bytes × Nat :=
  match call with
  | .read _ _ count => if count = 0 then (none, 0) else (result.out, result.ret.toNat)
  | .recv .. => (result.out, result.ret.toNat)
  | .clockGettime .. => (result.out, if result.ret = 0 then 16 else 0)
  | .gettimeofday .. => (result.out, if result.ret = 0 then 16 else 0)
  | .uname .. => (result.out, if result.ret = 0 then 390 else 0)
  | .stat .. => (result.out, if result.ret = 0 then 144 else 0)
  | .fstat .. => (result.out, if result.ret = 0 then 144 else 0)
  | .lstat .. => (result.out, if result.ret = 0 then 144 else 0)
  | .getcwd _ size =>
    if result.ret = 0 then (none, 0)
    else (result.out, Wrapper.pathLength (result.out.getD []) size % 2 ^ 32)
  | _ => (none, 0)

/-- What the log has for a completed call, said from what the caller sees. -/
def Call.logged (call : Call) (result : CallResult) : LogArgs where
  nr := call.number
  retval := call.loggedResult result
  arg0 := call.arg0
  data := (call.loggedData result).1
  dataLen := (call.loggedData result).2

/-- The ways the record path of a wrapper ends: at once, or after a completion or a
failed submission. -/
def Call.Outcome (call : Call) (result : CallResult) (args : LogArgs) : Prop :=
  (∃ answer, call.wrapper.issue answer = .done result args) ∨
  (call.Submits ∧ ∃ finish raw data, call.wrapper.finish = some finish ∧
    finish raw data = (result, args))

theorem logInt_rawToSsize (raw : Int32) :
    logInt (rawToSsize raw).1 (rawToSsize raw).2 = raw := by
  unfold rawToSsize
  split
  · exact Int32.neg_neg
  · exact Int32.ofInt_toInt raw

theorem logInt_real (real : Real) (out second : Option Bytes) :
    logInt (realResult real out second).ret (realResult real out second).errno = toLogInt real := by
  unfold realResult toLogInt
  split <;> rfl

theorem ret_toNat_rawToSsize (raw : Int32) :
    (rawToSsize raw).1.toNat = if 0 < raw then raw.toInt.toNat else 0 := by
  unfold rawToSsize
  split
  · rename_i negative
    have nonpositive : ¬ (0 : Int32) < raw := by
      rw [Int32.lt_iff_toInt_lt] at negative ⊢
      have zero : (0 : Int32).toInt = 0 := rfl
      omega
    simp [nonpositive]
  · rename_i nonnegative
    split
    · rfl
    · rename_i nonpositive
      rw [Int32.lt_iff_toInt_lt] at nonnegative nonpositive
      have zero : (0 : Int32).toInt = 0 := rfl
      simp only
      omega

theorem Call.number_eq (call : Call) : call.wrapper.nr = call.number := by
  cases call <;> rfl

/-- The wrappers that pass a completion on, and those that fill a buffer, log what
their caller sees. -/
theorem resultWrapper_finish {nr fd : Int32} {issue : Answer → Begun}
    {finish : Int32 → Bytes → CallResult × LogArgs} {raw : Int32} {data : Bytes}
    {result : CallResult} {args : LogArgs}
    (half : (resultWrapper nr fd issue).finish = some finish)
    (ended : finish raw data = (result, args)) :
    args = ⟨nr, logInt result.ret result.errno, argOfInt fd, none, 0⟩ := by
  cases half
  cases ended
  simp only [LogArgs.mk.injEq, and_true, true_and]
  exact (logInt_rawToSsize raw).symm

theorem bufferWrapper_finish {nr fd : Int32} {buf : Option Bytes} {count : Nat}
    {issue : Answer → Begun} {finish : Int32 → Bytes → CallResult × LogArgs} {raw : Int32}
    {data : Bytes} {result : CallResult} {args : LogArgs}
    (half : (bufferWrapper nr fd buf count issue).finish = some finish)
    (ended : finish raw data = (result, args)) :
    args = ⟨nr, logInt result.ret result.errno, argOfInt fd, result.out, result.ret.toNat⟩ := by
  cases half
  cases ended
  simp only [LogArgs.mk.injEq, true_and]
  exact ⟨(logInt_rawToSsize raw).symm, (ret_toNat_rawToSsize raw).symm⟩

theorem structWrapper_done {nr : Int32} {arg0 : UInt64} {object : Option Bytes} {size : Nat}
    {timed : Bool} {tz : Option Bytes} {answer : Answer} {result : CallResult} {args : LogArgs}
    (done : (structWrapper nr arg0 object size timed tz).issue answer = .done result args) :
    args = ⟨nr, logInt result.ret result.errno, arg0, result.out,
      if result.ret = 0 then size else 0⟩ := by
  cases done
  simp only [LogArgs.mk.injEq, true_and]
  exact ⟨(logInt_real _ _ _).symm, rfl, rfl⟩

theorem zeroCount_done {nr fd : Int32} {out : Option Bytes} {real : Real} {result : CallResult}
    {args : LogArgs} (done : zeroCount nr fd out real = .done result args) :
    args = ⟨nr, logInt result.ret result.errno, argOfInt fd, none, 0⟩ := by
  cases done
  simp only [LogArgs.mk.injEq, and_true, true_and]
  exact (logInt_real _ _ _).symm

/-- Every way out of every wrapper logs the call once, by what its caller sees. -/
theorem Call.Outcome.logged {call : Call} {result : CallResult} {args : LogArgs}
    (outcome : call.Outcome result args) : args = call.logged result := by
  rcases outcome with ⟨answer, done⟩ | ⟨⟨answer, op, submits⟩, finish, raw, data, half, ended⟩
  · cases call with
    | read fd buf count =>
        simp only [Call.wrapper, Wrapper.read, bufferWrapper] at done
        split at done
        · rename_i empty
          rw [zeroCount_done done, Call.logged, Call.loggedData, if_pos empty]
          rfl
        · cases done
    | write fd buf =>
        simp only [Call.wrapper, Wrapper.write, resultWrapper] at done
        split at done
        · exact zeroCount_done done
        · cases done
    | nanosleep req rem =>
        simp only [Call.wrapper, Wrapper.nanosleep] at done
        split at done
        · cases done
          rfl
        · split at done
          · cases done
            rfl
          · cases done
    | clockGettime clockId tp => exact structWrapper_done done
    | gettimeofday tv tz => exact structWrapper_done done
    | uname buf => exact structWrapper_done done
    | stat path st => exact structWrapper_done done
    | fstat fd st => exact structWrapper_done done
    | lstat path st => exact structWrapper_done done
    | getcwd buf size =>
        simp only [Call.wrapper, Wrapper.getcwd] at done
        split at done <;> cases done <;> rfl
    | getpid => cases done; rfl
    | getuid => cases done; rfl
    | recv sockfd buf len flags => cases done
    | send sockfd buf flags => cases done
    | accept sockfd addr addrlen => cases done
    | connect sockfd addr => cases done
    | openat dirfd pathname flags mode => cases done
    | close fd => cases done
  · cases call with
    | read fd buf count =>
        have positive : count ≠ 0 := by
          rintro rfl
          cases submits
        have logged := bufferWrapper_finish half ended
        rw [logged, Call.logged, Call.loggedData, if_neg positive]
        rfl
    | recv sockfd buf len flags => exact bufferWrapper_finish half ended
    | write fd buf => exact resultWrapper_finish half ended
    | send sockfd buf flags => exact resultWrapper_finish half ended
    | accept sockfd addr addrlen =>
        cases half
        cases ended
        simp only [Call.logged, Call.loggedResult, Call.loggedData, Call.number, Call.arg0,
          LogArgs.mk.injEq, and_true, true_and]
        exact (logInt_rawToSsize raw).symm
    | connect sockfd addr => exact resultWrapper_finish half ended
    | openat dirfd pathname flags mode => exact resultWrapper_finish half ended
    | close fd => exact resultWrapper_finish half ended
    | nanosleep req rem =>
        cases half
        simp only at ended
        split at ended
        · cases ended
          simp [Call.logged, Call.loggedResult, failure, logInt, Call.loggedData, Call.number,
            Call.arg0]
        · cases ended
          rfl
    | clockGettime clockId tp => cases half
    | gettimeofday tv tz => cases half
    | getpid => cases half
    | getuid => cases half
    | uname buf => cases half
    | stat path st => cases half
    | fstat fd st => cases half
    | lstat path st => cases half
    | getcwd buf size => cases half

/-- What `rr_replay_next_syscall` hands out of a logged call. -/
def LogArgs.event (args : LogArgs) (seq : UInt64) : ReplayEvent where
  seq := seq
  nr := args.nr
  retval := args.retval
  arg0 := args.arg0
  data := .ofBytes ((args.data.getD []).take args.capped)
  dataLen := args.capped

/-- Cutting a padded copy to its own length and padding it again changes nothing. -/
theorem takeD_take_takeD {n m : Nat} (short : n ≤ m) (bytes : Bytes) :
    (((bytes.take n).takeD m 0).take n).takeD m 0 = (bytes.take n).takeD m 0 := by
  induction n generalizing m bytes with
  | zero => rfl
  | succ n ih =>
      obtain ⟨k, rfl⟩ : ∃ k, m = k + 1 := ⟨m - 1, by omega⟩
      cases bytes with
      | nil =>
          have rest := ih (m := k) (by omega) []
          simpa using rest
      | cons byte rest =>
          have rest := ih (m := k) (by omega) rest
          simpa using rest

theorem LogArgs.capped_le (args : LogArgs) : args.capped ≤ 64 := by
  unfold LogArgs.capped
  split <;> omega

/-- Reading back the record of a logged call gives the call's own event. -/
theorem checkSyscall_logged (args : LogArgs) (seq uthreadId : UInt64) :
    Reader.checkSyscall args.nr uthreadId ⟨seq, uthreadId, args.payload⟩ =
      .ok (args.event seq) := by
  have bound := args.capped_le
  have length : (UInt32.ofNat args.capped).toNat = args.capped :=
    UInt32.toNat_ofNat_of_lt' (by have : UInt32.size = 4294967296 := rfl; omega)
  have least : min args.capped 64 = args.capped := by omega
  have data : EventData.ofBytes
      ((EventData.ofBytes ((args.data.getD []).take args.capped)).val.take args.capped) =
      EventData.ofBytes ((args.data.getD []).take args.capped) := by
    apply Subtype.ext
    exact takeD_take_takeD bound _
  simp only [Reader.checkSyscall, LogArgs.payload, ne_eq, not_true_eq_false, ↓reduceIte, length,
    least, data]
  rfl

/-- What replay with virtual time gives the caller of a call that was recorded with
this result. -/
def Call.replayed (call : Call) (result : CallResult) : CallResult :=
  call.wrapper.replay true ⟨0, 0, [], []⟩ ((call.logged result).event 0)

/-- No replay path looks at the number of the event, or at the real function. -/
theorem Call.replay_logged (call : Call) (result : CallResult) (real : Real) (seq : UInt64) :
    call.wrapper.replay true real ((call.logged result).event seq) = call.replayed result := by
  cases call <;> rfl

/-- A failure by the convention of libc. -/
def CallResult.Failed (result : CallResult) (out second : Option Bytes) : Prop :=
  result.ret = -1 ∧ (∃ errno, 0 < errno ∧ result.errno = some errno) ∧ result.out = out ∧
    result.second = second

/-- A success that stores `data` at the front of the caller's object and leaves the
second object as it was. -/
def CallResult.Stored (result : CallResult) (object : Option Bytes) (data : Bytes)
    (second : Option Bytes) : Prop :=
  result.errno = none ∧ result.out = object.map (overwrite · data) ∧ result.second = second

/-- What the kernel gives for a call whose result fits its record: at most 64 bytes,
and no more than were asked for, are read or received; a clock stores 16 bytes, and
the time zone is null or holds already what libc stores in it. -/
def Call.Genuine (call : Call) (result : CallResult) : Prop :=
  match call with
  | .read _ buf count => result.Failed buf none ∨
    ∃ data, result.Stored buf data none ∧ result.ret = data.length ∧ data.length ≤ min count 64
  | .recv _ buf len _ => result.Failed buf none ∨
    ∃ data, result.Stored buf data none ∧ result.ret = data.length ∧ data.length ≤ min len 64
  | .clockGettime _ tp => result.Failed (some tp) none ∨
    ∃ data, result.Stored (some tp) data none ∧ result.ret = 0 ∧ data.length = 16
  | .gettimeofday tv tz => result.Failed tv tz ∨
    ∃ data, result.Stored tv data tz ∧ result.ret = 0 ∧ data.length = 16
  | .write .. | .send .. | .connect .. | .openat .. | .close .. => result.Failed none none ∨
    (result.Stored none [] none ∧ 0 ≤ result.ret ∧ result.ret < 2 ^ 31)
  | .getpid => result.Stored none [] none ∧ 0 ≤ result.ret ∧ result.ret < 2 ^ 31
  | _ => False

theorem neg_errno_lt {errno : Int32} (positive : 0 < errno) : -errno < 0 := by
  rw [Int32.lt_iff_toInt_lt] at positive ⊢
  have zero : (0 : Int32).toInt = 0 := rfl
  have upper := errno.toInt_lt
  have value : (-errno).toInt = -errno.toInt := by
    rw [Int32.toInt_neg, Int.bmod_eq_of_le] <;> omega
  omega

theorem rawToSsize_failed {errno : Int32} (positive : 0 < errno) :
    rawToSsize (-errno) = (-1, some errno) := by
  rw [rawToSsize, if_pos (neg_errno_lt positive), Int32.neg_neg]

theorem toInt_ofInt_small {ret : Int} (lower : 0 ≤ ret) (upper : ret < 2 ^ 31) :
    (Int32.ofInt ret).toInt = ret :=
  Int32.toInt_ofInt_of_le (by omega) upper

theorem rawToSsize_success {ret : Int} (lower : 0 ≤ ret) (upper : ret < 2 ^ 31) :
    rawToSsize (Int32.ofInt ret) = (ret, none) := by
  have nonnegative : ¬ Int32.ofInt ret < 0 := by
    rw [Int32.lt_iff_toInt_lt, toInt_ofInt_small lower upper]
    have zero : (0 : Int32).toInt = 0 := rfl
    omega
  rw [rawToSsize, if_neg nonnegative, toInt_ofInt_small lower upper]

theorem take_takeD {m : Nat} {bytes : Bytes} (short : bytes.length ≤ m) :
    (bytes.takeD m 0).take bytes.length = bytes := by
  induction bytes generalizing m with
  | nil => rfl
  | cons byte rest ih =>
      obtain ⟨k, rfl⟩ : ∃ k, m = k + 1 := ⟨m - 1, by simp at short; omega⟩
      have inner := ih (m := k) (by simpa using short)
      simp [inner]

/-- Bytes that fit the record come back from it. -/
theorem event_data (args : LogArgs) {object data : Bytes}
    (stored : args.data = some (overwrite object data)) (length : args.dataLen = data.length)
    (short : data.length ≤ 64) (seq : UInt64) :
    (args.event seq).dataLen = data.length ∧
      (args.event seq).data.val.take data.length = data := by
  have capped : args.capped = data.length := by
    rw [LogArgs.capped, stored, length]
    simp [short]
  refine ⟨capped, ?_⟩
  have front : (args.data.getD []).take args.capped = data := by
    rw [stored, capped]
    simp [overwrite]
  simp only [LogArgs.event, front]
  exact take_takeD short

theorem CallResult.Failed.eq {result : CallResult} {out second : Option Bytes}
    (failed : result.Failed out second) :
    ∃ errno, 0 < errno ∧ result = ⟨-1, some errno, out, second⟩ := by
  obtain ⟨ret, errno, stored, other⟩ := result
  obtain ⟨rfl, ⟨errno, positive, rfl⟩, rfl, rfl⟩ := failed
  exact ⟨errno, positive, rfl⟩

theorem CallResult.Stored.eq {result : CallResult} {object : Option Bytes} {data : Bytes}
    {second : Option Bytes} (stored : result.Stored object data second) :
    result = ⟨result.ret, none, object.map (overwrite · data), second⟩ := by
  obtain ⟨ret, errno, out, other⟩ := result
  obtain ⟨rfl, rfl, rfl⟩ := stored
  rfl

theorem overwrite_nil (object : Bytes) : overwrite object [] = object := rfl

/-- The replay of `read` and `recv` on the event of a failure, and on that of a
success whose bytes fit. -/
theorem bufferWrapper_replay_failed {nr fd : Int32} {buf : Option Bytes} {count : Nat}
    {issue : Answer → Begun} {args : LogArgs} {errno : Int32} (positive : 0 < errno)
    (logged : args.retval = -errno) (virtual : Bool) (real : Real) (seq : UInt64) :
    (bufferWrapper nr fd buf count issue).replay virtual real (args.event seq) =
      ⟨-1, some errno, buf, none⟩ := by
  have raw := rawToSsize_failed positive
  have nonpositive : ¬ (0 : Int32) < -errno := Int32.lt_asymm (neg_errno_lt positive)
  simp only [bufferWrapper, LogArgs.event, logged, raw, if_neg nonpositive]

theorem bufferWrapper_replay_stored {nr fd : Int32} {buf : Option Bytes} {count : Nat}
    {issue : Answer → Begun} {args : LogArgs} {data : Bytes}
    (logged : args.retval = Int32.ofInt data.length)
    (stored : data = [] ∨ args.data = buf.map (overwrite · data) ∧ args.dataLen = data.length)
    (short : data.length ≤ min count 64) (virtual : Bool) (real : Real) (seq : UInt64) :
    (bufferWrapper nr fd buf count issue).replay virtual real (args.event seq) =
      ⟨data.length, none, buf.map (overwrite · data), none⟩ := by
  have lower : (0 : Int) ≤ data.length := by omega
  have upper : (data.length : Int) < 2 ^ 31 := by omega
  have raw := rawToSsize_success lower upper
  have value := toInt_ofInt_small lower upper
  have retval : (args.event seq).retval = Int32.ofInt data.length := logged
  simp only [bufferWrapper, retval, raw, value, CallResult.mk.injEq, true_and, and_true]
  split
  · rename_i positive
    rcases stored with rfl | ⟨kept, length⟩
    · cases positive
    · cases buf with
      | none => rfl
      | some object =>
          obtain ⟨whole, back⟩ := event_data args kept length (by omega) seq
          have toCopy : min (min (data.length : Int).toNat count) data.length = data.length := by
            omega
          simp only [Option.map_some, whole, toCopy, back]
  · rename_i nonpositive
    have empty : data = [] := by
      rw [Int32.lt_iff_toInt_lt, value] at nonpositive
      have zero : (0 : Int32).toInt = 0 := rfl
      rw [← List.length_eq_zero_iff]
      omega
    cases buf <;> simp [empty, overwrite_nil]

theorem structWrapper_replay_failed {nr : Int32} {arg0 : UInt64} {object : Option Bytes}
    {size : Nat} {timed : Bool} {tz : Option Bytes} {args : LogArgs} {errno : Int32}
    (positive : 0 < errno)
    (logged : args.retval = -errno) (real : Real) (seq : UInt64) :
    (structWrapper nr arg0 object size timed tz).replay true real (args.event seq) =
      ⟨-1, some errno, object, tz⟩ := by
  have raw : rawToInt (-errno) = (-1, some errno) := rawToSsize_failed positive
  have negative : ¬ (0 : Int32) ≤ -errno := Int32.not_le.mpr (neg_errno_lt positive)
  simp [structWrapper, LogArgs.event, logged, raw, negative]

theorem structWrapper_replay_stored {nr : Int32} {arg0 : UInt64} {object : Option Bytes}
    {size : Nat} {timed : Bool} {tz : Option Bytes} {args : LogArgs} {data : Bytes}
    (logged : args.retval = 0)
    (stored : args.data = object.map (overwrite · data)) (length : args.dataLen = data.length)
    (short : data.length ≤ 64) (whole : data.length = size) (real : Real) (seq : UInt64) :
    (structWrapper nr arg0 object size timed tz).replay true real (args.event seq) =
      ⟨0, none, object.map (overwrite · data), tz⟩ := by
  have retval : (args.event seq).retval = 0 := logged
  have raw : rawToInt 0 = (0, none) := rfl
  cases object with
  | none => simp [structWrapper, retval, raw]
  | some bytes =>
      obtain ⟨kept, back⟩ := event_data args stored length short seq
      simp [structWrapper, retval, raw, kept, whole.symm, back]

/-- The wrappers that pass a value on give it back, failed or not. -/
theorem resultWrapper_replay {nr fd : Int32} {issue : Answer → Begun} {args : LogArgs}
    {result : CallResult}
    (logged : args.retval = logInt result.ret result.errno)
    (genuine : result.Failed none none ∨
      (result.Stored none [] none ∧ 0 ≤ result.ret ∧ result.ret < 2 ^ 31))
    (virtual : Bool) (real : Real) (seq : UInt64) :
    (resultWrapper nr fd issue).replay virtual real (args.event seq) = result := by
  rcases genuine with failed | ⟨stored, lower, upper⟩
  · obtain ⟨errno, positive, rfl⟩ := failed.eq
    have raw : rawToInt (-errno) = (-1, some errno) := rawToSsize_failed positive
    have retval : (args.event seq).retval = -errno := logged
    simp only [resultWrapper, retval, raw]
  · rw [stored.eq] at logged
    have raw : rawToInt (Int32.ofInt result.ret) = (result.ret, none) :=
      rawToSsize_success lower upper
    have retval : (args.event seq).retval = Int32.ofInt result.ret := logged
    rw [stored.eq]
    simp only [resultWrapper, retval, raw, Option.map_none]

/-- Replay gives a result that fits its record back as it was. -/
theorem Call.Genuine.replayed {call : Call} {result : CallResult} (genuine : call.Genuine result) :
    call.replayed result = result := by
  cases call with
  | read fd buf count =>
      rcases genuine with failed | ⟨data, stored, length, short⟩
      · obtain ⟨errno, positive, rfl⟩ := failed.eq
        exact bufferWrapper_replay_failed positive rfl _ _ _
      · have same := stored.eq
        rw [length] at same
        subst same
        refine bufferWrapper_replay_stored rfl ?_ short _ _ _
        by_cases empty : count = 0
        · left
          rw [← List.length_eq_zero_iff]
          omega
        · right
          simp [Call.logged, Call.loggedData, empty]
  | recv sockfd buf len flags =>
      rcases genuine with failed | ⟨data, stored, length, short⟩
      · obtain ⟨errno, positive, rfl⟩ := failed.eq
        exact bufferWrapper_replay_failed positive rfl _ _ _
      · have same := stored.eq
        rw [length] at same
        subst same
        exact bufferWrapper_replay_stored rfl (Or.inr ⟨rfl, rfl⟩) short _ _ _
  | clockGettime clockId tp =>
      rcases genuine with failed | ⟨data, stored, done, whole⟩
      · obtain ⟨errno, positive, rfl⟩ := failed.eq
        exact structWrapper_replay_failed positive rfl _ _
      · have same := stored.eq
        rw [done] at same
        subst same
        exact structWrapper_replay_stored rfl rfl whole.symm (by omega) whole _ _
  | gettimeofday tv tz =>
      rcases genuine with failed | ⟨data, stored, done, whole⟩
      · obtain ⟨errno, positive, rfl⟩ := failed.eq
        exact structWrapper_replay_failed positive rfl _ _
      · have same := stored.eq
        rw [done] at same
        subst same
        exact structWrapper_replay_stored rfl rfl whole.symm (by omega) whole _ _
  | write fd buf => exact resultWrapper_replay rfl genuine _ _ _
  | send sockfd buf flags => exact resultWrapper_replay rfl genuine _ _ _
  | connect sockfd addr => exact resultWrapper_replay rfl genuine _ _ _
  | openat dirfd pathname flags mode => exact resultWrapper_replay rfl genuine _ _ _
  | close fd => exact resultWrapper_replay rfl genuine _ _ _
  | getpid =>
      obtain ⟨stored, lower, upper⟩ := genuine
      have raw : rawToInt (Int32.ofInt result.ret) = (result.ret, none) :=
        rawToSsize_success lower upper
      rw [stored.eq]
      simp [Call.replayed, Call.wrapper, Wrapper.getpid, LogArgs.event, Call.logged,
        Call.loggedResult, logInt, raw]
  | accept sockfd addr addrlen => exact genuine.elim
  | nanosleep req rem => exact genuine.elim
  | getuid => exact genuine.elim
  | uname buf => exact genuine.elim
  | stat path st => exact genuine.elim
  | fstat fd st => exact genuine.elim
  | lstat path st => exact genuine.elim
  | getcwd buf size => exact genuine.elim

end Librr
