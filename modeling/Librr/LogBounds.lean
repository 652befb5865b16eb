import Librr.Endings

set_option autoImplicit false

namespace Librr

open Transition

/-- `MSG_TRUNC`: the result of a receive is the length of the datagram, whatever fits. -/
def MSG_TRUNC : Int32 := 0x20

namespace Call

/-- The wrappers that hand `rr_log_syscall` a data pointer. -/
def LogsData : Call → Prop
  | .read .. | .recv .. | .clockGettime .. | .gettimeofday .. | .uname .. | .stat .. | .fstat ..
  | .lstat .. | .getcwd .. => True
  | _ => False

/-- The results a completion can carry: no more than was asked for, except that
`MSG_TRUNC` lifts the bound of a receive. -/
def CanEnd (call : Call) : Ending → Prop
  | .completed res _ =>
    match call with
    | .read _ _ count => res.toInt ≤ count
    | .recv _ _ len flags => flags &&& MSG_TRUNC = 0 → res.toInt ≤ len
    | _ => True
  | _ => True

/-- The bytes of the caller's object behind the data pointer: the buffer as far as the
caller gave it away, the struct, or the returned path. -/
def owned (call : Call) (result : CallResult) : Nat :=
  match call with
  | .read _ _ count => count
  | .recv _ _ len _ => len
  | .clockGettime .. | .gettimeofday .. => 16
  | .uname .. => 390
  | .stat .. | .fstat .. | .lstat .. => 144
  | .getcwd .. => ((result.out.getD []).takeWhile (· ≠ 0)).length
  | _ => 0

end Call

theorem LogArgs.capped_le_dataLen (args : LogArgs) : args.capped ≤ args.dataLen := by
  unfold LogArgs.capped
  split
  · exact Nat.zero_le _
  · exact Nat.min_le_left _ _

/-- Only a success of the real function is logged with the struct. -/
theorem structWrapper_dataLen {nr : Int32} {arg0 : UInt64} {object : Option Bytes} {size : Nat}
    {timed : Bool} {tz : Option Bytes} {answer : Answer} {result : CallResult} {args : LogArgs}
    (done : (structWrapper nr arg0 object size timed tz).issue answer = .done result args) :
    args.dataLen ≤ size := by
  cases done
  simp only
  split
  · exact Nat.le_refl _
  · exact Nat.zero_le _

/-- What `read` and `recv` copy after a completion. -/
theorem bufferWrapper_capped (nr fd : Int32) (buf : Option Bytes) (res : Int32) (data : Bytes) :
    LogArgs.capped ⟨nr, res, argOfInt fd, buf.map (overwrite · data),
      if 0 < res then res.toInt.toNat else 0⟩ =
    if buf = none then 0 else min res.toInt.toNat 64 := by
  have length : (if 0 < res then res.toInt.toNat else 0) = res.toInt.toNat := by
    split
    · rfl
    · rename_i nonpositive
      rw [Int32.lt_iff_toInt_lt] at nonpositive
      have zero : (0 : Int32).toInt = 0 := rfl
      omega
  simp only [LogArgs.capped, length, Option.map_eq_none_iff]

theorem Wrapper.pathLength_le (path : Bytes) (size : Nat) :
    pathLength path size ≤ (path.takeWhile (· ≠ 0)).length := by
  induction path generalizing size with
  | nil => simp [pathLength]
  | cons byte rest ih =>
      cases size with
      | zero => simp [pathLength]
      | succ size =>
          by_cases stop : byte = 0
          · simp [pathLength, stop]
          · have shorter := ih size
            simpa [pathLength, stop] using shorter

namespace Call

theorem CanEnd.raw_le {fd : Int32} {buf : Option Bytes} {count : Nat} {ending : Ending}
    {raw : Int32} {data : Bytes} (possible : CanEnd (.read fd buf count) ending)
    (value : ending.raw = some (raw, data)) : raw.toInt ≤ count := by
  cases ending with
  | immediate answer => cases value
  | completed res stored =>
      cases value
      exact possible
  | noSqe | unsubmitted rc =>
      cases value
      have negative : (-1 : Int32).toInt = -1 := rfl
      omega

/-- The length handed to `rr_log_syscall` by every data-logging wrapper but `recv`. -/
theorem recorded_capped_le {call : Call} {ending : Ending} {result : CallResult} {args : LogArgs}
    (logs : call.LogsData) (other : ∀ sockfd buf len flags, call ≠ .recv sockfd buf len flags)
    (possible : call.CanEnd ending) (recorded : call.recorded ending = some (result, args)) :
    args.capped ≤ call.owned result := by
  rcases recorded_cases recorded with ⟨answer, rfl, done⟩ |
    ⟨finish, raw, data, value, half, ended⟩
  · apply Nat.le_trans args.capped_le_dataLen
    cases call with
    | read fd buf count =>
        simp only [Call.wrapper, Wrapper.read, bufferWrapper] at done
        split at done
        · cases done
          exact Nat.zero_le _
        · cases done
    | getcwd buf size =>
        simp only [Call.wrapper, Wrapper.getcwd] at done
        split at done
        · cases done
          exact Nat.zero_le _
        · cases done
          apply Nat.le_trans (Nat.mod_le _ _)
          exact Wrapper.pathLength_le _ size
    | recv sockfd buf len flags => exact absurd rfl (other sockfd buf len flags)
    | clockGettime clockId tp => exact structWrapper_dataLen done
    | gettimeofday tv tz => exact structWrapper_dataLen done
    | uname buf => exact structWrapper_dataLen done
    | stat path st => exact structWrapper_dataLen done
    | fstat fd st => exact structWrapper_dataLen done
    | lstat path st => exact structWrapper_dataLen done
    | _ => exact absurd logs id
  · cases call with
    | read fd buf count =>
        have asked := possible.raw_le value
        cases half
        cases ended
        rw [bufferWrapper_capped]
        simp only [Call.owned]
        split <;> omega
    | recv sockfd buf len flags => exact absurd rfl (other sockfd buf len flags)
    | _ => first | exact absurd logs id | cases half

/-- `recv` copies what the kernel reports, without a look at the length of the buffer. -/
theorem recv_capped {sockfd : Int32} {buf : Option Bytes} {len : Nat} {flags : Int32}
    {ending : Ending} {result : CallResult} {args : LogArgs}
    (recorded : (Call.recv sockfd buf len flags).recorded ending = some (result, args)) :
    ∃ raw data, ending.raw = some (raw, data) ∧
      args.capped = if buf = none then 0 else min raw.toInt.toNat 64 := by
  rcases recorded_cases recorded with ⟨answer, _, done⟩ | ⟨finish, raw, data, value, half, ended⟩
  · cases done
  · cases half
    cases ended
    exact ⟨raw, data, value, bufferWrapper_capped ..⟩

/-- What is copied from the data pointer belongs to the caller, but for a datagram that is longer
than the buffer it is received in. -/
theorem recorded_inside_iff {call : Call} {ending : Ending} {result : CallResult} {args : LogArgs}
    (logs : call.LogsData) (possible : call.CanEnd ending)
    (recorded : call.recorded ending = some (result, args)) :
    args.capped ≤ call.owned result ↔ ∀ sockfd buf len flags res data,
      call = .recv sockfd (some buf) len flags → ending = .completed res data →
      min res.toInt.toNat 64 ≤ len := by
  constructor
  · rintro inside sockfd buf len flags res data rfl rfl
    obtain ⟨raw, stored, value, capped⟩ := recv_capped recorded
    cases value
    rw [capped] at inside
    exact inside
  · intro fits
    by_cases receives : ∃ sockfd buf len flags, call = .recv sockfd buf len flags
    · obtain ⟨sockfd, buf, len, flags, rfl⟩ := receives
      obtain ⟨raw, stored, value, capped⟩ := recv_capped recorded
      rw [capped]
      cases buf with
      | none => exact Nat.zero_le _
      | some object =>
          cases ending with
          | immediate answer => cases value
          | completed res data =>
              cases value
              exact fits sockfd object len flags raw stored rfl rfl
          | noSqe | unsubmitted rc =>
              cases value
              exact Nat.zero_le _
    · exact recorded_capped_le logs
        (fun sockfd buf len flags same => receives ⟨sockfd, buf, len, flags, same⟩)
        possible recorded

end Call

namespace State

/-- The call is logged with bytes of its own object alone. -/
def LogsInside (t : State) (call : Call) (ending : Ending) : Prop :=
  ∃ result args, call.recorded ending = some (result, args) ∧ t.Reports call result args ∧
    args.capped ≤ call.owned result

/-- In a recorded run, logging a call reads the caller's object alone exactly if the call is no
`recv` whose completion is longer than the buffer (as far as 64 bytes are concerned). -/
theorem logging_stays_inside_iff {program : Program} {stackSize : Nat} {signalFd : Int32}
    {inputs : List Input} {s t : State} {input : Input} {call : Call} {ending : Ending}
    (reached : exec (step program) (recordStart stackSize signalFd) inputs = some s)
    (ends : s.Ends program input call ending) (taken : step program s input = some t)
    (logs : call.LogsData) (possible : call.CanEnd ending) :
    t.LogsInside call ending ↔ ∀ sockfd buf len flags res data,
      call = .recv sockfd (some buf) len flags → ending = .completed res data →
      min res.toInt.toNat 64 ≤ len := by
  obtain ⟨result, args, recorded, reports⟩ := ends.reports (recording_of_exec reached) taken
  rw [← Call.recorded_inside_iff logs possible recorded]
  constructor
  · rintro ⟨_, _, again, _, inside⟩
    rw [recorded] at again
    cases again
    exact inside
  · intro inside
    exact ⟨result, args, recorded, reports, inside⟩

/-- A receive into four bytes that asks for the length of the datagram. -/
def truncatedRecv : Call := .recv 5 (some [0, 0, 0, 0]) 4 MSG_TRUNC

/-- The kernel completes the receive with the result `res` and four bytes. -/
def receives (res : Int32) : List Input :=
  [.act .calm, .post 1 res [1, 2, 3, 4], .loop .calm]

theorem receives_ends (res : Int32) : ∃ s t,
    exec (step (callOnce truncatedRecv)) (recordStart 4096 7) (receives res) = some s ∧
    s.Ends (callOnce truncatedRecv) (.loop .calm) truncatedRecv (.completed res [1, 2, 3, 4]) ∧
    step (callOnce truncatedRecv) s (.loop .calm) = some t := by
  let woken : Uthread := { Uthread.zeroed with
    id := 1, state := .runnable, ctx := ⟨[], .io truncatedRecv 1⟩, ioResult := res }
  refine ⟨_, _, rfl, ?_, rfl⟩
  exact .completed _ 0 woken _ 1 rfl rfl rfl rfl rfl

/-- Of a datagram of 1000 bytes received in four, 64 bytes are logged: the last 60 are read from
behind the buffer. -/
theorem long_datagram_leaves_buffer : ∃ s t,
    exec (step (callOnce truncatedRecv)) (recordStart 4096 7) (receives 1000) = some s ∧
    s.Ends (callOnce truncatedRecv) (.loop .calm) truncatedRecv (.completed 1000 [1, 2, 3, 4]) ∧
    step (callOnce truncatedRecv) s (.loop .calm) = some t ∧
    truncatedRecv.CanEnd (.completed 1000 [1, 2, 3, 4]) ∧
    ¬ t.LogsInside truncatedRecv (.completed 1000 [1, 2, 3, 4]) := by
  obtain ⟨s, t, reached, ends, taken⟩ := receives_ends 1000
  refine ⟨s, t, reached, ends, taken, fun plain => absurd plain (by decide), ?_⟩
  rintro ⟨result, args, recorded, -, inside⟩
  cases recorded
  revert inside
  decide

theorem short_datagram_stays_inside : ∃ s t,
    exec (step (callOnce truncatedRecv)) (recordStart 4096 7) (receives 4) = some s ∧
    step (callOnce truncatedRecv) s (.loop .calm) = some t ∧
    t.LogsInside truncatedRecv (.completed 4 [1, 2, 3, 4]) := by
  obtain ⟨s, t, reached, ends, taken⟩ := receives_ends 4
  refine ⟨s, t, reached, taken, ?_⟩
  apply (logging_stays_inside_iff reached ends taken trivial
    fun plain => absurd plain (by decide)).mpr
  rintro sockfd buf len flags res data same ended
  cases same
  cases ended
  decide

end State

end Librr
