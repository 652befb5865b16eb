import Librr.AsyncReplay

set_option autoImplicit false

namespace Librr

/-- A real function that fills a struct: it stores the whole object and returns 0, or it
returns -1 with an `errno` and stores nothing. -/
def Real.FillsStruct (real : Real) (object : Option Bytes) (size : Nat) : Prop :=
  (∀ bytes, object = some bytes → bytes.length = size) ∧
    (real.rc = -1 ∧ 0 < real.errno ∨ real.rc = 0 ∧ real.data.length = size)

/-- A real `getcwd`: it fails with an `errno`, or it stores a path and its NUL, which fit
the size unless the block is allocated to measure. -/
def Real.FindsPath (real : Real) (buf : Option Bytes) (size : Nat) : Prop :=
  real.rc = 0 ∧ 0 < real.errno ∨
    real.rc ≠ 0 ∧ ∃ path, real.data = path ++ [0] ∧ 0 ∉ path ∧
      (∀ object, buf = some object → path.length < size ∧ size ≤ object.length) ∧
      (buf = none → size = 0 ∨ path.length < size)

/-- The results the real functions behind the immediate wrappers produce. -/
def Call.Produces (call : Call) (real : Real) : Prop :=
  match call with
  | .clockGettime _ tp => real.FillsStruct (some tp) 16
  | .gettimeofday tv _ => real.FillsStruct tv 16
  | .getpid => 0 < real.rc ∧ real.rc < 2 ^ 31
  | .getuid => 0 ≤ real.rc ∧ real.rc < 2 ^ 32
  | .uname buf => real.FillsStruct buf 390
  | .stat _ st => real.FillsStruct (some st) 144
  | .fstat _ st => real.FillsStruct (some st) 144
  | .lstat _ st => real.FillsStruct (some st) 144
  | .getcwd buf size => real.FindsPath buf size
  | _ => False

/-- The caller sees the same value and the same objects. -/
def CallResult.Same (replayed recorded : CallResult) : Prop :=
  replayed.ret = recorded.ret ∧ replayed.out = recorded.out ∧ replayed.second = recorded.second

section Struct

variable {nr : Int32} {arg0 : UInt64} {object : Option Bytes} {size : Nat} {timed : Bool}
  {tz : Option Bytes}

/-- Of a struct that was filled, the first 64 bytes come back. -/
theorem structWrapper_replay_front {bytes : Bytes} {args : LogArgs} {stored : Bytes}
    (logged : args.retval = 0) (kept : args.data = some stored) (length : args.dataLen = size)
    (whole : stored.length = size) (real : Real) (seq : UInt64) :
    (structWrapper nr arg0 (some bytes) size timed tz).replay true real (args.event seq) =
      ⟨0, none, some (stored.take 64 ++ bytes.drop (min size 64)), tz⟩ := by
  have retval : (args.event seq).retval = 0 := logged
  have raw : rawToInt 0 = (0, none) := rfl
  obtain ⟨dataLen, front⟩ := event_front args kept (by omega) seq
  rw [length] at dataLen front
  have toCopy : min (min size 64) size = min size 64 := by omega
  have cut : stored.take (min size 64) = stored.take 64 := by
    rw [← whole, List.take_eq_take_iff]
    omega
  have taken : (stored.take 64).length = min size 64 := by
    rw [List.length_take]
    omega
  simp only [structWrapper, Bool.not_true, Bool.and_false, Bool.false_eq_true, if_false, retval,
    raw, dataLen, toCopy, front, cut, Option.map_some, overwrite, taken, Int32.le_refl, if_true]

/-- A struct that failed to be filled is replayed as it is, and one that was filled comes
back with its first 64 bytes. -/
theorem structWrapper_replayed {answer : Answer} {result : CallResult} {args : LogArgs}
    (fills : answer.real.FillsStruct object size)
    (done : (structWrapper nr arg0 object size timed tz).issue answer = .done result args)
    (real : Real) (seq : UInt64) :
    (structWrapper nr arg0 object size timed tz).replay true real (args.event seq) =
      ⟨result.ret, result.errno, object.bind fun bytes => result.out.map fun stored =>
        stored.take 64 ++ bytes.drop 64, tz⟩ := by
  obtain ⟨sized, ⟨failed, positive⟩ | ⟨zero, length⟩⟩ := fills
  · cases done
    have retval : toLogInt answer.real = -answer.real.errno := by
      rw [toLogInt, if_pos failed]
    have kept : realOut answer.real object = object := if_neg (by omega)
    rw [structWrapper_replay_failed positive retval, kept]
    cases object <;> simp [realResult, failed]
  · have retval : toLogInt answer.real = 0 := by
      rw [toLogInt, if_neg (by omega), zero]
      rfl
    cases object with
    | none =>
        cases done
        simp [structWrapper, LogArgs.event, retval, rawToInt, rawToSsize, realResult, zero]
    | some bytes =>
        have fits : bytes.length = size := sized bytes rfl
        have stored : realOut answer.real (some bytes) = some answer.real.data := by
          rw [realOut, if_pos (by omega), Option.map_some, overwrite,
            List.drop_eq_nil_of_le (by omega), List.append_nil]
        have behind : bytes.drop (min size 64) = bytes.drop 64 := by
          rcases Nat.le_total size 64 with short | long
          · rw [Nat.min_eq_left short, List.drop_eq_nil_of_le (by omega),
              List.drop_eq_nil_of_le (by omega)]
          · rw [Nat.min_eq_right long]
        cases done
        rw [structWrapper_replay_front retval stored (if_pos zero) length, behind, stored]
        simp [realResult, zero]

theorem structWrapper_errno {answer : Answer} {result : CallResult} {args : LogArgs}
    (fills : answer.real.FillsStruct object size)
    (done : (structWrapper nr arg0 object size timed tz).issue answer = .done result args)
    (real : Real) (seq : UInt64) :
    ((structWrapper nr arg0 object size timed tz).replay true real (args.event seq)).errno =
      result.errno := by
  rw [structWrapper_replayed fills done]

/-- The wrappers that fill a struct replay it whole exactly if its end is there already, and
the time zone if it was not changed. -/
theorem structWrapper_replayed_iff {answer : Answer} {result : CallResult} {args : LogArgs}
    (fills : answer.real.FillsStruct object size)
    (done : (structWrapper nr arg0 object size timed tz).issue answer = .done result args)
    (real : Real) (seq : UInt64) :
    (structWrapper nr arg0 object size timed tz).replay true real (args.event seq) = result ↔
      result.KeepsTail object ∧ result.second = tz := by
  rw [structWrapper_replayed fills done, CallResult.ext_iff]
  simp only [true_and]
  refine and_congr ?_ eq_comm
  have present : result.out.isSome = object.isSome := by
    cases done
    simp only [realResult, realOut]
    split <;> simp
  rw [CallResult.KeepsTail]
  cases object with
  | none =>
      have absent : result.out = none := by simpa using present
      simp [absent]
  | some bytes =>
      obtain ⟨stored, out⟩ := Option.isSome_iff_exists.mp present
      simp only [out, Option.bind_some, Option.map_some, Option.some.injEq]
      exact take_append_drop_iff

end Struct

theorem getpid_replayed {answer : Answer} {result : CallResult} {args : LogArgs}
    (produces : Call.getpid.Produces answer.real)
    (done : Wrapper.getpid.issue answer = .done result args) (real : Real) (seq : UInt64) :
    Wrapper.getpid.replay true real (args.event seq) = result := by
  obtain ⟨lower, upper⟩ : 0 < answer.real.rc ∧ answer.real.rc < 2 ^ 31 := produces
  have raw : rawToInt (Int32.ofInt answer.real.rc) = (answer.real.rc, none) :=
    rawToSsize_success (by omega) upper
  cases done
  simp [Wrapper.getpid, LogArgs.event, raw]

theorem rawToInt_of_negative {value : Int} (lower : 2 ^ 31 ≤ value) (upper : value < 2 ^ 32) :
    ∃ errno, rawToInt (Int32.ofInt value) = (-1, some errno) := by
  have negative : Int32.ofInt value < 0 := by
    rw [Int32.lt_iff_toInt_lt, Int32.toInt_ofInt]
    have zero : (0 : Int32).toInt = 0 := rfl
    have wrapped : Int.bmod value Int32.size = value - 2 ^ 32 := by
      have size : Int32.size = 4294967296 := rfl
      rw [size, Int.bmod_def]
      omega
    omega
  exact ⟨_, if_pos negative⟩

/-- The signed field holds a uid below 2^31. Any other is replayed as -1. -/
theorem getuid_replayed {answer : Answer} {result : CallResult} {args : LogArgs}
    (produces : Call.getuid.Produces answer.real)
    (done : Wrapper.getuid.issue answer = .done result args) (real : Real) (seq : UInt64) :
    if result.ret < 2 ^ 31 then Wrapper.getuid.replay true real (args.event seq) = result
    else ∃ errno, Wrapper.getuid.replay true real (args.event seq) =
      ⟨2 ^ 32 - 1, some errno, none, none⟩ := by
  obtain ⟨lower, upper⟩ : 0 ≤ answer.real.rc ∧ answer.real.rc < 2 ^ 32 := produces
  cases done
  split
  · rename_i small
    have raw : rawToInt (Int32.ofInt answer.real.rc) = (answer.real.rc, none) :=
      rawToSsize_success lower small
    have whole : answer.real.rc % 2 ^ 32 = answer.real.rc := by omega
    simp only [Wrapper.getuid, LogArgs.event, raw, whole]
  · rename_i large
    obtain ⟨errno, raw⟩ := rawToInt_of_negative (Int.not_lt.mp large) upper
    exact ⟨errno, by simp [Wrapper.getuid, LogArgs.event, raw]⟩

theorem getuid_replayed_iff {answer : Answer} {result : CallResult} {args : LogArgs}
    (produces : Call.getuid.Produces answer.real)
    (done : Wrapper.getuid.issue answer = .done result args) (real : Real) (seq : UInt64) :
    Wrapper.getuid.replay true real (args.event seq) = result ↔ result.ret < 2 ^ 31 := by
  have replayed := getuid_replayed produces done real seq
  have sound : result.errno = none := by cases done; rfl
  split at replayed
  · rename_i small
    exact iff_of_true replayed small
  · rename_i large
    obtain ⟨errno, replayed⟩ := replayed
    refine iff_of_false (fun same => ?_) large
    rw [← same, replayed] at sound
    cases sound

/-- The path that is found in a buffer it was stored into. -/
theorem pathLength_stored {path : Bytes} (clean : 0 ∉ path) {size : Nat}
    (fits : path.length < size) (rest : Bytes) :
    Wrapper.pathLength (path ++ [0] ++ rest) size = path.length := by
  have front : (path ++ [0] ++ rest).take size =
      path ++ 0 :: rest.take (size - path.length - 1) := by
    obtain ⟨more, rfl⟩ : ∃ more, size = path.length + (more + 1) :=
      ⟨size - path.length - 1, by omega⟩
    rw [List.append_assoc, List.take_append, List.take_of_length_le (by omega)]
    simp
  have all : ∀ byte ∈ path, (decide (byte ≠ 0)) = true := by
    intro byte member
    refine decide_eq_true ?_
    rintro rfl
    exact clean member
  rw [Wrapper.pathLength, front, List.takeWhile_append_of_pos all,
    List.takeWhile_cons_of_neg (by simp), List.append_nil]

/-- A path cut short is another string. -/
theorem cut_path_iff {path object : Bytes} (clean : 0 ∉ path) {cut : Nat}
    (short : cut = min (path.length % 2 ^ 32) 64) :
    overwrite object (path.take cut ++ [0]) = overwrite object (path ++ [0]) ↔
      path.length ≤ 64 := by
  constructor
  · intro same
    by_contra long
    have inside : cut < path.length := by omega
    have byte := congrArg (fun bytes => bytes[cut]?) same
    have length : (path.take cut).length = cut := by
      rw [List.length_take]
      omega
    simp only [overwrite, List.append_assoc] at byte
    rw [List.getElem?_append_right (by omega), List.getElem?_append_left inside, length,
      Nat.sub_self, List.singleton_append, List.getElem?_cons_zero] at byte
    exact clean (List.mem_of_getElem? byte.symm)
  · intro fits
    have whole : cut = path.length := by omega
    rw [whole, List.take_length]

/-- What the replay path stores for a path that was found. -/
theorem getcwd_replay_cut {path : Bytes} {size : Nat}
    (fits : path.length < size) (object : Bytes) (real : Real) (seq : UInt64) :
    (Wrapper.getcwd (some object) size).replay true real (LogArgs.event ⟨Nr.getcwd, 0,
      UInt64.ofNat size, some (overwrite object (path ++ [0])), path.length % 2 ^ 32⟩ seq) =
      ⟨1, none, some (overwrite object
        (path.take (min (path.length % 2 ^ 32) 64) ++ [0])), none⟩ := by
  set args : LogArgs := ⟨Nr.getcwd, 0, UInt64.ofNat size,
    some (overwrite object (path ++ [0])), path.length % 2 ^ 32⟩
  have enough : args.dataLen ≤ (overwrite object (path ++ [0])).length := by
    show path.length % 2 ^ 32 ≤ _
    simp only [overwrite, List.length_append, List.length_singleton]
    omega
  obtain ⟨dataLen, front⟩ := event_front args rfl enough seq
  have value : args.dataLen = path.length % 2 ^ 32 := rfl
  rw [value] at dataLen front
  have retval : (args.event seq).retval = 0 := rfl
  have cut : (overwrite object (path ++ [0])).take (min (path.length % 2 ^ 32) 64) =
      path.take (min (path.length % 2 ^ 32) 64) := by
    rw [overwrite, List.append_assoc, List.take_append_of_le_length (by omega)]
  have positive : size ≠ 0 := by omega
  have inside : ¬ size ≤ min (path.length % 2 ^ 32) 64 := by omega
  have success : ¬ (0 : Int32) < 0 := by decide
  simp only [Wrapper.getcwd, retval, if_neg success, if_neg positive, dataLen, if_neg inside, front,
    cut]

theorem getcwd_replayed_iff {buf : Option Bytes} {size : Nat} {answer : Answer}
    {result : CallResult} {args : LogArgs} (finds : answer.real.FindsPath buf size)
    (done : (Wrapper.getcwd buf size).issue answer = .done result args) (real : Real)
    (seq : UInt64) :
    (Wrapper.getcwd buf size).replay true real (args.event seq) = result ↔
      (Call.getcwd buf size).FitsEvent result := by
  simp only [Call.FitsEvent]
  rcases finds with ⟨null, positive⟩ | ⟨found, path, stored, clean, fits, _⟩
  · simp only [Wrapper.getcwd, if_pos null] at done
    cases done
    have negative := neg_errno_lt positive
    simp [Wrapper.getcwd, LogArgs.event, negative]
  simp only [Wrapper.getcwd, if_neg found] at done
  cases done
  cases buf with
  | none => simp [Wrapper.getcwd, LogArgs.event]
  | some object =>
      obtain ⟨room, _⟩ := fits object rfl
      have length : Wrapper.pathLength (overwrite object (path ++ [0])) size = path.length :=
        pathLength_stored clean room _
      have pointer : (1 : Int) ≠ 0 := by decide
      simp only [Option.getD_some, stored, length, ne_eq, reduceCtorEq, not_false_eq_true,
        true_and, pointer, false_or]
      rw [getcwd_replay_cut room object real seq]
      simp only [CallResult.mk.injEq, true_and, Option.some.injEq, and_true]
      exact cut_path_iff clean rfl

/-- Where the returned pointer is not null and the path is found, nothing fails. -/
theorem getcwd_errno {buf : Option Bytes} {size : Nat} {answer : Answer}
    {result : CallResult} {args : LogArgs} (finds : answer.real.FindsPath buf size)
    (done : (Wrapper.getcwd buf size).issue answer = .done result args) (real : Real)
    (seq : UInt64) :
    ((Wrapper.getcwd buf size).replay true real (args.event seq)).errno = result.errno := by
  rcases finds with ⟨null, positive⟩ | ⟨found, _⟩
  · simp only [Wrapper.getcwd, if_pos null] at done
    cases done
    have negative := neg_errno_lt positive
    simp [Wrapper.getcwd, LogArgs.event, negative]
  · simp only [Wrapper.getcwd, if_neg found] at done
    cases done
    cases buf with
    | none => rfl
    | some object =>
        have success : ¬ (0 : Int32) < 0 := by decide
        simp only [Wrapper.getcwd, LogArgs.event, if_neg success]
        split <;> rfl

/-- The wrappers that return at once. -/
def Call.Immediate : Call → Prop
  | .clockGettime .. | .gettimeofday .. | .getpid | .getuid | .uname .. | .stat .. | .fstat ..
  | .lstat .. | .getcwd .. => True
  | _ => False

/-- The clocks fill 16 bytes, all of which are logged. -/
theorem keepsTail_of_small {nr : Int32} {arg0 : UInt64} {object tz : Option Bytes} {timed : Bool}
    {answer : Answer} {result : CallResult} {args : LogArgs}
    (fills : answer.real.FillsStruct object 16)
    (done : (structWrapper nr arg0 object 16 timed tz).issue answer = .done result args) :
    result.KeepsTail object := by
  cases done
  obtain ⟨sized, ⟨failed, _⟩ | ⟨zero, length⟩⟩ := fills
  · have kept : realOut answer.real object = object := if_neg (by omega)
    simp [CallResult.KeepsTail, realResult, kept]
  · have stored : realOut answer.real object = object.map (overwrite · answer.real.data) :=
      if_pos (by omega)
    cases object with
    | none => simp [CallResult.KeepsTail, realResult, stored]
    | some bytes =>
        have size := sized bytes rfl
        have longer : (overwrite bytes answer.real.data).length ≤ 64 := by
          rw [overwrite, List.length_append, List.length_drop]
          omega
        simp only [CallResult.KeepsTail, realResult, stored, Option.map_some,
          List.drop_eq_nil_of_le longer, List.drop_eq_nil_of_le (show bytes.length ≤ 64 by omega)]

/-- Replay gives the result of an immediate call back exactly if it fits the event. -/
theorem Call.Immediate.replayed_iff {call : Call} (immediate : call.Immediate) {answer : Answer}
    (produces : call.Produces answer.real) {result : CallResult} {args : LogArgs}
    (done : call.wrapper.issue answer = .done result args) (real : Real) (seq : UInt64) :
    call.wrapper.replay true real (args.event seq) = result ↔ call.FitsEvent result := by
  -- Only `gettimeofday` has a second object.
  have single : ∀ {nr arg0 object size}, answer.real.FillsStruct object size →
      (structWrapper nr arg0 object size false none).issue answer = .done result args →
      ((structWrapper nr arg0 object size false none).replay true real (args.event seq) = result ↔
        result.KeepsTail object) := by
    intro nr arg0 object size fills done
    have second : result.second = none := by
      cases done
      simp [realResult]
    exact (structWrapper_replayed_iff fills done real seq).trans (and_iff_left second)
  cases call with
  | clockGettime clockId tp =>
      have second : result.second = none := by
        cases done
        simp [realResult]
      exact (structWrapper_replayed_iff produces done real seq).trans
        (iff_of_true ⟨keepsTail_of_small produces done, second⟩ trivial)
  | gettimeofday tv tz =>
      exact (structWrapper_replayed_iff produces done real seq).trans
        (and_iff_right (keepsTail_of_small produces done))
  | getpid => exact iff_of_true (getpid_replayed produces done real seq) trivial
  | getuid => exact getuid_replayed_iff produces done real seq
  | uname buf => exact single produces done
  | stat path st => exact single produces done
  | fstat fd st => exact single produces done
  | lstat path st => exact single produces done
  | getcwd buf size => exact getcwd_replayed_iff produces done real seq
  | _ => exact immediate.elim

/-- Only `getuid` can be replayed with another `errno`. -/
theorem Call.Immediate.errno {call : Call} (immediate : call.Immediate) (other : call ≠ .getuid)
    {answer : Answer} (produces : call.Produces answer.real) {result : CallResult}
    {args : LogArgs} (done : call.wrapper.issue answer = .done result args) (real : Real)
    (seq : UInt64) : (call.wrapper.replay true real (args.event seq)).errno = result.errno := by
  cases call with
  | clockGettime clockId tp => exact structWrapper_errno produces done real seq
  | gettimeofday tv tz => exact structWrapper_errno produces done real seq
  | getpid => exact congrArg CallResult.errno (getpid_replayed produces done real seq)
  | getuid => exact absurd rfl other
  | uname buf => exact structWrapper_errno produces done real seq
  | stat path st => exact structWrapper_errno produces done real seq
  | fstat fd st => exact structWrapper_errno produces done real seq
  | lstat path st => exact structWrapper_errno produces done real seq
  | getcwd buf size => exact getcwd_errno produces done real seq
  | _ => exact immediate.elim

/-- The uid -1 is replayed as itself by accident, though with an `errno`. -/
theorem getuid_same_iff {answer : Answer} {result : CallResult} {args : LogArgs}
    (produces : Call.getuid.Produces answer.real)
    (done : Wrapper.getuid.issue answer = .done result args) (real : Real) (seq : UInt64) :
    (Wrapper.getuid.replay true real (args.event seq)).Same result ↔
      result.ret < 2 ^ 31 ∨ result.ret = 2 ^ 32 - 1 := by
  have replayed := getuid_replayed produces done real seq
  have objects : result.out = none ∧ result.second = none := by cases done; exact ⟨rfl, rfl⟩
  split at replayed
  · rename_i small
    exact iff_of_true (by rw [replayed]; exact ⟨rfl, rfl, rfl⟩) (.inl small)
  · rename_i large
    obtain ⟨errno, replayed⟩ := replayed
    rw [replayed, CallResult.Same, objects.1, objects.2]
    simp only [and_true, large, false_or]
    exact eq_comm

/-- For every immediate wrapper and every result of the real function, the replay path
finds its event, and it gives the same value and the same objects back exactly if the
result fits the event or is the uid -1. -/
theorem immediate_replay_same_iff {call : Call} (immediate : call.Immediate) {answer : Answer}
    (produces : call.Produces answer.real) {result : CallResult} {args : LogArgs}
    (done : call.wrapper.issue answer = .done result args) (seq uthreadId : UInt64)
    (real : Real) :
    ∃ event,
      Reader.checkSyscall call.wrapper.nr uthreadId ⟨seq, uthreadId, args.payload⟩ = .ok event ∧
      ((call.wrapper.replay true real event).Same result ↔
        call.FitsEvent result ∨ call = .getuid ∧ result.ret = 2 ^ 32 - 1) := by
  have outcome : call.Outcome result args := .inl ⟨answer, done⟩
  have nr : call.wrapper.nr = args.nr := by
    rw [Call.number_eq, outcome.logged]
    rfl
  refine ⟨args.event seq, ?_, ?_⟩
  · rw [nr]
    exact checkSyscall_logged args seq uthreadId
  · by_cases uid : call = .getuid
    · subst uid
      rw [eq_self, true_and]
      exact getuid_same_iff produces done real seq
    · rw [or_iff_left (fun other => uid other.1), ← immediate.replayed_iff produces done real seq,
        CallResult.ext_iff, CallResult.Same]
      simp only [immediate.errno uid produces done real seq, true_and]

/-- The call ended as the kernel and libc let it end. -/
inductive Call.Delivered (call : Call) (result : CallResult) : Prop where
  | asynchronous (kind : call.Asynchronous) (args : LogArgs) (records : call.Records result args)
  | immediate (kind : call.Immediate) (answer : Answer) (args : LogArgs)
    (produces : call.Produces answer.real) (done : call.wrapper.issue answer = .done result args)

theorem Call.Delivered.replayed_iff {call : Call} {result : CallResult}
    (delivered : call.Delivered result) :
    call.replayed result = result ↔ call.FitsEvent result := by
  cases delivered with
  | asynchronous kind args records => exact records.replayed_iff kind
  | immediate kind answer args produces done =>
      have outcome : call.Outcome result args := .inl ⟨answer, done⟩
      rw [Call.replayed, ← outcome.logged]
      exact kind.replayed_iff produces done _ _

/-- An answer in which the real function behind an immediate wrapper has this outcome. -/
def Answer.ofReal (real : Real) : Answer :=
  ⟨⟨true, 4096, none, true, true, true, true, true, true⟩, real, true, .ok 0, fun _ => none⟩

theorem small_uid_replayed :
    ∃ event, Reader.checkSyscall Nr.getuid 1 ⟨1, 1, LogArgs.payload ⟨Nr.getuid, 1000, 0, none, 0⟩⟩ =
        .ok event ∧
      ((Wrapper.getuid.replay true ⟨0, 0, [], []⟩ event).Same ⟨1000, none, none, none⟩ ↔
        Call.getuid.FitsEvent ⟨1000, none, none, none⟩ ∨
          Call.getuid = .getuid ∧ (1000 : Int) = 2 ^ 32 - 1) := by
  have immediate : Call.getuid.Immediate := trivial
  have produces : Call.getuid.Produces (Answer.ofReal ⟨1000, 0, [], []⟩).real :=
    ⟨by decide, by decide⟩
  exact immediate_replay_same_iff immediate produces rfl 1 1 ⟨0, 0, [], []⟩

/-- `getcwd(NULL, 0)` finds the root directory when recorded and returns NULL in replay. -/
theorem null_getcwd_replays_null :
    ∃ result args,
      (Wrapper.getcwd none 0).issue (.ofReal ⟨1, 0, [47, 0], []⟩) = .done result args ∧
      ¬ ((Wrapper.getcwd none 0).replay true ⟨0, 0, [], []⟩ (args.event 1)).Same result := by
  refine ⟨_, _, rfl, ?_⟩
  rintro ⟨same, _⟩
  exact absurd same (by decide)

end Librr
