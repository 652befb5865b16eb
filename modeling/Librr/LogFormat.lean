import Librr.Base.LittleEndian
import Librr.Types
import Mathlib.Data.List.TakeDrop

set_option autoImplicit false

namespace Librr

open LittleEndian

/-- The `data[64]` of a system call event. -/
abbrev EventData := { bytes : Bytes // bytes.length = 64 }

/-- A copy into the zeroed field. -/
def EventData.ofBytes (bytes : Bytes) : EventData := ⟨bytes.takeD 64 0, List.takeD_length ..⟩

/-- The union of `rr_event_t` under its tag. No reader looks behind a tag it does
not know. -/
inductive Payload where
  | syscall (nr retval : Int32) (arg0 : UInt64) (data : EventData) (dataLen : UInt32)
  | signal (signo activeUthread : UInt32)
  | sched (fromId toId : UInt64)
  | other (kind : UInt32) (unknown : kind ≠ 1 ∧ kind ≠ 2 ∧ kind ≠ 3)
  deriving DecidableEq, Repr

structure Event where
  seq : UInt64
  uthreadId : UInt64
  payload : Payload
  deriving DecidableEq, Repr

/-- The arguments of one `rr_log_syscall`. -/
structure LogArgs where
  nr : Int32
  retval : Int32
  arg0 : UInt64
  data : Option Bytes
  dataLen : Nat
  deriving DecidableEq, Repr

/-- `rr_replay_syscall_event_t`. -/
structure ReplayEvent where
  seq : UInt64
  nr : Int32
  retval : Int32
  arg0 : UInt64
  data : EventData
  dataLen : Nat
  deriving DecidableEq, Repr

/-- Bytes that `rr_log_syscall` copies into the event. -/
def LogArgs.capped (args : LogArgs) : Nat :=
  if args.data = none then 0 else min args.dataLen 64

def LogArgs.payload (args : LogArgs) : Payload :=
  .syscall args.nr args.retval args.arg0
    (.ofBytes ((args.data.getD []).take args.capped)) (UInt32.ofNat args.capped)

def Payload.kind : Payload → UInt32
  | .syscall .. => 1
  | .signal .. => 2
  | .sched .. => 3
  | .other kind _ => kind

/-- `sizeof(rr_log_header_t)`. -/
def sizeofHeader : Nat := 24

/-- `sizeof(rr_event_t)`: 24 bytes before the union and 88 bytes of it. -/
def sizeofEvent : Nat := 112

def encodeInt32 (value : Int32) : Bytes := split 4 value.toUInt32.toNat

def decodeInt32 (bytes : Bytes) (offset : Nat) : Int32 :=
  (UInt32.ofNat (field bytes offset 4)).toInt32

/-- The 88 bytes of the union, zero where no member of the chosen struct lies. -/
def Payload.encode : Payload → Bytes
  | .syscall nr retval arg0 data dataLen =>
    encodeInt32 nr ++ (encodeInt32 retval ++ (split 8 arg0.toNat ++
      (data.val ++ (split 4 dataLen.toNat ++ List.replicate 4 0))))
  | .signal signo activeUthread =>
    split 4 signo.toNat ++ (split 4 activeUthread.toNat ++ List.replicate 80 0)
  | .sched fromId toId =>
    split 8 fromId.toNat ++ (split 8 toId.toNat ++ List.replicate 72 0)
  | .other _ _ => List.replicate 88 0

def Event.encode (event : Event) : Bytes :=
  split 8 event.seq.toNat ++ (split 8 event.uthreadId.toNat ++
    (split 4 event.payload.kind.toNat ++ (List.replicate 4 0 ++ event.payload.encode)))

def Payload.decode (kind : UInt32) (bytes : Bytes) : Payload :=
  if syscall : kind = 1 then
    .syscall (decodeInt32 bytes 0) (decodeInt32 bytes 4) (UInt64.ofNat (field bytes 8 8))
      (.ofBytes (slice bytes 16 64)) (UInt32.ofNat (field bytes 80 4))
  else if signal : kind = 2 then
    .signal (UInt32.ofNat (field bytes 0 4)) (UInt32.ofNat (field bytes 4 4))
  else if sched : kind = 3 then
    .sched (UInt64.ofNat (field bytes 0 8)) (UInt64.ofNat (field bytes 8 8))
  else .other kind ⟨syscall, signal, sched⟩

/-- The record as a reader sees it in memory. -/
def Event.decode (bytes : Bytes) : Event where
  seq := UInt64.ofNat (field bytes 0 8)
  uthreadId := UInt64.ofNat (field bytes 8 8)
  payload := .decode (UInt32.ofNat (field bytes 16 4)) (bytes.drop 24)

structure Header where
  magic : UInt32
  version : UInt32
  startTime : UInt64
  pid : UInt32
  reserved : UInt32
  deriving DecidableEq, Repr

def Header.encode (header : Header) : Bytes :=
  split 4 header.magic.toNat ++ (split 4 header.version.toNat ++
    (split 8 header.startTime.toNat ++ (split 4 header.pid.toNat ++
      split 4 header.reserved.toNat)))

def Header.decode (bytes : Bytes) : Header where
  magic := UInt32.ofNat (field bytes 0 4)
  version := UInt32.ofNat (field bytes 4 4)
  startTime := UInt64.ofNat (field bytes 8 8)
  pid := UInt32.ofNat (field bytes 16 4)
  reserved := UInt32.ofNat (field bytes 20 4)

/-- The header `rr_record_init` writes. -/
def Header.recorded (startTime : UInt64) (pid : UInt32) : Header :=
  ⟨rrLogMagic, rrLogVersion, startTime, pid, 0⟩

@[simp] theorem Payload.length_encode (payload : Payload) : payload.encode.length = 88 := by
  cases payload with
  | syscall nr retval arg0 data dataLen => simp [encode, encodeInt32, data.property]
  | signal signo activeUthread => simp [encode]
  | sched fromId toId => simp [encode]
  | other kind unknown => simp [encode]

theorem decodeInt32_encode (value : Int32) (rest : Bytes) :
    decodeInt32 (encodeInt32 value ++ rest) 0 = value := by
  have bound : value.toUInt32.toNat < 256 ^ 4 := by
    have := value.toUInt32.toNat_lt
    omega
  rw [decodeInt32, encodeInt32, field_split_left, Nat.mod_eq_of_lt bound, UInt32.ofNat_toNat,
    Int32.toInt32_toUInt32]

theorem uint32_field (value : UInt32) (rest : Bytes) :
    UInt32.ofNat (field (split 4 value.toNat ++ rest) 0 4) = value := by
  have bound : value.toNat < 256 ^ 4 := by
    have := value.toNat_lt
    omega
  rw [field_split_left, Nat.mod_eq_of_lt bound, UInt32.ofNat_toNat]

theorem uint64_field (value : UInt64) (rest : Bytes) :
    UInt64.ofNat (field (split 8 value.toNat ++ rest) 0 8) = value := by
  have bound : value.toNat < 256 ^ 8 := by
    have := value.toNat_lt
    omega
  rw [field_split_left, Nat.mod_eq_of_lt bound, UInt64.ofNat_toNat]

theorem decodeInt32_append_right (front rest : Bytes) {offset : Nat}
    (behind : front.length ≤ offset) :
    decodeInt32 (front ++ rest) offset = decodeInt32 rest (offset - front.length) := by
  rw [decodeInt32, decodeInt32, field_append_right front rest behind]

@[simp] theorem length_encodeInt32 (value : Int32) : (encodeInt32 value).length = 4 := by
  simp [encodeInt32]

theorem EventData.ofBytes_val (data : EventData) : EventData.ofBytes data.val = data := by
  apply Subtype.ext
  calc data.val.takeD 64 0
    _ = data.val.take 64 := List.takeD_eq_take 0 (Nat.le_of_eq data.property.symm)
    _ = data.val := List.take_of_length_le (Nat.le_of_eq data.property)

theorem Payload.decode_encode (payload : Payload) :
    Payload.decode payload.kind payload.encode = payload := by
  cases payload with
  | syscall nr retval arg0 data dataLen =>
      have body : slice (data.val ++ (split 4 dataLen.toNat ++ List.replicate 4 0)) 0 64 =
          data.val := slice_append_left data.property
      simp only [kind, encode, decode, ↓reduceDIte, decodeInt32_encode]
      simp (disch := simp [data.property]) only [decodeInt32_append_right, field_append_right,
        slice_append_right, length_encodeInt32, length_split, data.property, Nat.reduceSub,
        decodeInt32_encode, uint64_field, uint32_field, body, EventData.ofBytes_val]
  | signal signo activeUthread =>
      simp (disch := simp) [kind, encode, decode, uint32_field, field_append_right]
  | sched fromId toId =>
      simp (disch := simp) [kind, encode, decode, uint64_field, field_append_right]
  | other kind unknown =>
      simp [Payload.kind, decode, unknown]

@[simp] theorem Event.length_encode (event : Event) : event.encode.length = sizeofEvent := by
  simp [encode, sizeofEvent]

/-- Every event survives the trip through its record. -/
theorem Event.decode_encode (event : Event) : Event.decode event.encode = event := by
  have union : event.encode.drop 24 = event.payload.encode := by
    simp (disch := simp) [encode, List.drop_append, List.drop_of_length_le]
  have parts : Event.decode event.encode =
      ⟨event.seq, event.uthreadId, .decode event.payload.kind event.payload.encode⟩ := by
    rw [Event.decode, union]
    simp (disch := simp) only [encode, field_append_right, length_split, Nat.reduceSub,
      uint64_field, uint32_field]
  rw [parts, Payload.decode_encode]

@[simp] theorem Header.length_encode (header : Header) :
    header.encode.length = sizeofHeader := by
  simp [encode, sizeofHeader]

theorem Header.decode_encode (header : Header) : Header.decode header.encode = header := by
  have last : UInt32.ofNat (field (split 4 header.reserved.toNat) 0 4) = header.reserved := by
    simpa using uint32_field header.reserved []
  simp (disch := simp) only [Header.decode, encode, field_append_right, length_split,
    Nat.reduceSub, uint64_field, uint32_field, last]

end Librr
