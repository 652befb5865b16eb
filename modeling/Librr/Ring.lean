import Librr.Wrappers

set_option autoImplicit false

namespace Librr

/-- A submission queue entry. `serial` tells apart the operations that carry the
same `user_data`; neither liburing nor the runtime sees it. -/
structure Sqe where
  op : IoOp
  userData : UInt64
  serial : Nat
  deriving DecidableEq, Repr

structure Cqe where
  userData : UInt64
  res : Int32
  serial : Nat
  deriving DecidableEq, Repr

/-- The ring of `io_uring.c` with the kernel's side of it: entries prepared but
not submitted, operations in flight, completions not consumed, and the bytes the
kernel has stored for each operation. -/
structure Ring where
  ready : Bool
  signalFd : Option Int32
  signalInfo : Bytes
  sq : List Sqe
  inflight : List Sqe
  cq : List Cqe
  fresh : Nat
  written : Nat → Bytes

namespace Ring

/-- No ring, as outside record mode. -/
def absent : Ring where
  ready := false
  signalFd := none
  signalInfo := List.replicate 128 0
  sq := []
  inflight := []
  cq := []
  fresh := 0
  written _ := []

/-- The entry `io_uring_get_sqe` hands out, prepared. -/
def push (ring : Ring) (op : IoOp) (userData : UInt64) : Ring :=
  { ring with sq := ring.sq ++ [⟨op, userData, ring.fresh⟩], fresh := ring.fresh + 1 }

/-- `io_uring_get_sqe` and the preparation of the entry. A full queue has none. -/
def prepare (ring : Ring) (op : IoOp) (userData : UInt64) : Option Ring :=
  if ring.sq.length = ringEntries then none else some (ring.push op userData)

/-- A successful `io_uring_submit` hands over every entry of the queue, those of
failed submissions included. -/
def submit (ring : Ring) : Ring :=
  { ring with sq := [], inflight := ring.inflight ++ ring.sq }

/-- The kernel completes the operation at `index`: it stores `data` for it and
queues the completion. The signal read stores into `g_signal_info`. -/
def complete (ring : Ring) (index : Nat) (sqe : Sqe) (res : Int32) (data : Bytes) : Ring :=
  { ring with
    inflight := ring.inflight.eraseIdx index
    cq := ring.cq ++ [⟨sqe.userData, res, sqe.serial⟩]
    written := Function.update ring.written sqe.serial data
    signalInfo :=
      if sqe.userData = rrSignalSentinel then overwrite ring.signalInfo data
      else ring.signalInfo }

/-- `io_uring_cqe_seen` on the first completion. -/
def cqeSeen (ring : Ring) : Ring := { ring with cq := ring.cq.tail }

/-- `ssi_signo`, the first field of `g_signal_info`. -/
def ssiSigno (ring : Ring) : UInt32 := UInt32.ofNat (LittleEndian.field ring.signalInfo 0 4)

end Ring

end Librr
