import Librr.Frames
import Librr.RingFacts
import Mathlib.Logic.Relation

set_option autoImplicit false

namespace Librr

open Relation Transition

namespace Ring

/-- What can happen to the ring at a time. -/
inductive Move (ring : Ring) : Ring → Prop where
  | push (op : IoOp) (userData : UInt64) : Move ring (ring.push op userData)
  | submit : Move ring ring.submit
  | complete (index : Nat) (sqe : Sqe) (res : Int32) (data : Bytes)
    (flying : ring.inflight[index]? = some sqe) : Move ring (ring.complete index sqe res data)
  | seen (cqe : Cqe) (rest : List Cqe) (first : ring.cq = cqe :: rest) : Move ring ring.cqeSeen

/-- A property of the ring that every move keeps is kept by any number of them. -/
theorem moves_keep {keeps : Ring → Prop} (kept : ∀ ring other, Move ring other → keeps ring →
    keeps other) {ring other : Ring} (moves : ReflTransGen Move ring other) (holds : keeps ring) :
    keeps other := by
  induction moves with
  | refl => exact holds
  | tail _ last ih => exact kept _ _ last ih

theorem Serials.move {ring other : Ring} (move : Move ring other) (serials : ring.Serials) :
    other.Serials := by
  cases move with
  | push op userData => exact serials.push op userData
  | submit => exact serials.perm ring.entries_submit rfl
  | complete index sqe res data flying => exact serials.perm (entries_complete flying res data) rfl
  | seen cqe rest first => exact serials.cqeSeen first

/-- An entry is prepared and handed over together with everything queued. -/
theorem moves_push_submit (ring : Ring) (op : IoOp) (userData : UInt64) :
    ReflTransGen Move ring (ring.push op userData).submit :=
  (ReflTransGen.single (.push op userData)).tail .submit

end Ring

namespace State

theorem moves_rearm (s : State) (submitted : Bool) :
    ReflTransGen Ring.Move s.ring (s.rearmSignalRead submitted).ring := by
  rcases s.rearmSignalRead_cases submitted with ⟨_, same⟩ | ⟨fd, _, _, same⟩
  · rw [same]
  · rw [same]
    split
    · exact s.ring.moves_push_submit _ _
    · exact .single (.push _ _)

theorem moves_rearm_seen {s : State} {cqe : Cqe} {rest : List Cqe} (submitted : Bool)
    (first : s.ring.cq = cqe :: rest) :
    ReflTransGen Ring.Move s.ring (s.rearmSignalRead submitted).cqeSeen.ring := by
  have kept : (s.rearmSignalRead submitted).ring.cq = cqe :: rest := by
    rw [(rearmSignalRead_ring s submitted).1, first]
  exact (s.moves_rearm submitted).tail (.seen cqe rest kept)

theorem loggedReturn_ring (s : State) (args : LogArgs) (ut : Ptr) (call : Call)
    (result : CallResult) : ((s.rrLogSyscall args).returnCall ut call result).ring = s.ring := by
  rw [returnCall, (rrLogSyscall_same s args).ring]

/-- Every step of a recording process moves the ring in these ways. -/
theorem RecordStep.moves {program : Program} {s t : State} {input : Input}
    (kind : RecordStep program s input t) : ReflTransGen Ring.Move s.ring t.ring := by
  cases kind with
  | perform answer ut u sched user running performed => exact .refl
  | immediate answer ut u call result args user running next done =>
      rw [loggedReturn_ring]
  | full answer ut u call op finish user running next submits half filled =>
      rw [loggedReturn_ring]
  | refused answer ut u call op finish user running next submits half room failed =>
      rw [loggedReturn_ring]
      exact .single (.push op _)
  | submitted answer ut u call op finish user running next submits half room accepted =>
      exact s.ring.moves_push_submit op _
  | interrupted answer idle empty broken => exact .refl
  | killed answer cqe rest idle empty first sentinel full fatal =>
      rw [(rrLogSignal_same s _ _).ring]
  | signal answer cqe rest idle empty first sentinel full harmless =>
      have same := (rrLogSignal_same s s.ring.ssiSigno s.sched.currentId.toUInt32).ring
      have moves := moves_rearm_seen (s := s.rrLogSignal s.ring.ssiSigno
        s.sched.currentId.toUInt32) answer.submit (same ▸ first)
      rw [same] at moves
      exact moves
  | short answer cqe rest idle empty first sentinel short => exact moves_rearm_seen _ first
  | wake answer cqe rest idle empty first tagged => exact .single (.seen cqe rest first)
  | dispatch answer next u idle head found runnable =>
      rw [switchTo_eq, (resume_kept _ next u).2.1, arrive, (logSwitch_same s u.id).ring]
  | post index res data sqe live flying => exact .single (.complete index sqe res data flying)

theorem recordStart_serials (stackSize : Nat) (signalFd : Int32) :
    (recordStart stackSize signalFd).ring.Serials := by
  rw [recordStart_eq]
  exact ⟨by simp [Ring.entries, Ring.absent], by simp [Ring.entries, Ring.absent, Sqe.key]⟩

/-- In every recording run no two operations share a serial. -/
theorem serials_of_exec {program : Program} {stackSize : Nat} {signalFd : Int32}
    {inputs : List Input} {s : State}
    (reached : exec (step program) (recordStart stackSize signalFd) inputs = some s) :
    s.ring.Serials := by
  have kept : ∀ before input after, step program before input = some after →
      before.Recording ∧ before.ring.Serials → after.Recording ∧ after.ring.Serials := by
    rintro before input after taken ⟨recording, serials⟩
    obtain ⟨kind, next⟩ := recording.step taken
    exact ⟨next, Ring.moves_keep (fun _ _ move => Ring.Serials.move move) kind.moves serials⟩
  exact (exec_invariant kept ⟨recordStart_recording stackSize signalFd,
    recordStart_serials stackSize signalFd⟩ reached).2

end State

end Librr
