import Librr.Refinement
import Mathlib.Data.List.Perm.Basic

set_option autoImplicit false

namespace Librr

def Sqe.key (sqe : Sqe) : UInt64 × Nat := (sqe.userData, sqe.serial)

def Cqe.key (cqe : Cqe) : UInt64 × Nat := (cqe.userData, cqe.serial)

namespace Ring

/-- The operations that have been prepared and whose completion has not been
consumed, each as its `user_data` and its serial. -/
def entries (ring : Ring) : List (UInt64 × Nat) :=
  ring.sq.map Sqe.key ++ (ring.inflight.map Sqe.key ++ ring.cq.map Cqe.key)

/-- Those of the uthreads, without the signal read. -/
def pending (ring : Ring) : List (UInt64 × Nat) :=
  ring.entries.filter fun entry => entry.1 ≠ rrSignalSentinel

theorem entries_push (ring : Ring) (op : IoOp) (userData : UInt64) :
    (ring.push op userData).entries.Perm ((userData, ring.fresh) :: ring.entries) := by
  simp only [entries, push, List.map_append, List.map_cons, List.map_nil, List.append_assoc,
    List.cons_append, List.nil_append]
  exact List.perm_middle

theorem entries_submit (ring : Ring) : ring.submit.entries.Perm ring.entries := by
  simp only [entries, submit, List.map_nil, List.nil_append, List.map_append, ← List.append_assoc]
  exact List.Perm.append_right _ List.perm_append_comm

theorem entries_complete {ring : Ring} {index : Nat} {sqe : Sqe}
    (flying : ring.inflight[index]? = some sqe) (res : Int32) (data : Bytes) :
    (ring.complete index sqe res data).entries.Perm ring.entries := by
  have moved : (sqe.key :: (ring.inflight.eraseIdx index).map Sqe.key).Perm
      (ring.inflight.map Sqe.key) := by
    obtain ⟨inside, same⟩ := List.getElem?_eq_some_iff.mp flying
    have whole := List.getElem_cons_eraseIdx_perm inside
    rw [same] at whole
    exact whole.map Sqe.key
  simp only [entries, complete, List.map_append, List.map_cons, List.map_nil]
  refine List.Perm.append_left _ ?_
  rw [← List.append_assoc]
  exact (List.perm_append_singleton _ _).trans (moved.append_right _)

theorem entries_cqeSeen {ring : Ring} {cqe : Cqe} {rest : List Cqe}
    (first : ring.cq = cqe :: rest) :
    ring.entries.Perm (cqe.key :: ring.cqeSeen.entries) := by
  simp only [entries, cqeSeen, first, List.map_cons, List.tail_cons, ← List.append_assoc]
  exact List.perm_middle

theorem pending_perm {ring other : Ring} (same : ring.entries.Perm other.entries) :
    ring.pending.Perm other.pending := same.filter _

/-- No two operations share a serial, and the next one has a fresh one. -/
structure Serials (ring : Ring) : Prop where
  nodup : (ring.entries.map Prod.snd).Nodup
  below : ∀ entry ∈ ring.entries, entry.2 < ring.fresh

theorem Serials.perm {ring other : Ring} (serials : ring.Serials)
    (same : other.entries.Perm ring.entries) (fresh : other.fresh = ring.fresh) :
    other.Serials := by
  refine ⟨?_, ?_⟩
  · exact ((same.map Prod.snd).nodup_iff).mpr serials.nodup
  · intro entry member
    rw [fresh]
    exact serials.below entry (same.mem_iff.mp member)

theorem Serials.push {ring : Ring} (serials : ring.Serials) (op : IoOp) (userData : UInt64) :
    (ring.push op userData).Serials := by
  have same := ring.entries_push op userData
  refine ⟨?_, ?_⟩
  · rw [(same.map Prod.snd).nodup_iff, List.map_cons, List.nodup_cons]
    refine ⟨?_, serials.nodup⟩
    intro member
    obtain ⟨entry, inside, equal⟩ := List.mem_map.mp member
    have bound := serials.below entry inside
    omega
  · intro entry member
    have next : (ring.push op userData).fresh = ring.fresh + 1 := rfl
    rw [next]
    rcases List.mem_cons.mp (same.mem_iff.mp member) with rfl | old
    · exact Nat.lt_succ_self ring.fresh
    · have bound := serials.below entry old
      omega

theorem Serials.cqeSeen {ring : Ring} {cqe : Cqe} {rest : List Cqe} (serials : ring.Serials)
    (first : ring.cq = cqe :: rest) : ring.cqeSeen.Serials := by
  have same := entries_cqeSeen first
  have whole := (same.map Prod.snd).nodup_iff.mp serials.nodup
  refine ⟨?_, ?_⟩
  · exact (List.nodup_cons.mp whole).2
  · intro entry member
    exact serials.below entry (same.mem_iff.mpr (List.mem_cons_of_mem _ member))

theorem pending_push_signal (ring : Ring) (op : IoOp) :
    (ring.push op rrSignalSentinel).pending.Perm ring.pending := by
  have same := (ring.entries_push op rrSignalSentinel).filter
    fun entry => entry.1 ≠ rrSignalSentinel
  simpa [pending] using same

theorem pending_push {ring : Ring} {userData : UInt64} (tagged : userData ≠ rrSignalSentinel)
    (op : IoOp) :
    (ring.push op userData).pending.Perm ((userData, ring.fresh) :: ring.pending) := by
  have same := (ring.entries_push op userData).filter fun entry => entry.1 ≠ rrSignalSentinel
  simpa [pending, tagged] using same

theorem pending_cqeSeen_signal {ring : Ring} {cqe : Cqe} {rest : List Cqe}
    (first : ring.cq = cqe :: rest) (sentinel : cqe.userData = rrSignalSentinel) :
    ring.cqeSeen.pending.Perm ring.pending := by
  have same := (entries_cqeSeen first).filter fun entry => entry.1 ≠ rrSignalSentinel
  have symm := same.symm
  simpa [pending, Cqe.key, sentinel] using symm

theorem pending_cqeSeen {ring : Ring} {cqe : Cqe} {rest : List Cqe}
    (first : ring.cq = cqe :: rest) (tagged : cqe.userData ≠ rrSignalSentinel) :
    ring.pending.Perm (cqe.key :: ring.cqeSeen.pending) := by
  have same := (entries_cqeSeen first).filter fun entry => entry.1 ≠ rrSignalSentinel
  simpa [pending, Cqe.key, tagged] using same

end Ring

namespace State

/-- Submitting the signal read again concerns the signal read alone. -/
theorem rearmSignalRead_ring (s : State) (submitted : Bool) :
    (s.rearmSignalRead submitted).ring.cq = s.ring.cq ∧
      (s.rearmSignalRead submitted).ring.pending.Perm s.ring.pending ∧
      (s.rearmSignalRead submitted).log = s.log ∧ (s.rearmSignalRead submitted).seq = s.seq := by
  rcases s.rearmSignalRead_cases submitted with ⟨_, same⟩ | ⟨fd, _, _, same⟩
  · rw [same]
    exact ⟨rfl, .refl _, rfl, rfl⟩
  · rw [same]
    split
    · refine ⟨rfl, ?_, rfl, rfl⟩
      exact (Ring.pending_perm (Ring.entries_submit _)).trans (s.ring.pending_push_signal _)
    · exact ⟨rfl, s.ring.pending_push_signal _, rfl, rfl⟩

end State

end Librr
