import Librr.ReplayFacts

set_option autoImplicit false

namespace Librr

/-- Position `i` of the log carries the number `i + 1`. -/
def Stamped (log : List Event) : Prop := ∀ i event, log[i]? = some event →
  event.seq = UInt64.ofNat (i + 1)

/-- The log after one `rr_log_*` call for each of the entries, from `g_rr_seq == 0` on. -/
def recordedLog (entries : List (UInt64 × Payload)) : List Event :=
  (entries.foldl (fun s entry => s.appendEvent entry.1 entry.2)
    (State.fresh ⟨true, false, true, true, rrDefaultStackSize⟩)).log

theorem Stamped.snoc {log : List Event} (stamped : Stamped log) (uthreadId : UInt64)
    (payload : Payload) :
    Stamped (log ++ [⟨UInt64.ofNat (log.length + 1), uthreadId, payload⟩]) := by
  intro i event found
  rcases Nat.lt_trichotomy i log.length with inside | same | outside
  · rw [List.getElem?_append_left inside] at found
    exact stamped i event found
  · subst same
    rw [List.getElem?_append_right (Nat.le_refl _), Nat.sub_self] at found
    cases found
    rfl
  · rw [List.getElem?_eq_none] at found
    · cases found
    · simp only [List.length_append, List.length_singleton]
      omega

theorem foldl_appendEvent (entries : List (UInt64 × Payload)) (s : State)
    (stamped : Stamped s.log) (count : s.seq = UInt64.ofNat s.log.length) :
    Stamped (entries.foldl (fun s entry => s.appendEvent entry.1 entry.2) s).log := by
  induction entries generalizing s with
  | nil => exact stamped
  | cons entry rest ih =>
      have next : s.seq + 1 = UInt64.ofNat (s.log.length + 1) := by
        rw [count, UInt64.ofNat_add]
        rfl
      apply ih
      · show Stamped (s.log ++ [⟨s.seq + 1, entry.1, entry.2⟩])
        rw [next]
        exact stamped.snoc entry.1 entry.2
      · show s.seq + 1 = UInt64.ofNat (s.log ++ [_]).length
        rw [next, List.length_append, List.length_singleton]

/-- Whatever is logged, the recorder numbers it in order. -/
theorem recordedLog_stamped (entries : List (UInt64 × Payload)) :
    Stamped (recordedLog entries) := by
  apply foldl_appendEvent
  · intro i event found
    cases found
  · rfl

/-- A number below the length of the log stands for one event of it. -/
theorem Stamped.unique {log : List Event} (stamped : Stamped log) (short : log.length < 2 ^ 64)
    {k : Nat} (inside : k ≤ log.length) {event : Event} (member : event ∈ log)
    (numbered : event.seq = UInt64.ofNat (k + 1)) : log[k]? = some event := by
  obtain ⟨i, found⟩ := List.mem_iff_getElem?.mp member
  have below : i < log.length := (List.getElem?_eq_some_iff.mp found).1
  have same : (i + 1) % 2 ^ 64 = (k + 1) % 2 ^ 64 := by
    have both := (stamped i event found).symm.trans numbered
    have values := congrArg UInt64.toNat both
    simpa only [UInt64.toNat_ofNat'] using values
  obtain rfl : i = k := by omega
  exact found

/-- What the runtime asks of the log. -/
inductive Request where
  | sched (fromId toId : UInt64)
  | syscall (nr : Int32) (uthreadId : UInt64)
  deriving DecidableEq, Repr

namespace Reader

def serve (reader : Reader) : Request → Reader
  | .sched fromId toId => (reader.rrReplayExpectSched fromId toId).1
  | .syscall nr uthreadId => (reader.rrReplayNextSyscall nr uthreadId).1

/-- The request succeeds. -/
def grants (reader : Reader) : Request → Bool
  | .sched fromId toId => (reader.rrReplayExpectSched fromId toId).2.toBool
  | .syscall nr uthreadId => (reader.rrReplayNextSyscall nr uthreadId).2.toBool

/-- The events on which `rr_replay_next_event` succeeds in a sequence of requests, each
with whether its request succeeds as well. -/
def delivered (reader : Reader) : List Request → List (Event × Bool)
  | [] => []
  | request :: rest =>
    match reader.rrReplayNextEvent.2 with
    | .error _ => (reader.serve request).delivered rest
    | .ok event => (event, reader.grants request) :: (reader.serve request).delivered rest

theorem serve_before (events : List Event) (seq : UInt64) (request : Request) :
    (before events seq).serve request = (before events seq).rrReplayNextEvent.1 := by
  cases request with
  | sched fromId toId => rfl
  | syscall nr uthreadId => rfl

theorem rrReplayNextEvent_nil (seq : UInt64) :
    (before [] seq).rrReplayNextEvent = (before [] seq, .error Errno.ENODATA) := rfl

/-- A record with another number is used up and changes nothing else. -/
theorem rrReplayNextEvent_skipped {event : Event} {seq : UInt64} (apart : event.seq ≠ seq)
    (rest : List Event) :
    (before (event :: rest) seq).rrReplayNextEvent = (before rest seq, .error Errno.EPROTO) := by
  have record := rrReadFull_append (Event.length_encode event) (rest.flatMap Event.encode)
  simp only [rrReplayNextEvent, before, List.flatMap_cons, record, acceptEvent,
    Event.decode_encode]
  simp [apart]

/-- From position `k` on, the events delivered out of any rearrangement of records are the
next ones of the log. -/
theorem delivered_before {log : List Event} (stamped : Stamped log) (short : log.length < 2 ^ 64)
    (requests : List Request) (records : List Event) (among : ∀ event ∈ records, event ∈ log)
    {k : Nat} (inside : k ≤ log.length) :
    ((before records (UInt64.ofNat (k + 1))).delivered requests).map Prod.fst <+: log.drop k := by
  induction requests generalizing records k with
  | nil => exact List.nil_prefix
  | cons request rest ih =>
      cases records with
      | nil =>
          simp only [delivered, serve_before, rrReplayNextEvent_nil]
          exact ih [] (by simp) inside
      | cons event others =>
          have later : ∀ other ∈ others, other ∈ log := fun other member =>
            among other (List.mem_cons_of_mem event member)
          by_cases same : event.seq = UInt64.ofNat (k + 1)
          · -- The number singles out the event of the log at this position.
            have found := stamped.unique short inside (among event (by simp)) same
            obtain ⟨below, here⟩ := List.getElem?_eq_some_iff.mp found
            have read := rrReplayNextEvent_before event others
            rw [same] at read
            have next : UInt64.ofNat (k + 1) + 1 = UInt64.ofNat (k + 1 + 1) := by
              rw [UInt64.ofNat_add (k + 1)]
              rfl
            simp only [delivered, serve_before, read, next, List.map_cons]
            rw [List.drop_eq_getElem_cons below, here, List.cons_prefix_cons]
            exact ⟨rfl, ih others later below⟩
          · simp only [delivered, serve_before, rrReplayNextEvent_skipped same]
            exact ih others later inside

/-- A file that begins with a header of the right magic and version is accepted. -/
theorem rrReplayInit_header {header : Header} (magic : header.magic = rrLogMagic)
    (version : header.version = rrLogVersion) (events : List Event) :
    rrReplayInit (some (header.encode ++ events.flatMap Event.encode)) =
      some (.before events 1) := by
  have front := rrReadFull_append (Header.length_encode header) (events.flatMap Event.encode)
  rw [rrReplayInit, Option.bind_some, front, acceptHeader, Header.decode_encode]
  simp [magic, version, before]

/-- Out of a file of whole records of a recorded log, deleted, duplicated and permuted in
any way, every sequence of requests is delivered a prefix of that log. -/
theorem rearranged_log_delivers_prefix (entries : List (UInt64 × Payload))
    (short : (recordedLog entries).length < 2 ^ 64) (records : List Event)
    (among : ∀ event ∈ records, event ∈ recordedLog entries) (header : Header)
    (magic : header.magic = rrLogMagic) (version : header.version = rrLogVersion)
    (requests : List Request) :
    ∃ reader,
      rrReplayInit (some (header.encode ++ records.flatMap Event.encode)) = some reader ∧
      (reader.delivered requests).map Prod.fst <+: recordedLog entries ∧
      (((reader.delivered requests).filter Prod.snd).map Prod.fst).Sublist
        (recordedLog entries) := by
  have front := delivered_before (recordedLog_stamped entries) short requests records among
    (Nat.zero_le _)
  rw [List.drop_zero] at front
  refine ⟨.before records 1, rrReplayInit_header magic version records, front, ?_⟩
  exact (List.filter_sublist.map Prod.fst).trans front.sublist

/-- Two switches in the wrong order, one of them twice. -/
theorem swapped_switches_deliver_prefix :
    ∃ reader,
      rrReplayInit (some ((Header.recorded 0 7).encode ++
        [(⟨2, 2, .sched 1 2⟩ : Event), ⟨1, 1, .sched 0 1⟩, ⟨1, 1, .sched 0 1⟩].flatMap
          Event.encode)) = some reader ∧
      (reader.delivered [.sched 0 1, .syscall 0 1, .sched 0 1]).map Prod.fst <+:
        recordedLog [(1, .sched 0 1), (2, .sched 1 2)] ∧
      (((reader.delivered [.sched 0 1, .syscall 0 1, .sched 0 1]).filter Prod.snd).map
        Prod.fst).Sublist (recordedLog [(1, .sched 0 1), (2, .sched 1 2)]) :=
  rearranged_log_delivers_prefix _ (by decide) _ (by decide) _ rfl rfl _

end Reader

end Librr
