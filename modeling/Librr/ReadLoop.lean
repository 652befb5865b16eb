import Librr.Requests

set_option autoImplicit false

namespace Librr

/-- What one `read` on the log does: it is interrupted, it fails, or it hands out up to
`count` of the bytes that are left. -/
inductive ReadAnswer where
  | interrupted
  | failed
  | given (count : Nat)
  deriving DecidableEq, Repr

/-- How far `rr_read_full` has come when the answers given to it end. -/
inductive ReadStatus where
  | done
  | failed
  | inside
  deriving DecidableEq, Repr

/-- A short read or an interruption. -/
def ReadAnswer.Benign : ReadAnswer → Prop
  | .interrupted => True
  | .failed => False
  | .given count => 0 < count

instance : DecidablePred ReadAnswer.Benign
  | .interrupted => isTrue trivial
  | .failed => isFalse id
  | .given count => inferInstanceAs (Decidable (0 < count))

def ReadAnswer.gives : ReadAnswer → Bool
  | .given _ => true
  | _ => false

namespace Reader

/-- The loop of `rr_read_full`, `got` being the bytes read so far. -/
def rrReadFullLoop (len : Nat) (unread got : Bytes) :
    List ReadAnswer → Bytes × Bytes × ReadStatus
  | [] => if got.length < len then (unread, got, .inside) else (unread, got, .done)
  | answer :: rest =>
    if got.length < len then
      match answer with
      | .interrupted => rrReadFullLoop len unread got rest
      | .failed => (unread, got, .failed)
      | .given count =>
        let chunk := unread.take (min count (len - got.length))
        -- End of file.
        if chunk = [] then (unread, got, .failed)
        else rrReadFullLoop len (unread.drop chunk.length) (got ++ chunk) rest
    else (unread, got, .done)

/-- The bytes left and what `rr_read_full` returns, or `none` where it has not returned. -/
def rrReadFullWith (unread : Bytes) (len : Nat) (answers : List ReadAnswer) :
    Option (Bytes × Option Bytes) :=
  match rrReadFullLoop len unread [] answers with
  | (_, _, .inside) => none
  | (rest, _, .failed) => some (rest, none)
  | (rest, got, .done) => some (rest, some got)

/-- `rr_replay_init` with what `read` does during it. -/
def rrReplayInitWith (file : Bytes) (answers : List ReadAnswer) : Option (Option Reader) :=
  (rrReadFullWith file sizeofHeader answers).map acceptHeader

/-- `rr_replay_next_event` with what `read` does during it. -/
def rrReplayNextEventWith (reader : Reader) (answers : List ReadAnswer) :
    Option (Reader × Except Int32 Event) :=
  if !reader.headerOk || !reader.opened then some (reader, .error Errno.EINVAL)
  else (rrReadFullWith reader.unread sizeofEvent answers).map reader.acceptEvent

/-- One call of `rr_replay_next_event` after another. -/
def nextEventsWith (reader : Reader) : List (List ReadAnswer) → Option (List (Except Int32 Event))
  | [] => some []
  | answers :: rest =>
    (reader.rrReplayNextEventWith answers).bind fun outcome =>
      (outcome.1.nextEventsWith rest).map (outcome.2 :: ·)

/-- What the loop comes to: all it asks for, or a failure at the end of the file. -/
def readOutcome (len : Nat) (unread got : Bytes) : Bytes × Bytes × ReadStatus :=
  if len ≤ got.length + unread.length then
    (unread.drop (len - got.length), got ++ unread.take (len - got.length), .done)
  else ([], got ++ unread, .failed)

section

variable {len : Nat} {unread got : Bytes}

theorem readOutcome_full (room : got.length ≤ len) (full : ¬ got.length < len) :
    readOutcome len unread got = (unread, got, .done) := by
  have none : len - got.length = 0 := by omega
  rw [readOutcome, if_pos (by omega), none]
  simp

theorem readOutcome_end (short : got.length < len) :
    readOutcome len [] got = ([], got, .failed) := by
  rw [readOutcome, if_neg (by simp only [List.length_nil]; omega), List.append_nil]

/-- Some of the bytes are read. -/
theorem readOutcome_chunk (count : Nat) (asked : count ≤ len - got.length)
    (there : count ≤ unread.length) :
    readOutcome len (unread.drop count) (got ++ unread.take count) =
      readOutcome len unread got := by
  have taken : (unread.take count).length = count := List.length_take_of_le there
  have rest : len - (got.length + count) = len - got.length - count := by omega
  have whole : count + (len - got.length - count) = len - got.length := by omega
  simp only [readOutcome, List.length_append, taken, List.length_drop]
  by_cases enough : len ≤ got.length + unread.length
  · rw [if_pos (by omega), if_pos enough, rest, List.drop_drop, List.append_assoc, ← List.take_add,
      whole]
  · rw [if_neg (by omega), if_neg enough, List.append_assoc, List.take_append_drop]

/-- However the reads are cut, the loop comes to the same, and it returns if it is given
bytes often enough. -/
theorem rrReadFullLoop_benign {answers : List ReadAnswer}
    (benign : ∀ answer ∈ answers, answer.Benign) (room : got.length ≤ len) :
    ((rrReadFullLoop len unread got answers).2.2 = .inside ∧
        got.length + answers.countP ReadAnswer.gives < len) ∨
      rrReadFullLoop len unread got answers = readOutcome len unread got := by
  induction answers generalizing unread got with
  | nil =>
      by_cases short : got.length < len
      · exact .inl ⟨by simp [rrReadFullLoop, short], by simpa using short⟩
      · exact .inr (by simp [rrReadFullLoop, short, readOutcome_full room short])
  | cons answer rest ih =>
      have later := fun other member => benign other (List.mem_cons_of_mem answer member)
      by_cases short : got.length < len
      · cases answer with
        | interrupted =>
            simp only [rrReadFullLoop, if_pos short]
            rw [List.countP_cons_of_neg (by simp [ReadAnswer.gives])]
            exact ih later room
        | failed => exact absurd (benign .failed List.mem_cons_self) id
        | given count =>
            have positive : 0 < count := benign (.given count) List.mem_cons_self
            rw [List.countP_cons_of_pos (by simp [ReadAnswer.gives])]
            simp only [rrReadFullLoop, if_pos short]
            by_cases ended : unread = []
            · subst ended
              exact .inr (by simp [readOutcome_end short])
            · have some : 0 < unread.length := List.length_pos_iff.mpr ended
              have chunk : unread.take (min count (len - got.length)) ≠ [] := by
                rw [ne_eq, ← List.length_eq_zero_iff, List.length_take]
                omega
              rw [if_neg chunk, List.length_take]
              set size := min (min count (len - got.length)) unread.length with sized
              have same : unread.take (min count (len - got.length)) = unread.take size := by
                rw [sized, List.take_eq_take_min]
              have length : (got ++ unread.take size).length = got.length + size := by
                rw [List.length_append, List.length_take]
                omega
              rw [same, ← readOutcome_chunk size (by omega) (by omega)]
              have further := @ih (unread.drop size) (got ++ unread.take size) later (by omega)
              rcases further with ⟨inside, few⟩ | outcome
              · exact .inl ⟨inside, by omega⟩
              · exact .inr outcome
      · exact .inr (by simp [rrReadFullLoop, short, readOutcome_full room short])

end

/-- Cut reads make no difference to `rr_read_full`, except that it may not have returned
where it was not given bytes often enough. -/
theorem rrReadFullWith_benign {answers : List ReadAnswer}
    (benign : ∀ answer ∈ answers, answer.Benign) (unread : Bytes) (len : Nat) :
    (rrReadFullWith unread len answers = none ∧ answers.countP ReadAnswer.gives < len) ∨
      rrReadFullWith unread len answers = some (rrReadFull unread len) := by
  rcases @rrReadFullLoop_benign len unread [] answers benign (Nat.zero_le _) with
    ⟨inside, few⟩ | outcome
  · refine .inl ⟨?_, by simpa using few⟩
    unfold rrReadFullWith
    split <;> simp_all
  · refine .inr ?_
    rw [rrReadFullWith, outcome, readOutcome, rrReadFull]
    by_cases enough : len ≤ unread.length
    · simp [enough]
    · simp [enough]

theorem rrReplayInitWith_benign {answers : List ReadAnswer}
    (benign : ∀ answer ∈ answers, answer.Benign) (file : Bytes) :
    (rrReplayInitWith file answers = none ∧ answers.countP ReadAnswer.gives < sizeofHeader) ∨
      rrReplayInitWith file answers = some (rrReplayInit (some file)) := by
  rcases rrReadFullWith_benign benign file sizeofHeader with ⟨none, few⟩ | same
  · exact .inl ⟨by rw [rrReplayInitWith, none]; rfl, few⟩
  · exact .inr (by rw [rrReplayInitWith, same]; rfl)

theorem rrReplayNextEventWith_benign {answers : List ReadAnswer}
    (benign : ∀ answer ∈ answers, answer.Benign) (reader : Reader) :
    (reader.rrReplayNextEventWith answers = none ∧
        answers.countP ReadAnswer.gives < sizeofEvent) ∨
      reader.rrReplayNextEventWith answers = some reader.rrReplayNextEvent := by
  unfold rrReplayNextEventWith rrReplayNextEvent
  split
  · exact .inr rfl
  · rcases rrReadFullWith_benign benign reader.unread sizeofEvent with ⟨none, few⟩ | same
    · exact .inl ⟨by rw [none]; rfl, few⟩
    · exact .inr (by rw [same]; rfl)

/-- The results of the next `count` calls of `rr_replay_next_event`. -/
def nextEvents (reader : Reader) : Nat → List (Except Int32 Event)
  | 0 => []
  | count + 1 => reader.rrReplayNextEvent.2 :: reader.rrReplayNextEvent.1.nextEvents count

theorem nextEventsWith_benign {patterns : List (List ReadAnswer)}
    (benign : ∀ answers ∈ patterns, ∀ answer ∈ answers, answer.Benign) (reader : Reader) :
    (reader.nextEventsWith patterns = none ∧
        ∃ answers ∈ patterns, answers.countP ReadAnswer.gives < sizeofEvent) ∨
      reader.nextEventsWith patterns = some (reader.nextEvents patterns.length) := by
  induction patterns generalizing reader with
  | nil => exact .inr rfl
  | cons answers rest ih =>
      have later := fun other member => benign other (List.mem_cons_of_mem answers member)
      rw [nextEventsWith]
      rcases rrReplayNextEventWith_benign (benign answers List.mem_cons_self) reader with
        ⟨none, few⟩ | same
      · exact .inl ⟨by rw [none]; rfl, answers, List.mem_cons_self, few⟩
      · rw [same, Option.bind_some]
        rcases ih later reader.rrReplayNextEvent.1 with ⟨none, other, member, few⟩ | rest
        · exact .inl ⟨by rw [none]; rfl, other, List.mem_cons_of_mem _ member, few⟩
        · exact .inr (by rw [rest]; rfl)

/-- Successive numbers from `seq` on. -/
def Consecutive (seq : UInt64) : List Event → Prop
  | [] => True
  | event :: rest => event.seq = seq ∧ Consecutive (seq + 1) rest

theorem nextEvents_exhausted (seq : UInt64) (count : Nat) :
    (⟨true, true, [], seq⟩ : Reader).nextEvents count =
      List.replicate count (.error Errno.ENODATA) := by
  induction count with
  | zero => rfl
  | succ count ih =>
      rw [nextEvents, List.replicate_succ]
      exact congrArg _ ih

theorem take_replicate_more {α : Type} (front : List α) (x : α) (count : Nat) :
    (front ++ List.replicate (count + 1) x).take count =
      (front ++ List.replicate count x).take count := by
  rw [List.take_append, List.take_append, List.take_replicate, List.take_replicate]
  congr 2
  omega

/-- A log that ends anywhere gives its complete records, and then no data. -/
theorem nextEvents_cut (events : List Event) (seq : UInt64) (numbered : Consecutive seq events)
    (cut count : Nat) :
    (⟨true, true, (events.flatMap Event.encode).take cut, seq⟩ : Reader).nextEvents count =
      ((events.take (cut / sizeofEvent)).map Except.ok ++
        List.replicate count (Except.error Errno.ENODATA)).take count := by
  induction events generalizing seq cut count with
  | nil => simp [nextEvents_exhausted]
  | cons event rest ih =>
      have size : sizeofEvent = 112 := rfl
      obtain ⟨rfl, later⟩ := numbered
      cases count with
      | zero => simp [nextEvents]
      | succ count =>
          by_cases complete : sizeofEvent ≤ cut
          · have split : ((event :: rest).flatMap Event.encode).take cut =
                event.encode ++ (rest.flatMap Event.encode).take (cut - sizeofEvent) := by
              rw [List.flatMap_cons, List.take_append, List.take_of_length_le, event.length_encode]
              rw [event.length_encode]
              exact complete
            have read := rrReadFull_append event.length_encode
              ((rest.flatMap Event.encode).take (cut - sizeofEvent))
            have next : (⟨true, true, event.encode ++
                (rest.flatMap Event.encode).take (cut - sizeofEvent), event.seq⟩ :
                  Reader).rrReplayNextEvent =
                (⟨true, true, (rest.flatMap Event.encode).take (cut - sizeofEvent),
                  event.seq + 1⟩, .ok event) := by
              simp [rrReplayNextEvent, read, acceptEvent, Event.decode_encode]
            have records : cut / sizeofEvent = (cut - sizeofEvent) / sizeofEvent + 1 := by
              rw [size] at complete ⊢
              omega
            rw [split, nextEvents, next, ih _ later, records, List.take_succ_cons, List.map_cons,
              List.cons_append, List.take_succ_cons, take_replicate_more]
          · have torn : ¬ sizeofEvent ≤
                (((event :: rest).flatMap Event.encode).take cut).length := by
              rw [List.length_take]
              omega
            have next : (⟨true, true, ((event :: rest).flatMap Event.encode).take cut, event.seq⟩ :
                  Reader).rrReplayNextEvent =
                (⟨true, true, [], event.seq⟩, .error Errno.ENODATA) := by
              simp only [rrReplayNextEvent, rrReadFull, if_neg torn, acceptEvent]
              rfl
            have none : cut / sizeofEvent = 0 := Nat.div_eq_of_lt (by omega)
            rw [nextEvents, next, nextEvents_exhausted, none, List.take_zero, List.map_nil,
              List.nil_append, List.take_replicate, Nat.min_self, List.replicate_succ]

end Reader

end Librr
