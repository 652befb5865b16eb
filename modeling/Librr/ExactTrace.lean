import Librr.Base.Journal
import Librr.Logging
import Librr.Naming
import Librr.Overlap

set_option autoImplicit false

namespace Librr

open Journal Transition

/-- What the log is to say of a completed call: its number, its first argument, its result
and up to 64 bytes of its data. -/
def Call.completed (call : Call) (result : CallResult) : Payload := (call.logged result).payload

/-- The event as an entry of a journal: a switch, or something its uthread did. -/
def Event.entry (event : Event) : Entry UInt64 Payload :=
  match event.payload with
  | .sched fromId toId => .switch fromId toId
  | .syscall .. => .done event.uthreadId event.payload
  | _ => .note event.uthreadId

/-- The completed calls among what a uthread has done. -/
def completedOf : Action × Reply → Option Payload
  | (.call call, .returned result) => some (call.completed result)
  | _ => none

def Uthread.completed (u : Uthread) : List Payload := u.ctx.trace.filterMap completedOf

def Observation.work : Observation → Option (UInt64 × Payload)
  | .returned id call result => some (id, call.completed result)
  | _ => none

namespace Sched

/-- The id of a uthread and its completed calls. -/
def memberAt (s : Sched) (ut : Ptr) : Option (UInt64 × List Payload) :=
  (s.core ut).map fun u => (u.id, u.completed)

variable {s t : Sched} {cur : Ptr}

theorem memberAt_map {change : Ptr → Uthread → Uthread}
    (core : ∀ ut, t.core ut = (s.core ut).map (change ut))
    (kept : ∀ ut u, (change ut u).id = u.id ∧ (change ut u).ctx.trace = u.ctx.trace) :
    t.memberAt = s.memberAt := by
  funext ut
  rw [memberAt, memberAt, core, Option.map_map]
  congr 1
  funext u
  obtain ⟨id, trace⟩ := kept ut u
  simp only [Function.comp_apply, Uthread.completed, id, trace]

theorem memberAt_modify {change : Uthread → Uthread} (core : t.core = s.core.modify cur change)
    (kept : ∀ u, (change u).id = u.id ∧ (change u).ctx.trace = u.ctx.trace) :
    t.memberAt = s.memberAt := by
  refine memberAt_map (fun ut => (congrFun core ut).trans (Heap.modify_eq_map ..)) fun ut u => ?_
  split
  · exact kept u
  · exact ⟨rfl, rfl⟩

theorem memberAt_core (core : t.core = s.core) : t.memberAt = s.memberAt := by
  funext ut
  rw [memberAt, memberAt, core]

theorem memberAt_reply (s : Sched) (cur : Ptr) (action : Action) (reply : Reply) (ut : Ptr) :
    (s.reply cur action reply).memberAt ut = (s.memberAt ut).map fun entry =>
      if ut = cur then (entry.1, entry.2 ++ (completedOf (action, reply)).toList) else entry := by
  rw [memberAt, memberAt, reply_core, Heap.modify_eq_map, Option.map_map, Option.map_map]
  congr 1
  funext u
  by_cases own : ut = cur
  · simp only [Function.comp_apply, if_pos own, Uthread.completed, Context.finish,
      List.filterMap_append]
    cases done : completedOf (action, reply) <;> simp [done]
  · simp only [Function.comp_apply, if_neg own]

/-- A reply to anything but a wrapped function. -/
theorem memberAt_reply_other {action : Action} {reply : Reply}
    (other : completedOf (action, reply) = none) :
    (s.reply cur action reply).memberAt = s.memberAt := by
  funext ut
  rw [memberAt_reply, other]
  cases s.memberAt ut <;> simp

theorem wakeRecord_kept {change : Uthread → Uthread}
    (kept : ∀ u, (change u).id = u.id ∧ (change u).ctx.trace = u.ctx.trace) (u : Uthread) :
    (wakeRecord change u).id = u.id ∧ (wakeRecord change u).ctx.trace = u.ctx.trace := by
  unfold wakeRecord
  split
  · exact kept u
  · exact ⟨rfl, rfl⟩

theorem memberAt_exit (current : s.current = some cur) (on : s.schedRunning = true)
    (value : UInt64) : (s.rrSchedulerExitCurrent value).memberAt = s.memberAt := by
  refine memberAt_map (rrSchedulerExitCurrent_core current on value) fun ut u => ?_
  split
  · exact ⟨rfl, rfl⟩
  · split
    · exact wakeRecord_kept (fun _ => ⟨rfl, rfl⟩) u
    · exact ⟨rfl, rfl⟩

theorem memberAt_wake (s : Sched) (id : UInt64) (ioResult : Int32) :
    (s.rrSchedulerWakeById id ioResult none 0).memberAt = s.memberAt := by
  have core := s.rrSchedulerWakeById_core id ioResult none 0
  cases hit : s.rrSchedulerFind id with
  | none =>
      simp only [hit] at core
      exact memberAt_core core
  | some found =>
      simp only [hit] at core
      exact memberAt_modify core (wakeRecord_kept fun _ => ⟨rfl, rfl⟩)

theorem currentId_core {u : Uthread} (current : s.current = some cur)
    (found : s.core cur = some u) : s.currentId = u.id := by
  obtain ⟨v, present, rfl⟩ := of_core_some found
  rw [currentId, running_eq current present]
  rfl

theorem dispatched_core {next : Ptr} {u : Uthread} (found : s.heap next = some u) :
    (s.dispatch next).core next = some { u.core with state := .running } := by
  rw [dispatch_core, Heap.modify_same, core_some found, Option.map_some]

/-- The current id is read off the members. -/
theorem currentId_member (s : Sched) :
    s.currentId = ((s.current.bind s.memberAt).map Prod.fst).getD 0 := by
  unfold currentId running memberAt core
  cases s.current with
  | none => rfl
  | some cur =>
      cases found : s.heap cur with
      | none => simp [found]
      | some u => simp [found, Uthread.core]

/-- An action that is no wrapped call completes none, and a new uthread has completed none. -/
theorem Local.members {stackSize : Nat} {u : Uthread} {answer : CreateAnswer} {action : Action}
    (inv : s.QueueInvariant) (running : s.running = some (cur, u))
    (performed : s.Local stackSize cur u answer action t) :
    (∀ ut, s.memberAt ut ≠ none → t.memberAt ut = s.memberAt ut) ∧
      ∀ ut entry, s.memberAt ut = none → t.memberAt ut = some entry → entry.2 = [] := by
  obtain ⟨current, _⟩ := of_running running
  have unchanged : t.memberAt = s.memberAt →
      (∀ ut, s.memberAt ut ≠ none → t.memberAt ut = s.memberAt ut) ∧
        ∀ ut entry, s.memberAt ut = none → t.memberAt ut = some entry → entry.2 = [] := by
    intro same
    refine ⟨fun ut _ => by rw [same], fun ut entry none found => ?_⟩
    rw [same, none] at found
    cases found
  cases performed with
  | create fn =>
      rcases s.uthreadCreate_effect stackSize fn answer with ⟨core, _⟩ | ⟨start, mem, _, core, _⟩
      · exact unchanged ((memberAt_reply_other rfl).trans (memberAt_core core))
      · rw [memberAt_reply_other rfl]
        have vacant : s.memberAt s.brk = none := by
          rw [memberAt, inv.unallocated s.brk (Nat.le_refl _), Option.map_none]
        refine ⟨fun ut member => ?_, fun ut entry none found => ?_⟩
        · have old : ut ≠ s.brk := fun same => member (same ▸ vacant)
          rw [memberAt, memberAt, core, Heap.set_apply, if_neg old]
        · rw [memberAt, core, Heap.set_apply] at found
          split at found
          · cases found
            rfl
          · rw [← memberAt, none] at found
            cases found
  | yield =>
      exact unchanged (memberAt_modify (rrSchedulerYieldCurrent_core current inv.on)
        fun _ => ⟨rfl, rfl⟩)
  | joinNow id out reply answered => exact unchanged (memberAt_reply_other rfl)
  | joinWait id out target record hit other live free =>
      have still : (s.modify target (awaitedBy cur)).current = some cur := current
      have blocked := rrSchedulerBlockCurrent_core still inv.on (.joining id out target)
      have first : (s.modify target (awaitedBy cur)).memberAt = s.memberAt :=
        memberAt_modify (awaitedBy_core s target cur) fun _ => ⟨rfl, rfl⟩
      exact unchanged ((memberAt_modify blocked fun _ => ⟨rfl, rfl⟩).trans first)
  | exit value => exact unchanged (memberAt_exit current inv.on value)
  | ret fn started => exact unchanged (memberAt_exit current inv.on 0)
  | stop main => exact unchanged (memberAt_core rfl)

end Sched

namespace State

/-- The journal of the process: its log, and what it is to be a log of. -/
def book (s : State) : Book Ptr UInt64 Payload where
  log := s.log.map Event.entry
  current := s.sched.currentId
  finished := s.history.filterMap Observation.work
  member := s.sched.memberAt

variable {s t : State}

theorem book_eq (log : t.log = s.log) (current : t.sched.current = s.sched.current)
    (history : t.history.filterMap Observation.work = s.history.filterMap Observation.work)
    (member : t.sched.memberAt = s.sched.memberAt) : t.book = s.book := by
  rw [book, book, log, history, member, Sched.currentId_member,
    Sched.currentId_member, current, member]

/-- A wrapped function returns to the uthread that called it. -/
theorem book_returned {ut : Ptr} {u : Uthread} {call : Call} {result : CallResult}
    {args : LogArgs} (records : s.Records) (current : s.sched.current = some ut)
    (found : s.sched.core ut = some u) (outcome : call.Outcome result args) :
    s.book.Step ((s.rrLogSyscall args).returnCall ut call result).book := by
  have id := Sched.currentId_core current found
  have here : s.book.member ut = some (s.book.current, u.completed) := by
    show (s.sched.core ut).map _ = _
    rw [found, Option.map_some]
    exact congrArg (fun name => some (name, u.completed)) id.symm
  have logged := outcome.logged
  rw [records.loggedReturn]
  refine .done ut (call.completed result) u.completed here ?_ ?_ ?_ ?_ fun other apart => ?_
  · show List.map Event.entry (s.log ++ _) = _
    rw [List.map_append, logged]
    rfl
  · show (s.sched.reply ut _ _).currentId = s.sched.currentId
    rw [Sched.currentId_member, Sched.currentId_member]
    show ((s.sched.current.bind (s.sched.reply ut _ _).memberAt).map Prod.fst).getD 0 = _
    rw [current, Option.bind_some, Option.bind_some, Sched.memberAt_reply, Option.map_map]
    simp only [if_true]
    rfl
  · show List.filterMap Observation.work (s.history ++ _) = _
    rw [List.filterMap_append]
    rfl
  · show (s.sched.reply ut _ _).memberAt ut = _
    rw [Sched.memberAt_reply, show s.sched.memberAt ut = _ from here]
    simp [completedOf]
  · show (s.sched.reply ut _ _).memberAt other = _
    rw [Sched.memberAt_reply]
    simp only [if_neg apart]
    show _ = s.sched.memberAt other
    cases s.sched.memberAt other <;> rfl

/-- The books between the switch to a uthread and what it does behind it. -/
def switchedBook (s : State) (toId : UInt64) : Book Ptr UInt64 Payload :=
  { s.book with
    log := s.book.log ++ (s.switchEvents toId).map Event.entry
    current := toId }

theorem book_switched (s : State) (toId : UInt64) :
    Relation.ReflTransGen Book.Step s.book (s.switchedBook toId) := by
  by_cases same : s.sched.currentId = toId
  · have unchanged : s.switchedBook toId = s.book := by
      rw [switchedBook, switchEvents, if_pos same, List.map_nil, List.append_nil, ← same]
      rfl
    rw [unchanged]
  · refine .single (.switch toId same ?_ rfl rfl rfl)
    rw [switchedBook, switchEvents, if_neg same]
    rfl

theorem switchSeen_work (s : State) (next : Ptr) (toId : UInt64) :
    (s.switchSeen next toId).filterMap Observation.work = [] := by
  unfold switchSeen
  split
  · rfl
  · split <;> rfl

/-- The uthread that is switched to, before it goes on. -/
theorem book_arrived {next : Ptr} {u : Uthread} (records : s.Records)
    (found : s.sched.runqPopFront.2.heap next = some u) :
    ((s.logSwitch u.id).arrive s.sched.runqPopFront.2 next u.id).book = s.switchedBook u.id := by
  have id := Sched.currentId_core rfl (Sched.dispatched_core found)
  have member : (s.sched.runqPopFront.2.dispatch next).memberAt = s.sched.memberAt :=
    (Sched.memberAt_modify (Sched.dispatch_core _ _) fun _ => ⟨rfl, rfl⟩).trans
      (Sched.memberAt_core (Sched.runqPopFront_core s.sched))
  rw [records.logSwitch, arrive, book, switchedBook]
  simp only [List.map_append, List.filterMap_append, member, id]
  congr 1
  rw [show List.filterMap Observation.work (State.switchSeen _ next u.id) = [] from
    switchSeen_work _ _ _, List.append_nil]
  rfl

theorem issued_work (sq : List Sqe) :
    (sq.map fun sqe => Observation.issued sqe.serial).filterMap Observation.work = [] := by
  induction sq with
  | nil => rfl
  | cons sqe rest ih => exact ih

theorem book_rearmed (s : State) (submitted : Bool) :
    (s.rearmSignalRead submitted).cqeSeen.book = s.book := by
  rcases s.rearmSignalRead_cases submitted with ⟨_, same⟩ | ⟨fd, _, _, same⟩
  · rw [same]
    rfl
  · rw [same]
    split
    · refine book_eq rfl rfl ?_ rfl
      show List.filterMap Observation.work (s.history ++ _) = _
      rw [List.filterMap_append, issued_work, List.append_nil]
    · rfl

theorem book_signalled (records : s.Records) (signo activeUthread : UInt32) :
    s.book.Step (s.rrLogSignal signo activeUthread).book := by
  rw [records.logSignal]
  refine .note ?_ rfl rfl rfl
  show List.map Event.entry (s.log ++ _) = _
  rw [List.map_append]
  rfl

theorem book_replied (s : State) (ut : Ptr) {action : Action} {reply : Reply}
    (other : completedOf (action, reply) = none) :
    { s with sched := s.sched.reply ut action reply }.book = s.book :=
  book_eq rfl rfl rfl (Sched.memberAt_reply_other other)

/-- An action that is no wrapped call. -/
theorem book_performed {stackSize : Nat} {ut : Ptr} {u : Uthread} {answer : CreateAnswer}
    {action : Action} {sched : Sched} (inv : s.sched.QueueInvariant)
    (running : s.sched.running = some (ut, u))
    (performed : s.sched.Local stackSize ut u answer action sched) :
    s.book.Step { s with sched := sched }.book := by
  obtain ⟨kept, fresh⟩ := performed.members inv running
  obtain ⟨current, found⟩ := Sched.of_running running
  have here : s.sched.memberAt ut ≠ none := by
    rw [Sched.memberAt, Sched.core_some found]
    exact Option.some_ne_none _
  refine .quiet rfl ?_ rfl ⟨kept, fresh⟩
  show sched.currentId = s.sched.currentId
  rw [Sched.currentId_member, Sched.currentId_member, performed.current, current,
    Option.bind_some, Option.bind_some, kept ut here]

/-- A uthread goes on where it was suspended. -/
theorem book_dispatched {next : Ptr} {u : Uthread} (inv : s.Recording)
    (found : s.sched.runqPopFront.2.heap next = some u) (runnable : u.state = .runnable) :
    Relation.ReflTransGen Book.Step s.book
      ((s.logSwitch u.id).switchTo s.sched.runqPopFront.2 next u).book := by
  have switched := s.book_switched u.id
  have arrived := book_arrived inv.records found
  rw [← arrived] at switched
  rcases (s.logSwitch u.id).switchTo_cases s.sched.runqPopFront.2 next
      (head_resumes inv.framed found runnable) with
    ⟨_, same⟩ | ⟨_, same⟩ | ⟨id, out, target, _, same⟩ |
    ⟨call, serial, finish, _, submits, half, same⟩
  · rw [same]
    exact switched
  · rw [same]
    have replied := book_replied ((s.logSwitch u.id).arrive s.sched.runqPopFront.2 next u.id) next
      (show completedOf (.yield, .yielded) = none from rfl)
    rw [← replied] at switched
    exact switched
  · rw [same]
    have replied := book_replied ((s.logSwitch u.id).arrive s.sched.runqPopFront.2 next u.id) next
      (show completedOf (.join id out, .joined 0 none (if out then
        ((s.sched.runqPopFront.2.dispatch next).heap target).map Uthread.retval else none)) = none
        from rfl)
    rw [← replied] at switched
    exact switched
  · rw [same]
    have answered : (((s.logSwitch u.id).arrive s.sched.runqPopFront.2 next u.id).observe
        [.answered serial u.ioResult]).book =
        ((s.logSwitch u.id).arrive s.sched.runqPopFront.2 next u.id).book :=
      book_eq rfl rfl (by simp [observe, Observation.work]) rfl
    have records : (((s.logSwitch u.id).arrive s.sched.runqPopFront.2 next u.id).observe
        [.answered serial u.ioResult]).Records := by
      rw [inv.records.logSwitch]
      exact inv.records.of_same rfl rfl
    rw [← answered] at switched
    exact switched.tail (book_returned records rfl (Sched.dispatched_core found)
      (.inr ⟨submits, finish, _, _, half, rfl⟩))

/-- Every step of a recording process is kept in the books. -/
theorem RecordStep.book_steps {program : Program} {input : Input} (inv : s.Recording)
    (taken : RecordStep program s input t) : Relation.ReflTransGen Book.Step s.book t.book := by
  cases taken with
  | perform answer ut u sched user running performed =>
      exact .single (book_performed inv.queue running performed)
  | immediate answer ut u call result args user running next done =>
      obtain ⟨current, found⟩ := Sched.of_running running
      exact .single (book_returned inv.records current (Sched.core_some found)
        (.inl ⟨answer, done⟩))
  | full answer ut u call op finish user running next submits half filled =>
      obtain ⟨current, found⟩ := Sched.of_running running
      exact .single (book_returned inv.records current (Sched.core_some found)
        (.inr ⟨⟨answer, op, submits⟩, finish, _, _, half, rfl⟩))
  | refused answer ut u call op finish user running next submits half room failed =>
      obtain ⟨current, found⟩ := Sched.of_running running
      have left : (s.leave op).book = s.book :=
        book_eq rfl rfl (by simp [leave, Observation.work]) rfl
      rw [← left]
      exact .single (book_returned (s := s.leave op) (inv.records.of_same rfl rfl) current
        (Sched.core_some found) (.inr ⟨⟨answer, op, submits⟩, finish, _, _, half, rfl⟩))
  | submitted answer ut u call op finish user running next submits half room accepted =>
      obtain ⟨current, found⟩ := Sched.of_running running
      have blocked := Sched.rrSchedulerBlockCurrent_core current inv.queue.on
        (.io call s.ring.fresh)
      have handed : (s.hand op call).book = s.book := by
        refine book_eq rfl (Sched.rrSchedulerBlockCurrent_current _ _) ?_
          (Sched.memberAt_modify blocked fun _ => ⟨rfl, rfl⟩)
        show List.filterMap Observation.work (s.history ++ _) = _
        rw [List.filterMap_append, issued_work, List.append_nil]
      rw [handed]
  | interrupted answer idle empty broken => exact .refl
  | killed answer cqe rest idle empty first sentinel full fatal =>
      have noted := book_signalled inv.records s.ring.ssiSigno s.sched.currentId.toUInt32
      rw [inv.records.logSignal] at noted ⊢
      exact .single noted
  | signal answer cqe rest idle empty first sentinel full harmless =>
      rw [book_rearmed]
      exact .single (book_signalled inv.records _ _)
  | short answer cqe rest idle empty first sentinel short => rw [book_rearmed]
  | wake answer cqe rest idle empty first tagged =>
      have woken := book_eq (s := s) (t := { s with
          sched := s.sched.rrSchedulerWakeById cqe.userData cqe.res none 0
          ring := s.ring.cqeSeen
          history := s.history ++ if s.wakes cqe then [.resumed cqe.serial] else [] })
        rfl (Sched.rrSchedulerWakeById_frame _ _ _ _ _).current
        (by simp only [List.filterMap_append]; split <;> simp [Observation.work])
        (Sched.memberAt_wake _ _ _)
      rw [woken]
  | dispatch answer next u idle head found runnable => exact book_dispatched inv found runnable
  | post index res data sqe live flying =>
      have posted := book_eq (s := s) (t := { s with
          ring := s.ring.complete index sqe res data
          history := s.history ++ [.completed sqe.serial res] })
        rfl rfl (by simp [Observation.work]) rfl
      rw [posted]

theorem recordStart_exact (stackSize : Nat) (signalFd : Int32) :
    (recordStart stackSize signalFd).book.Exact (.switch 0 1) := by
  refine ⟨⟨rfl, ?_⟩, rfl, rfl, ?_, ?_⟩
  · intro front entry back split inside
    -- There is one entry, and it is the first.
    have lengths := congrArg List.length split
    simp only [recordStart_eq, book, List.map_cons, List.map_nil, List.length_cons,
      List.length_nil, List.length_append] at lengths
    exact absurd (List.eq_nil_of_length_eq_zero (by omega)) inside
  · intro entry member
    cases member
  · intro p name past here _
    simp only [recordStart_eq, book, fresh, Sched.memberAt, Sched.core, Sched.afterInit,
      Heap.set_apply] at here
    split at here
    · cases here
      rfl
    · cases here

/-- What holds of a recording process at every moment. -/
structure Booked (s : State) : Prop where
  recording : s.Recording
  exact : s.book.Exact (.switch 0 1)
  named : s.sched.nextId < 2 ^ 64 → s.sched.Named

theorem Booked.step {program : Program} {input : Input} (inv : s.Booked)
    (taken : Librr.step program s input = some t) : t.Booked := by
  obtain ⟨kind, recording⟩ := inv.recording.step taken
  refine ⟨recording, inv.exact.steps (RecordStep.book_steps inv.recording kind), fun bounded => ?_⟩
  have lower := kind.nextId_le
  exact kind.named bounded (inv.named (by omega))

theorem recordStart_booked (stackSize : Nat) (signalFd : Int32) :
    (recordStart stackSize signalFd).Booked :=
  ⟨recordStart_recording stackSize signalFd, recordStart_exact stackSize signalFd,
    fun _ => Sched.afterInit_numbered.named⟩

end State

/-- The completed call of the uthread `id` that the event tells of. -/
def Event.completedBy (id : UInt64) (event : Event) : Option Payload :=
  match event.payload with
  | .syscall .. => if event.uthreadId = id then some event.payload else none
  | _ => none

theorem filterMap_completedBy (id : UInt64) (log : List Event) :
    log.filterMap (Event.completedBy id) =
      (((log.map Event.entry).filterMap Entry.work).filter fun entry => entry.1 = id).map
        Prod.snd := by
  induction log with
  | nil => rfl
  | cons event rest ih =>
      rw [List.map_cons, List.filterMap_cons, List.filterMap_cons, ih]
      rcases event with ⟨seq, uthreadId, payload⟩
      cases payload with
      | syscall nr retval arg0 data dataLen =>
          by_cases own : uthreadId = id
          · simp [Event.completedBy, Event.entry, Entry.work, own]
          · simp [Event.completedBy, Event.entry, Entry.work, own]
      | signal signo active => rfl
      | sched fromId toId => rfl
      | other kind unknown => rfl

namespace State

/-- The log of a recording process begins with the switch from 0 to 1; every later switch
leaves the uthread that the one before it reached, for another one, and every other event
is of the uthread reached last, which is the current one. Of a uthread whose id nobody
shares, as is the case until `g_next_id` wraps, it lists the completed calls. -/
theorem log_is_exact_trace (program : Program) (stackSize : Nat) (signalFd : Int32)
    (inputs : List Input) (s : State)
    (reached : exec (step program) (recordStart stackSize signalFd) inputs = some s) :
    Chained (.switch 0 1) (s.log.map Event.entry) ∧
    latest (s.log.map Event.entry) = some s.sched.currentId ∧
    (∀ ut u, s.sched.heap ut = some u →
      (∀ other v, s.sched.heap other = some v → v.id = u.id → other = ut) →
      s.log.filterMap (Event.completedBy u.id) = u.completed) ∧
    (s.sched.nextId < 2 ^ 64 → ∀ ut other u v, s.sched.heap ut = some u →
      s.sched.heap other = some v → v.id = u.id → other = ut) := by
  have booked : s.Booked := exec_invariant (fun _ _ _ taken inv => inv.step taken)
    (recordStart_booked stackSize signalFd) reached
  refine ⟨booked.exact.chained, booked.exact.latest, ?_, ?_⟩
  · intro ut u found alone
    have member : s.book.member ut = some (u.id, u.completed) := by
      show (s.sched.core ut).map _ = _
      rw [Sched.core_some found]
      rfl
    rw [filterMap_completedBy, show (s.log.map Event.entry).filterMap Entry.work = _ from
      booked.exact.work]
    refine booked.exact.own ut u.id u.completed member fun other past there => ?_
    obtain ⟨v, present, same⟩ := Option.map_eq_some_iff.mp there
    obtain ⟨w, here, rfl⟩ := Sched.of_core_some present
    exact alone other w here (congrArg Prod.fst same)
  · intro unwrapped ut other u v found present same
    exact (booked.named unwrapped).distinct other ut v u present found same

/-- The read completes after the other uthread has ended. -/
theorem readBesideExit_traced :
    ∃ s u, exec (step readBesideExit) (recordStart 8192 5) readBesideExitRun = some s ∧
      s.sched.heap 0 = some u ∧ u.completed = [.syscall Nr.read 1 3 (.ofBytes [65]) 1] ∧
      Chained (.switch 0 1) (s.log.map Event.entry) ∧
      s.log.filterMap (Event.completedBy u.id) = u.completed := by
  have ran : (exec (step readBesideExit) (recordStart 8192 5) readBesideExitRun).map
      (fun s => (decide (s.sched.nextId < 2 ^ 64), (s.sched.heap 0).map Uthread.completed)) =
      some (true, some [.syscall Nr.read 1 3 (.ofBytes [65]) 1]) := by decide +kernel
  obtain ⟨s, reached, facts⟩ := Option.map_eq_some_iff.mp ran
  simp only [Prod.mk.injEq, decide_eq_true_eq] at facts
  obtain ⟨u, found, completed⟩ := Option.map_eq_some_iff.mp facts.2
  obtain ⟨chained, _, own, unshared⟩ :=
    log_is_exact_trace readBesideExit 8192 5 readBesideExitRun s reached
  exact ⟨s, u, reached, found, completed, chained, own 0 u found fun other v present same =>
    unshared facts.1 0 other u v found present same⟩

end State

end Librr
