import Librr.Levels

set_option autoImplicit false

namespace Librr

open Transition IntrusiveQueue

/-- The recorder can be brought to return `result` from `call`: at once from the real
function, or from a completion of the operation it submits. -/
inductive Call.Recordable (call : Call) (result : CallResult) : Prop where
  | atOnce (real : Real) (done : ∀ answer : Answer, answer.real = real →
      ∃ args, call.wrapper.issue answer = .done result args)
  | later (op : IoOp) (finish : Int32 → Bytes → CallResult × LogArgs) (raw : Int32) (data : Bytes)
    (submits : ∀ answer : Answer, call.wrapper.issue answer = .submit op)
    (half : call.wrapper.finish = some finish) (ended : (finish raw data).1 = result)

theorem map_overwrite_nil (object : Option Bytes) : object.map (overwrite · []) = object := by
  cases object <;> rfl

/-- A completion of an operation that has a result only. -/
theorem rawToInt_genuine {result : CallResult}
    (genuine : result.Failed none none ∨
      (result.Stored none [] none ∧ 0 ≤ result.ret ∧ result.ret < 2 ^ 31)) :
    ∃ raw, (⟨(rawToInt raw).1, (rawToInt raw).2, none, none⟩ : CallResult) = result := by
  rcases genuine with failed | ⟨stored, lower, upper⟩
  · obtain ⟨errno, positive, rfl⟩ := failed.eq
    exact ⟨-errno, by rw [rawToInt, rawToSsize_failed positive]⟩
  · refine ⟨Int32.ofInt result.ret, ?_⟩
    rw [rawToInt, rawToSsize_success lower upper]
    exact stored.eq.symm

/-- The same for one that fills a buffer. -/
theorem rawToSsize_genuine {result : CallResult} {buf : Option Bytes} {count : Nat}
    (genuine : result.Failed buf none ∨
      ∃ data, result.Stored buf data none ∧ result.ret = data.length ∧ data.length ≤ min count 64) :
    ∃ raw data, (⟨(rawToSsize raw).1, (rawToSsize raw).2, buf.map (overwrite · data), none⟩ :
      CallResult) = result := by
  rcases genuine with failed | ⟨data, stored, length, short⟩
  · obtain ⟨errno, positive, rfl⟩ := failed.eq
    exact ⟨-errno, [], by rw [rawToSsize_failed positive, map_overwrite_nil]⟩
  · refine ⟨Int32.ofInt result.ret, data, ?_⟩
    rw [rawToSsize_success (by omega) (by omega)]
    exact stored.eq.symm

/-- A call that asks for nothing is passed on to libc, which stores nothing. -/
theorem realResult_empty {result : CallResult} {buf : Option Bytes}
    (genuine : result.Failed buf none ∨
      ∃ data, result.Stored buf data none ∧ result.ret = data.length ∧ data.length ≤ min 0 64) :
    ∃ real, realResult real buf none = result := by
  rcases genuine with failed | ⟨data, stored, length, short⟩
  · obtain ⟨errno, _, rfl⟩ := failed.eq
    exact ⟨⟨-1, errno, [], []⟩, rfl⟩
  · obtain rfl : data = [] := List.length_eq_zero_iff.mp (by omega)
    refine ⟨⟨0, 0, [], []⟩, Eq.trans ?_ stored.eq.symm⟩
    rw [map_overwrite_nil, length]
    rfl

theorem Call.Genuine.recordable {call : Call} {result : CallResult}
    (genuine : call.Genuine result) : call.Recordable result := by
  have passed : ∀ {op : IoOp} {nr fd : Int32} {issue : Answer → Begun},
      call.wrapper = resultWrapper nr fd issue →
      (∀ answer, issue answer = .submit op) →
      (result.Failed none none ∨
        (result.Stored none [] none ∧ 0 ≤ result.ret ∧ result.ret < 2 ^ 31)) →
      call.Recordable result := by
    intro op nr fd issue same submits outcome
    obtain ⟨raw, given⟩ := rawToInt_genuine outcome
    refine .later op _ raw [] ?_ (by rw [same]; rfl) given
    rw [same]
    exact submits
  cases call with
  | read fd buf count =>
      by_cases empty : count = 0
      · subst empty
        obtain ⟨real, rfl⟩ := realResult_empty genuine
        refine .atOnce real fun answer same => ?_
        subst same
        exact ⟨_, rfl⟩
      · obtain ⟨raw, data, given⟩ := rawToSsize_genuine genuine
        exact .later (.read fd (UInt32.ofNat count) 0) _ raw data (fun _ => if_neg empty) rfl given
  | recv sockfd buf len flags =>
      obtain ⟨raw, data, given⟩ := rawToSsize_genuine genuine
      exact .later (.recv sockfd (UInt32.ofNat len) flags) _ raw data (fun _ => rfl) rfl given
  | write fd buf =>
      by_cases empty : buf.length = 0
      · obtain ⟨real, rfl⟩ := genuine.plain
        refine .atOnce real fun answer same => ?_
        subst same
        exact ⟨_, if_pos empty⟩
      · exact passed rfl (fun _ => if_neg empty) genuine
  | send sockfd buf flags => exact passed rfl (fun _ => rfl) genuine
  | connect sockfd addr => exact passed rfl (fun _ => rfl) genuine
  | openat dirfd pathname flags mode => exact passed rfl (fun _ => rfl) genuine
  | close fd => exact passed rfl (fun _ => rfl) genuine
  | clockGettime clockId tp =>
      obtain ⟨real, rfl⟩ := genuine.plain
      refine .atOnce real fun answer same => ?_
      subst same
      exact ⟨_, rfl⟩
  | gettimeofday tv tz =>
      obtain ⟨real, rfl⟩ := genuine.plain
      refine .atOnce real fun answer same => ?_
      subst same
      exact ⟨_, rfl⟩
  | getpid =>
      obtain ⟨real, rfl⟩ := genuine.plain
      refine .atOnce real fun answer same => ?_
      subst same
      exact ⟨_, rfl⟩
  | accept sockfd addr addrlen => exact genuine.elim
  | nanosleep req rem => exact genuine.elim
  | getuid => exact genuine.elim
  | uname buf => exact genuine.elim
  | stat path st => exact genuine.elim
  | fstat fd st => exact genuine.elim
  | lstat path st => exact genuine.elim
  | getcwd buf size => exact genuine.elim

namespace State

/-- A recording process between calls: only the signal read is with the kernel. -/
structure AtRest (r : State) : Prop where
  recording : r.Recording
  numbered : r.sched.Numbered
  sq : r.ring.sq = []
  cq : r.ring.cq = []
  inflight : ∃ sqe, r.ring.inflight = [sqe]

section Call

variable {program : Program} {r : State} {ut : Ptr} {v : Uthread} {call : Call} {op : IoOp}
  {raw : Int32} {data : Bytes}

/-- The operation of the running uthread. -/
def ownSqe (r : State) (op : IoOp) : Sqe := ⟨op, r.sched.currentId, r.ring.fresh⟩

/-- After the kernel has answered it. -/
def answeredCall (r : State) (op : IoOp) (call : Call) (raw : Int32) (data : Bytes) : State :=
  { r.hand op call with
    ring := (r.hand op call).ring.complete 1 (r.ownSqe op) raw data
    history := (r.hand op call).history ++ [.completed r.ring.fresh raw] }

/-- After the completion has been consumed and has woken the caller. -/
def wokenCall (r : State) (ut : Ptr) (op : IoOp) (call : Call) (raw : Int32) (data : Bytes) :
    State :=
  { r.answeredCall op call raw data with
    sched := wokenSched r.sched ut (.io call r.ring.fresh) raw
    ring := (r.answeredCall op call raw data).ring.cqeSeen
    history := (r.answeredCall op call raw data).history ++ [.resumed r.ring.fresh] }

theorem AtRest.hand_step (rest : r.AtRest) (user : r.sched.control = .user)
    (running : r.sched.running = some (ut, v))
    (next : program v.startFn v.ctx.replies = .call call) {answer : Answer}
    (submits : call.wrapper.issue answer = .submit op) (accepted : answer.submit = true) :
    Librr.step program r (.act answer) = some (r.hand op call) := by
  have active : r.config.rrActive = true := by
    simp [Config.rrActive, rest.recording.records.modeRecord, rest.recording.records.ready]
  have room : r.ring.sq.length ≠ ringEntries := by
    rw [rest.sq]
    decide
  simp only [Librr.step, user, ↓reduceIte, act, rest.recording.records.ready, running,
    Option.map_some, next, perform, wrappedCall, active, submits, submitAndBlock, Ring.prepare,
    if_neg room, accepted]
  rfl

theorem AtRest.hand_inflight (rest : r.AtRest) (op : IoOp) (call : Call) :
    ∃ sqe, (r.hand op call).ring.inflight = [sqe, r.ownSqe op] := by
  obtain ⟨sqe, inflight⟩ := rest.inflight
  refine ⟨sqe, ?_⟩
  simp [hand, Ring.push, Ring.submit, rest.sq, inflight, ownSqe]

theorem hand_idle (on : r.sched.schedRunning = true) (running : r.sched.running = some (ut, v))
    (op : IoOp) (call : Call) :
    (r.hand op call).sched.control = .scheduler ∧
      (r.hand op call).sched.runqHead = r.sched.runqHead := by
  have parts := Sched.rrSchedulerBlockCurrent_eq (Sched.of_running running).1 on
    (.io call r.ring.fresh)
  rw [hand, parts]
  exact ⟨rfl, rfl⟩

theorem AtRest.answer_step (program : Program) (rest : r.AtRest)
    (running : r.sched.running = some (ut, v)) (op : IoOp) (call : Call) (raw : Int32)
    (data : Bytes) :
    Librr.step program (r.hand op call) (.post 1 raw data) =
      some (r.answeredCall op call raw data) := by
  obtain ⟨sqe, inflight⟩ := rest.hand_inflight op call
  have idle := (hand_idle rest.recording.queue.on running op call).1
  simp only [Librr.step, idle, or_true, ↓reduceIte, inflight]
  rfl

/-- The caller is found by its id. -/
theorem blocked_found (running : r.sched.running = some (ut, v))
    (on : r.sched.schedRunning = true) (numbered : (r.hand op call).sched.Numbered) :
    ∃ u, (r.hand op call).sched.rrSchedulerFind v.id = some (ut, u) ∧ u.state = .blocked := by
  obtain ⟨current, present⟩ := Sched.of_running running
  have core := Sched.rrSchedulerBlockCurrent_core current on (.io call r.ring.fresh)
  have here : (r.hand op call).sched.core ut =
      some (Sched.suspend .blocked (.io call r.ring.fresh) v.core) := by
    rw [hand, core, Heap.modify_same, Sched.core_some present, Option.map_some]
  obtain ⟨u, hit, same⟩ := Sched.of_core_some here
  have number : u.core.id = v.id := by rw [same]; rfl
  have state : u.core.state = .blocked := by rw [same]; rfl
  exact ⟨u, number ▸ numbered.find_eq hit, state⟩

theorem AtRest.wake_step (rest : r.AtRest) (inside : InCall program id r.sched ut v call)
    (numbered : (r.hand op call).sched.Numbered) (raw : Int32) (data : Bytes) :
    Librr.step program (r.answeredCall op call raw data) (.loop .calm) =
      some (r.wokenCall ut op call raw data) := by
  obtain ⟨idle, head⟩ := hand_idle rest.recording.queue.on inside.running op call
  obtain ⟨u, found, blocked⟩ := blocked_found inside.running inside.on numbered
  have mine : r.sched.currentId = v.id := by simp [Sched.currentId, inside.running]
  have tagged : r.sched.currentId ≠ rrSignalSentinel := by
    rw [mine]
    exact rest.numbered.id_ne_sentinel (Sched.of_running inside.running).2
  have woken := Sched.woken_eq inside.on inside.running inside.tail found raw
  have cq : (r.answeredCall op call raw data).ring.cq =
      [⟨r.sched.currentId, raw, r.ring.fresh⟩] := by
    simp [answeredCall, hand, Ring.complete, Ring.submit, Ring.push, rest.cq, ownSqe]
  have ready : (r.answeredCall op call raw data).ring.ready = true :=
    rest.recording.records.ring
  have empty : (r.answeredCall op call raw data).sched.runqHead = none := head.trans inside.head
  have wakes : (r.answeredCall op call raw data).wakes ⟨r.sched.currentId, raw, r.ring.fresh⟩ =
      true := by
    have hit : (r.answeredCall op call raw data).sched.rrSchedulerFind r.sched.currentId =
        some (ut, u) := mine ▸ found
    simp [State.wakes, hit, blocked]
  have control : (r.answeredCall op call raw data).sched.control = .scheduler := idle
  have sched : (r.answeredCall op call raw data).sched.rrSchedulerWakeById r.sched.currentId raw
      none 0 = wokenSched r.sched ut (.io call r.ring.fresh) raw := by
    rw [mine]
    exact woken
  simp only [Librr.step, control, ↓reduceIte, schedulerLoop, Sched.runqPopFront, empty, rrIoWait,
    ready, WaitAnswer.calm, Bool.not_true, Bool.or_self, Bool.false_eq_true, cq, tagged, wakes]
  rw [sched]
  rfl

theorem Records.dispatch_step {s : State} (program : Program) (records : s.Records)
    (idle : s.sched.control = .scheduler) {next : Ptr} {u : Uthread}
    (head : s.sched.runqHead = some next)
    (found : s.sched.runqPopFront.2.heap next = some u) (runnable : u.state = .runnable)
    (answer : WaitAnswer) :
    Librr.step program s (.loop answer) =
      some ((s.logSwitch u.id).switchTo s.sched.runqPopFront.2 next u) := by
  have popped : s.sched.runqPopFront = (some next, s.sched.runqPopFront.2) :=
    Prod.ext (Sched.runqPopFront_links head).1 rfl
  have reads : s.config.rrReplayActive = false := by
    simp [Config.rrReplayActive, records.modeReplay]
  rw [Librr.step, if_pos idle, schedulerLoop, popped]
  simp only [found, runnable, ne_eq, not_true_eq_false, ↓reduceIte, reads, Bool.false_eq_true]
  by_cases same : s.sched.currentId = u.id
  · rw [State.logSwitch, if_pos same, if_pos same]
  · rw [State.logSwitch, if_neg same, if_neg same]

/-- A call that waits, from the submission to the return of its wrapper. -/
theorem AtRest.waitedCall (rest : r.AtRest) (user : r.sched.control = .user)
    (running : r.sched.running = some (ut, v))
    (next : program v.startFn v.ctx.replies = .call call) (head : r.sched.runqHead = none)
    {finish : Int32 → Bytes → CallResult × LogArgs} {result : CallResult}
    (submits : ∀ answer : Answer, call.wrapper.issue answer = .submit op)
    (half : call.wrapper.finish = some finish) (ended : (finish raw data).1 = result) :
    ∃ r', exec (Librr.step program) r [.act .calm, .post 1 raw data, .loop .calm, .loop .calm] =
        some r' ∧
      Along (Librr.step program) (fun s input _ => s.Sequential program input) r
        [.act .calm, .post 1 raw data, .loop .calm, .loop .calm] ∧
      r'.AtRest ∧ r'.history = r.history ++ [.issued r.ring.fresh, .completed r.ring.fresh raw,
        .resumed r.ring.fresh, .answered r.ring.fresh raw, .returned v.id call result] ∧
      r'.sched.erased id = (r.sched.reply ut (.call call) (.returned result)).erased id := by
  obtain ⟨_, present⟩ := Sched.of_running running
  obtain ⟨tail, runs, unlinked⟩ := rest.recording.queue.alone user running head
  have framed : v.ctx.frame = .user := by
    have fits := rest.recording.framed ut v.core (Sched.core_some present)
    have state : v.core.state = .running := runs
    rw [Uthread.FrameFits, state] at fits
    exact fits
  have inside : InCall program id r.sched ut v call :=
    ⟨user, rest.recording.queue.on, running, indifferent_id program r ut v present ▸ next, next,
      head, tail, runs, framed, unlinked, .calm, op, submits .calm⟩
  have calm : ∀ answer, Input.act .calm = .act answer → answer.create.Succeeds :=
    fun answer same => Input.act.inj same ▸ (by decide : Answer.calm.create.Succeeds)
  have first := rest.hand_step user running next (submits .calm) rfl
  obtain ⟨kind, recording⟩ := rest.recording.step first
  have numbered := kind.numbered rest.numbered calm
  have second := rest.answer_step program running op call raw data
  obtain ⟨kind', recording'⟩ := recording.step second
  have third := rest.wake_step inside numbered raw data
  obtain ⟨kind'', recording''⟩ := recording'.step third
  obtain ⟨again, whole⟩ := Sched.erased_roundTrip id user running head tail runs unlinked
    (.call call) (.returned result)
    (show (r.wokenCall ut op call raw data).sched =
      wokenSched r.sched ut (.io call r.ring.fresh) raw from rfl)
  have kept : (r.wokenCall ut op call raw data).ring.written r.ring.fresh = data :=
    Function.update_self _ _ _
  have back := inside.switchBack recording'' rfl again half
    (show finish raw ((r.wokenCall ut op call raw data).ring.written r.ring.fresh) =
      (result, (finish raw data).2) from by rw [kept, ← ended])
  have last := recording''.records.dispatch_step program rfl rfl again rfl .calm
  rw [back] at last
  obtain ⟨returned, recorded⟩ := recording''.step last
  obtain ⟨sqe, inflight⟩ := rest.hand_inflight op call
  have tagged : (r.ownSqe op).userData ≠ rrSignalSentinel := by
    have mine : r.sched.currentId = v.id := by simp [Sched.currentId, running]
    rw [ownSqe, mine]
    exact rest.numbered.id_ne_sentinel present
  refine ⟨_, exec_cons.mpr ⟨_, first, exec_cons.mpr ⟨_, second, exec_cons.mpr
    ⟨_, third, exec_single last⟩⟩⟩, (along_cons first).mpr ⟨⟨by decide, rfl, fun _ => head⟩,
    (along_cons second).mpr ⟨?_, (along_cons third).mpr ⟨trivial,
      (along_cons last).mpr ⟨trivial, trivial⟩⟩⟩⟩, ⟨recorded, ?_, rfl, ?_, sqe, ?_⟩, ?_, whole⟩
  · intro own member
    rw [inflight] at member
    cases member
    exact tagged
  · have answered := kind'.numbered numbered fun _ other => (by cases other)
    have woken := kind''.numbered answered fun _ other => (by cases other)
    exact returned.numbered woken fun _ other => (by cases other)
  · simp [wokenCall, answeredCall, hand, Ring.complete, Ring.cqeSeen, Ring.submit, Ring.push,
      rest.cq]
  · change (r.hand op call).ring.inflight.eraseIdx 1 = [sqe]
    rw [inflight]
    rfl
  · simp [wokenCall, answeredCall, hand, Ring.push, rest.sq]

end Call

/-- A plain process and a recording one at the same point, between calls. -/
structure Shadows (q r : State) : Prop where
  level : Sched.Level id q.sched r.sched
  passes : q.Passes
  queue : q.sched.QueueInvariant
  framed : q.sched.Framed
  clear : ∀ ut call serial, q.sched.frameAt ut ≠ some (.io call serial)
  rest : r.AtRest
  genuine : ∀ id call result, .returned id call result ∈ r.history → call.Genuine result

/-- What is asked of a step of the plain process: creations succeed, and a call that the
recorder would wait in is made with nobody else queued. -/
def PlainSequential (program : Program) (s : State) : Input → Prop
  | .act answer => answer.create.Succeeds ∧
    (s.submits program answer = true → s.sched.runqHead = none)
  | _ => True

instance (program : Program) (s : State) (input : Input) :
    Decidable (s.PlainSequential program input) :=
  match input with
  | .act answer => inferInstanceAs (Decidable (answer.create.Succeeds ∧
    (s.submits program answer = true → s.sched.runqHead = none)))
  | .loop _ | .post _ _ _ => inferInstanceAs (Decidable True)

section Shadows

variable {program : Program} {q q' r : State} {input : Input}

/-- The plain process keeps what is known of it. -/
theorem PassStep.kept (passes : q.Passes) (queue : q.sched.QueueInvariant)
    (framed : q.sched.Framed)
    (clear : ∀ ut call serial, q.sched.frameAt ut ≠ some (.io call serial))
    (kind : PassStep program q input q') :
    q'.Passes ∧ q'.sched.QueueInvariant ∧ q'.sched.Framed ∧
      ∀ ut call serial, q'.sched.frameAt ut ≠ some (.io call serial) := by
  obtain ⟨config, ring, turn⟩ := kind.turn framed
  refine ⟨passes.kept config ring, queueInvariant_of_refines queue (turn.refines queue framed),
    turn.framed queue framed, ?_⟩
  cases kind with
  | perform answer ut u sched user running performed =>
      exact fun other call serial inside => clear other call serial
        ((performed.frameAt_io framed queue user running other call serial).mp inside)
  | called answer ut u call user running next =>
      exact fun other c serial inside => clear other c serial (reply_frameAt_io inside)
  | idle answer idle empty => exact clear
  | dispatch answer next u idle head found runnable =>
      intro other call serial inside
      rw [switchTo_frameAt (head_resumes framed found runnable) found] at inside
      split at inside
      · simp at inside
      · exact clear other call serial inside

theorem submits_apart {s : State} {ut : Ptr} {u : Uthread}
    (running : s.sched.running = some (ut, u))
    (apart : ∀ call, program u.startFn u.ctx.replies ≠ .call call) (answer : Answer) :
    s.submits program answer = false := by
  simp only [submits, running]

theorem AtRest.after {r' : State} (rest : r.AtRest)
    (taken : Librr.step program r input = some r')
    (created : ∀ answer, input = .act answer → answer.create.Succeeds)
    (ring : r'.ring = r.ring) : r'.AtRest := by
  obtain ⟨kind, recording⟩ := rest.recording.step taken
  exact ⟨recording, kind.numbered rest.numbered created, ring ▸ rest.sq, ring ▸ rest.cq,
    ring ▸ rest.inflight⟩

/-- The recorder follows an action that is no call by the same action. -/
theorem Shadows.perform {answer : Answer} {ut : Ptr} {u : Uthread} {sched : Sched}
    (shadows : Shadows q r) (succeeds : answer.create.Succeeds) (user : q.sched.control = .user)
    (running : q.sched.running = some (ut, u))
    (performed : q.sched.Local q.config.stackSize ut u answer.create
      (program u.startFn u.ctx.replies) sched) :
    ∃ inputs r', exec (Librr.step program) r inputs = some r' ∧
      Along (Librr.step program) (fun s i _ => s.Sequential program i) r inputs ∧
      Sched.Level id sched r'.sched ∧ r'.AtRest ∧ r'.history = r.history := by
  obtain ⟨v, running', same⟩ := shadows.level.running running
  have next := (indifferent_id program q).same (indifferent_id program r)
    (Sched.of_running running).2 (Sched.of_running running').2 same
  have apart := next ▸ performed.no_call
  obtain ⟨sched', performed', result⟩ :=
    perform_local running' { answer with submit := true } apart
  have taken : Librr.step program r (.act { answer with submit := true }) =
      some { r with sched := sched' } := by
    simp only [Librr.step, shadows.level.control.trans user, ↓reduceIte, State.act,
      shadows.rest.recording.records.ready, running', Option.map_some, result]
  rw [next] at performed'
  refine ⟨[.act { answer with submit := true }], _, exec_single taken,
    (along_cons taken).mpr ⟨⟨succeeds, rfl, ?_⟩, trivial⟩, ?_, ?_, rfl⟩
  · rw [submits_apart running' apart]
    exact fun wrong => (by cases wrong)
  · exact shadows.level.performed Sched.plain_id succeeds succeeds running running'
      (level_parts same).1 performed performed'
  · exact shadows.rest.after taken (fun _ same => Input.act.inj same ▸ succeeds) rfl

/-- A call of the plain process that the recorder can be brought to return from alike. -/
theorem Shadows.called {answer : Answer} {ut : Ptr} {u : Uthread} {call : Call}
    {result : CallResult} (shadows : Shadows q r) (user : q.sched.control = .user)
    (running : q.sched.running = some (ut, u))
    (next : program u.startFn u.ctx.replies = .call call)
    (alone : q.submits program answer = true → q.sched.runqHead = none)
    (recordable : call.Recordable result) :
    ∃ inputs r', exec (Librr.step program) r inputs = some r' ∧
      Along (Librr.step program) (fun s i _ => s.Sequential program i) r inputs ∧
      Sched.Level id (q.sched.reply ut (.call call) (.returned result)) r'.sched ∧ r'.AtRest ∧
      ∀ id other given, .returned id other given ∈ r'.history →
        .returned id other given ∈ r.history ∨ (other = call ∧ given = result) := by
  obtain ⟨v, running', same⟩ := shadows.level.running running
  have next' := ((indifferent_id program q).same (indifferent_id program r)
    (Sched.of_running running).2 (Sched.of_running running').2 same).trans next
  have user' := shadows.level.control.trans user
  have records := shadows.rest.recording.records
  cases recordable with
  | atOnce real done =>
      obtain ⟨args, issued⟩ := done { Answer.calm with real := real } rfl
      have taken : Librr.step program r (.act { Answer.calm with real := real }) =
          some ((r.rrLogSyscall args).returnCall ut call result) := by
        simp only [Librr.step, user', ↓reduceIte, State.act, records.ready, running',
          Option.map_some, next', State.perform, wrappedCall, records.active, issued]
      have still : r.submits program { Answer.calm with real := real } = false := by
        simp only [submits, running', next', issued]
      rw [records.loggedReturn] at taken
      refine ⟨_, _, exec_single taken, (along_cons taken).mpr ⟨⟨?_, rfl, ?_⟩, trivial⟩, ?_, ?_, ?_⟩
      · exact (by decide : Answer.calm.create.Succeeds)
      · rw [still]
        exact fun wrong => (by cases wrong)
      · exact shadows.level.reply rfl
      · exact shadows.rest.after taken
          (fun _ same => Input.act.inj same ▸ (by decide : Answer.calm.create.Succeeds)) rfl
      · intro id other given member
        have parts : .returned id other given ∈ r.history ∨
            (id = r.sched.currentId ∧ other = call ∧ given = result) := by
          simpa using member
        exact parts.imp_right And.right
  | later op finish raw data submits half ended =>
      have waits : q.submits program answer = true := by
        simp only [State.submits, running, next, submits answer]
      have head := shadows.level.runqHead.trans (alone waits)
      obtain ⟨r', ran, sequential, rest, history, back⟩ :=
        shadows.rest.waitedCall user' running' next' head submits half ended
      refine ⟨_, r', ran, sequential, ?_, rest, ?_⟩
      · exact (shadows.level.reply rfl).trans back.symm
      · intro id other given member
        rw [history] at member
        have parts : .returned id other given ∈ r.history ∨
            (id = v.id ∧ other = call ∧ given = result) := by
          simpa using member
        exact parts.imp_right And.right

/-- A switch from one uthread to another. -/
theorem Shadows.dispatch {next : Ptr} {u : Uthread} (program : Program) (shadows : Shadows q r)
    (idle : q.sched.control = .scheduler) (head : q.sched.runqHead = some next)
    (found : q.sched.runqPopFront.2.heap next = some u) (runnable : u.state = .runnable) :
    ∃ inputs r', exec (Librr.step program) r inputs = some r' ∧
      Along (Librr.step program) (fun s i _ => s.Sequential program i) r inputs ∧
      Sched.Level id (q.switchTo q.sched.runqPopFront.2 next u).sched r'.sched ∧ r'.AtRest ∧
      ∀ id call result, .returned id call result ∈ r'.history →
        .returned id call result ∈ r.history := by
  obtain ⟨v, found', same⟩ := shadows.level.popFront.found found
  obtain ⟨_, _, state, frame, _⟩ := level_parts same
  have records := shadows.rest.recording.records
  have outside : ∀ call serial, u.ctx.frame ≠ .io call serial := by
    intro call serial inside
    apply shadows.clear next call serial
    rw [Sched.frameAt_popped found, inside]
  have taken := records.dispatch_step program (shadows.level.control.trans idle)
    (shadows.level.runqHead.trans head) found' (state.trans runnable) .calm
  rw [records.logSwitch, switchTo_outside _ _ _ (frame ▸ outside)] at taken
  refine ⟨[.loop .calm], _, exec_single taken, (along_cons taken).mpr ⟨trivial, trivial⟩,
    ?_, ?_, ?_⟩
  · rw [switchTo_outside _ _ _ outside, frame]
    exact (shadows.level.popFront.dispatch next).resumed Sched.plain_id next _
  · exact shadows.rest.after taken (fun _ other => (by cases other)) rfl
  · intro id call result member
    rcases List.mem_append.mp member with old | switched
    · exact old
    · obtain ⟨_, _, _, wrong⟩ := mem_switchSeen switched
      cases wrong

/-- Every step of the plain process is followed by some steps of the recording one. -/
theorem Shadows.step (shadows : Shadows q r) (alone : q.PlainSequential program input)
    (genuine : ∀ id call result, .returned id call result ∈ q'.history → call.Genuine result)
    (taken : Librr.step program q input = some q') :
    ∃ inputs r', exec (Librr.step program) r inputs = some r' ∧
      Along (Librr.step program) (fun s i _ => s.Sequential program i) r inputs ∧
      Shadows q' r' := by
  have kind := shadows.passes.step shadows.queue taken
  obtain ⟨passes, queue, framed, clear⟩ :=
    kind.kept shadows.passes shadows.queue shadows.framed shadows.clear
  cases kind with
  | perform answer ut u sched user running performed =>
      obtain ⟨inputs, r', ran, sequential, level, rest, history⟩ :=
        shadows.perform alone.1 user running performed
      exact ⟨inputs, r', ran, sequential, level, passes, queue, framed, clear, rest,
        history ▸ shadows.genuine⟩
  | called answer ut u call user running next =>
      have fits : call.Genuine (call.wrapper.plain answer.real) :=
        genuine q.sched.currentId call _ (by simp [returnCall])
      obtain ⟨inputs, r', ran, sequential, level, rest, history⟩ :=
        shadows.called user running next alone.2 fits.recordable
      refine ⟨inputs, r', ran, sequential, level, passes, queue, framed, clear, rest, ?_⟩
      intro id other given member
      rcases history id other given member with old | ⟨rfl, rfl⟩
      · exact shadows.genuine id other given old
      · exact fits
  | idle answer idle empty =>
      exact ⟨[], r, rfl, trivial, shadows.level, passes, queue, framed, clear, shadows.rest,
        shadows.genuine⟩
  | dispatch answer next u idle head found runnable =>
      obtain ⟨inputs, r', ran, sequential, level, rest, history⟩ :=
        shadows.dispatch program idle head found runnable
      exact ⟨inputs, r', ran, sequential, level, passes, queue, framed, clear, rest,
        fun id call result member => shadows.genuine id call result (history id call result member)⟩

theorem Shadows.exec {inputs : List Input} (shadows : Shadows q r)
    (alone : Along (Librr.step program) (fun s i _ => s.PlainSequential program i) q inputs)
    (genuine : ∀ id call result, .returned id call result ∈ q'.history → call.Genuine result)
    (reached : Transition.exec (Librr.step program) q inputs = some q') :
    ∃ recording r', Transition.exec (Librr.step program) r recording = some r' ∧
      Along (Librr.step program) (fun s i _ => s.Sequential program i) r recording ∧
      Shadows q' r' := by
  induction inputs generalizing q r with
  | nil =>
      cases reached
      exact ⟨[], r, rfl, trivial, shadows⟩
  | cons input rest ih =>
      obtain ⟨middle, taken, further⟩ := exec_cons.mp reached
      obtain ⟨here, later⟩ := (along_cons taken).mp alone
      have past : middle.history <+: q'.history :=
        exec_extends (fun _ _ _ taken _ => ⟨trivial, step_grows taken⟩) trivial further
      obtain ⟨first, r₁, ran, sequential, shadows₁⟩ := shadows.step here
        (fun id call result member => genuine id call result (past.subset member)) taken
      obtain ⟨second, r', ran', sequential', shadows'⟩ := ih shadows₁ later further
      exact ⟨first ++ second, r', exec_append.mpr ⟨r₁, ran, ran'⟩,
        (along_append ran).mpr ⟨sequential, sequential'⟩, shadows'⟩

end Shadows

/-- Two processes at the same point, as their uthreads and an observer see them. -/
structure SamePoint (program : Program) (q p : State) : Prop where
  current : p.sched.current = q.sched.current
  queue : ∃ items, Represents q.sched.links items ∧ Represents p.sched.links items
  next : ∀ ut, p.sched.nextAction program ut = q.sched.nextAction program ut
  finished : ∀ ut, p.sched.traceAt ut = q.sched.traceAt ut

theorem Shadows.samePoint {q r : State} (shadows : Shadows q r) (program : Program) :
    SamePoint program q r := by
  obtain ⟨items, shape, _⟩ := shadows.queue.runq
  refine ⟨shadows.level.current, ⟨items, shape, shadows.level.links ▸ shape⟩,
    (indifferent_id program q).next (indifferent_id program r) shadows.level, ?_⟩
  intro ut
  simpa only [List.map_id_fun, Option.map_id_fun, id] using shadows.level.traces ut

/-- Between calls, what replay reaches is the same point too. -/
theorem Shadows.replayed {program : Program} {q r p : State} {log : List Event}
    (shadows : Shadows q r) (corresponds : Corresponds program log r p) :
    SamePoint program q p := by
  have there := shadows.samePoint program
  obtain ⟨items, shape, queued⟩ := corresponds.queue
  have outside : items.filter (fun ut => !r.sched.inCall ut) = items := by
    apply List.filter_eq_self.mpr
    intro ut _
    have clear := shadows.clear ut
    rw [← shadows.level.frameAt] at clear
    unfold Sched.inCall
    split
    · rename_i call serial inside
      exact absurd inside (clear call serial)
    · rfl
  rw [outside] at queued
  exact ⟨corresponds.current.trans there.current,
    ⟨items, shadows.level.links ▸ shape, queued⟩,
    fun ut => (corresponds.next ut).trans (there.next ut),
    fun ut => (corresponds.finished ut).trans (there.finished ut)⟩

end State

end Librr
