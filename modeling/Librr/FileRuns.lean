import Librr.Erasure
import Librr.Files
import Librr.Logging

set_option autoImplicit false

namespace Librr

open Transition

/-- The main thread makes the calls one after the other and returns. -/
def inSequence (calls : List Call) : Program
  | none, replies =>
    match calls[replies.length]? with
    | some call => .call call
    | none => .ret
  | some _, _ => .ret

namespace State

/-- What the wrapped calls returned to the application, in order. -/
def results (s : State) : List CallResult :=
  s.history.filterMap fun seen =>
    match seen with
    | .returned _ _ result => some result
    | _ => none

/-- A recording process whose main thread is the only uthread and runs, with nothing but
the signal read in flight. -/
structure Alone (s : State) (trace : List (Action × Reply)) : Prop where
  records : s.Records
  user : s.sched.control = .user
  current : s.sched.current = some 0
  on : s.sched.schedRunning = true
  head : s.sched.runqHead = none
  tail : s.sched.runqTail = none
  table : s.sched.threads.items = [0]
  main : ∃ u, s.sched.heap 0 = some u ∧ u.id = 1 ∧ u.startFn = none ∧ u.ctx.trace = trace
  drained : s.ring.sq = []
  quiet : s.ring.cq = []
  flying : ∃ sqe, s.ring.inflight = [sqe]

theorem recordStart_alone (stackSize : Nat) (signalFd : Int32) :
    (recordStart stackSize signalFd).Alone [] := by
  rw [recordStart_eq]
  exact ⟨⟨rfl, rfl, rfl, rfl⟩, rfl, rfl, rfl, rfl, rfl, rfl, ⟨_, rfl, rfl, rfl, rfl⟩, rfl, rfl,
    ⟨_, rfl⟩⟩

variable {program : Program} {s : State} {trace : List (Action × Reply)} {call : Call}

theorem Alone.running (alone : s.Alone trace) :
    ∃ u, s.sched.running = some (0, u) ∧ u.id = 1 ∧ u.startFn = none ∧ u.ctx.trace = trace := by
  obtain ⟨u, found, rest⟩ := alone.main
  exact ⟨u, Sched.running_eq alone.current found, rest⟩

/-- A wrapper logs its event and returns. -/
theorem Alone.returned (alone : s.Alone trace) (args : LogArgs) (call : Call)
    (result : CallResult) :
    ((s.rrLogSyscall args).returnCall 0 call result).Alone
        (trace ++ [(.call call, .returned result)]) ∧
      ((s.rrLogSyscall args).returnCall 0 call result).results = s.results ++ [result] := by
  obtain ⟨u, found, id, start, past⟩ := alone.main
  have same := rrLogSyscall_same s args
  have sched := loggedReturn_sched s args 0 call result
  refine ⟨⟨alone.records.of_same same.config (congrArg Ring.ready same.ring), ?_, ?_, ?_, ?_, ?_,
    ?_, ?_, same.ring ▸ alone.drained, same.ring ▸ alone.quiet, same.ring ▸ alone.flying⟩, ?_⟩
  · exact sched ▸ alone.user
  · exact sched ▸ alone.current
  · exact sched ▸ alone.on
  · exact sched ▸ alone.head
  · exact sched ▸ alone.tail
  · exact sched ▸ alone.table
  · rw [sched]
    simp [Sched.reply, Heap.modify_same, found, id, start, past, Context.finish]
  · simp [results, loggedReturn_history]

/-- A call that is finished at once. -/
theorem Alone.immediate (alone : s.Alone trace)
    (next : program none (trace.map Prod.snd) = .call call) {answer : Answer}
    {result : CallResult} {args : LogArgs} (done : call.wrapper.issue answer = .done result args) :
    ∃ t, step program s (.act answer) = some t ∧
      t.Alone (trace ++ [(.call call, .returned result)]) ∧ t.results = s.results ++ [result] := by
  obtain ⟨u, running, id, start, past⟩ := alone.running
  have replies : u.ctx.replies = trace.map Prod.snd := by rw [Context.replies, past]
  refine ⟨(s.rrLogSyscall args).returnCall 0 call result, ?_, alone.returned args call result⟩
  simp [Librr.step, alone.user, act, alone.records.ready, running, start, replies, next, perform,
    wrappedCall, alone.records.active, done]

theorem step_hand {ut : Ptr} {u : Uthread} {answer : Answer} {op : IoOp} (records : s.Records)
    (user : s.sched.control = .user) (running : s.sched.running = some (ut, u))
    (next : program u.startFn u.ctx.replies = .call call)
    (submits : call.wrapper.issue answer = .submit op) (drained : s.ring.sq = [])
    (accepted : answer.submit = true) :
    step program s (.act answer) = some (s.hand op call) := by
  have room : s.ring.sq.length ≠ ringEntries := by rw [drained]; decide
  simp only [Librr.step, user, ↓reduceIte, act, records.ready, running, Option.map_some, next,
    perform, wrappedCall, records.active, submits, submitAndBlock, Ring.prepare, room, accepted]
  rfl

theorem step_wake {cqe : Cqe} {rest : List Cqe} (records : s.Records)
    (idle : s.sched.control = .scheduler) (empty : s.sched.runqHead = none)
    (first : s.ring.cq = cqe :: rest) (tagged : cqe.userData ≠ rrSignalSentinel) :
    step program s (.loop .calm) = some { s with
      sched := s.sched.rrSchedulerWakeById cqe.userData cqe.res none 0
      ring := s.ring.cqeSeen
      history := s.history ++ if s.wakes cqe then [.resumed cqe.serial] else [] } := by
  have popped : s.sched.runqPopFront = (none, s.sched) := by simp [Sched.runqPopFront, empty]
  simp only [Librr.step, idle, ↓reduceIte, schedulerLoop, popped, rrIoWait, records.ring,
    WaitAnswer.calm, Bool.not_true, Bool.or_self, Bool.false_eq_true, first, tagged]

theorem step_again {next : Ptr} {u : Uthread} (idle : s.sched.control = .scheduler)
    (head : s.sched.runqHead = some next) (found : s.sched.runqPopFront.2.heap next = some u)
    (runnable : u.state = .runnable) (same : s.sched.currentId = u.id) :
    step program s (.loop .calm) = some (s.switchTo s.sched.runqPopFront.2 next u) := by
  have popped : s.sched.runqPopFront = (some next, s.sched.runqPopFront.2) := by
    simp [Sched.runqPopFront, head]
  rw [Librr.step, if_pos idle, schedulerLoop, popped]
  simp only [found, runnable, ne_eq, not_true_eq_false, ↓reduceIte, same]

/-- The call is submitted, the kernel completes it, and the idle scheduler consumes the
completion and wakes the main thread. -/
theorem Alone.submitted (alone : s.Alone trace)
    (next : program none (trace.map Prod.snd) = .call call) {answer : Answer} {op : IoOp}
    (submits : call.wrapper.issue answer = .submit op) (accepted : answer.submit = true)
    (res : Int32) (data : Bytes) :
    ∃ t, exec (step program) s [.act answer, .post 1 res data, .loop .calm] = some t ∧
      t.config = s.config ∧
      t.sched = { s.sched with
        heap := s.sched.heap.modify 0 (Sched.wokenWith (.io call s.ring.fresh) res)
        runqHead := some 0
        runqTail := some 0
        control := .scheduler } ∧
      t.ring = { s.ring with
        fresh := s.ring.fresh + 1
        written := Function.update s.ring.written s.ring.fresh data } ∧
      t.results = s.results := by
  obtain ⟨u, running, id, start, past⟩ := alone.running
  obtain ⟨current, found⟩ := Sched.of_running running
  obtain ⟨signal, flying⟩ := alone.flying
  have named : s.sched.currentId = 1 := by simp [Sched.currentId, running, id]
  have apart : (1 : UInt64) ≠ rrSignalSentinel := by decide
  have handed : step program s (.act answer) = some (s.hand op call) := by
    apply step_hand alone.records alone.user running _ submits alone.drained accepted
    rw [start, Context.replies, past, next]
  set sqe : Sqe := ⟨op, 1, s.ring.fresh⟩ with entry
  have ring : (s.hand op call).ring = { s.ring with
      sq := [], inflight := [signal, sqe], fresh := s.ring.fresh + 1 } := by
    simp [hand, Ring.push, Ring.submit, alone.drained, flying, named, entry]
  have sched : (s.hand op call).sched = (s.sched.setState 0 .blocked).swapOut 0
      (.io call s.ring.fresh) := Sched.rrSchedulerBlockCurrent_eq current alone.on _
  have idle : (s.hand op call).sched.control = .scheduler := by rw [sched]; rfl
  set posted : State := { s.hand op call with
    ring := (s.hand op call).ring.complete 1 sqe res data
    history := (s.hand op call).history ++ [.completed sqe.serial res] } with afterPost
  have completed : step program (s.hand op call) (.post 1 res data) = some posted := by
    have inside : (s.hand op call).ring.inflight[1]? = some sqe := by rw [ring]; rfl
    simp [Librr.step, idle, inside, afterPost]
  have first : posted.ring.cq = [⟨1, res, s.ring.fresh⟩] := by
    simp [afterPost, ring, Ring.complete, alone.quiet, entry]
  have head : posted.sched.runqHead = none := by
    rw [afterPost, sched]
    exact alone.head
  have records : posted.Records := alone.records.of_same rfl (by rw [afterPost, ring]; rfl)
  have consumed : step program posted (.loop .calm) = some _ :=
    step_wake records idle head first apart
  have blocked : posted.sched.rrSchedulerFind 1 =
      some (0, { u with state := .blocked, ctx := ⟨trace, .io call s.ring.fresh⟩ }) := by
    simp only [afterPost, sched, Sched.rrSchedulerFind, Sched.swapOut, Sched.setState,
      Sched.modify, alone.table, Heap.modify_modify]
    simp [Heap.modify_same, found, id, past]
  refine ⟨_, exec_cons.mpr ⟨_, handed, exec_cons.mpr ⟨_, completed, exec_single consumed⟩⟩, rfl,
    Sched.woken_eq alone.on running alone.tail blocked res, ?_, ?_⟩
  · simp [afterPost, ring, Ring.complete, Ring.cqeSeen, entry, apart, alone.drained, alone.quiet,
      flying]
  · simp only [results, afterPost, hand, Ring.push, alone.drained, List.nil_append, List.map_cons,
      List.map_nil, List.filterMap_append]
    split <;> simp

/-- The main thread is dispatched and the wrapper returns. -/
theorem Alone.answered (alone : s.Alone trace) {t : State}
    {finish : Int32 → Bytes → CallResult × LogArgs} (half : call.wrapper.finish = some finish)
    {res : Int32} {data : Bytes} (config : t.config = s.config)
    (sched : t.sched = { s.sched with
      heap := s.sched.heap.modify 0 (Sched.wokenWith (.io call s.ring.fresh) res)
      runqHead := some 0
      runqTail := some 0
      control := .scheduler })
    (ring : t.ring = { s.ring with
      fresh := s.ring.fresh + 1
      written := Function.update s.ring.written s.ring.fresh data }) :
    ∃ r, step program t (.loop .calm) = some r ∧
      r.Alone (trace ++ [(.call call, .returned (finish res data).1)]) ∧
      r.results = t.results ++ [(finish res data).1] := by
  obtain ⟨u, running, id, start, past⟩ := alone.running
  obtain ⟨current, found⟩ := Sched.of_running running
  set v := Sched.wokenWith (.io call s.ring.fresh) res u with record
  have popped : t.sched.runqPopFront.2 = { s.sched with
      heap := s.sched.heap.modify 0 (Sched.wokenWith (.io call s.ring.fresh) res)
      runqHead := none
      runqTail := none
      control := .scheduler } := by
    rw [sched]
    simp [Sched.runqPopFront, Sched.setNext, Sched.modify, Heap.modify_same, found,
      Sched.wokenWith, Heap.modify_modify]
    rfl
  have here : t.sched.runqPopFront.2.heap 0 = some v := by
    rw [popped]
    simp [Heap.modify_same, found, record]
  have same : t.sched.currentId = v.id := by
    rw [sched]
    simp [Sched.currentId, Sched.running, current, Heap.modify_same, found, record,
      Sched.wokenWith]
  have taken : step program t (.loop .calm) = some (t.switchTo t.sched.runqPopFront.2 0 v) := by
    apply step_again _ _ here rfl same
    · rw [sched]
    · rw [sched]
  have written : t.ring.written s.ring.fresh = data := by rw [ring]; simp
  have last : t.switchTo t.sched.runqPopFront.2 0 v =
      (((t.arrive t.sched.runqPopFront.2 0 v.id).observe [.answered s.ring.fresh res]).rrLogSyscall
        (finish res data).2).returnCall 0 call (finish res data).1 := by
    rw [switchTo_eq, resume, record]
    simp only [Sched.wokenWith, finishIo_eq half]
    rw [← written]
    rfl
  have arrived : ((t.arrive t.sched.runqPopFront.2 0 v.id).observe
      [.answered s.ring.fresh res]).Alone trace := by
    have ready : t.ring.ready = s.ring.ready := by rw [ring]
    refine ⟨alone.records.of_same config ready, rfl, rfl, ?_, ?_, ?_, ?_, ?_, ?_, ?_, ?_⟩
    all_goals simp only [observe_sched, observe_ring, popped, arrive, ring]
    · exact alone.on
    · rfl
    · rfl
    · exact alone.table
    · simp [Sched.dispatch, Sched.setState, Sched.modify, Heap.modify_modify, Heap.modify_same,
        found, Sched.wokenWith, id, start, past]
    · exact alone.drained
    · exact alone.quiet
    · exact alone.flying
  obtain ⟨after, seen⟩ := arrived.returned (finish res data).2 call (finish res data).1
  refine ⟨_, taken, last ▸ after, ?_⟩
  have unseen : t.switchSeen 0 v.id = [] := by
    simp [switchSeen, Sched.running, sched, current, Heap.modify_same, found]
  rw [last, seen]
  simp [results, arrive, unseen]

/-- A process in passthrough mode whose main thread runs. -/
structure Passing (s : State) (trace : List (Action × Reply)) : Prop where
  ready : s.config.runtimeReady = true
  modeRecord : s.config.modeRecord = false
  modeReplay : s.config.modeReplay = false
  user : s.sched.control = .user
  current : s.sched.current = some 0
  main : ∃ u, s.sched.heap 0 = some u ∧ u.startFn = none ∧ u.ctx.trace = trace

theorem Passing.called (passing : s.Passing trace)
    (next : program none (trace.map Prod.snd) = .call call) (answer : Answer) :
    ∃ t, step program s (.act answer) = some t ∧
      t.Passing (trace ++ [(.call call, .returned (call.wrapper.plain answer.real))]) ∧
      t.results = s.results ++ [call.wrapper.plain answer.real] ∧ t.ring = s.ring := by
  obtain ⟨u, found, start, past⟩ := passing.main
  have running := Sched.running_eq passing.current found
  have replies : u.ctx.replies = trace.map Prod.snd := by rw [Context.replies, past]
  refine ⟨s.returnCall 0 call (call.wrapper.plain answer.real), ?_, ?_, ?_, rfl⟩
  · simp [Librr.step, passing.user, act, passing.ready, running, start, replies, next, perform,
      wrappedCall, Config.rrActive, Config.rrReplayActive, passing.modeRecord, passing.modeReplay]
  · refine ⟨passing.ready, passing.modeRecord, passing.modeReplay, passing.user, passing.current,
      ?_⟩
    simp [returnCall, Sched.reply, Heap.modify_same, found, start, past, Context.finish]
  · simp [results, returnCall]

end State

namespace FileCall

/-- What the world answers while the call is made: the outcome of the plain function,
should the wrapper use it. -/
def answer (kernel : Kernel) (file : File) (fc : FileCall) : Answer :=
  { Answer.calm with real := (fc.libc kernel file).2 }

/-- One call in record mode: the file behind it and the inputs of its run, in which the
kernel serves the submitted operation. -/
def recordOne (kernel : Kernel) (fd : Int32) (file : File) (fc : FileCall) : File × List Input :=
  match (fc.call fd).wrapper.issue (fc.answer kernel file) with
  | .done _ _ => ((fc.libc kernel file).1, [.act (fc.answer kernel file)])
  | .submit op =>
    match kernel.serve file op with
    | none => (file, [.act (fc.answer kernel file)])
    | some (after, res, data) =>
      (after, [.act (fc.answer kernel file), .post 1 res data, .loop .calm, .loop .calm])

/-- The same in passthrough mode. -/
def passOne (kernel : Kernel) (file : File) (fc : FileCall) : File × List Input :=
  ((fc.libc kernel file).1, [.act (fc.answer kernel file)])

/-- A whole sequence of calls. -/
def driven (one : File → FileCall → File × List Input) (file : File) :
    List FileCall → File × List Input
  | [] => (file, [])
  | fc :: rest =>
    let later := driven one (one file fc).1 rest
    (later.1, (one file fc).2 ++ later.2)

section Runs

variable {kernel : Kernel} {fd : Int32} {file : File} {calls : List FileCall} {s : State}
  {trace : List (Action × Reply)} {fc : FileCall}

theorem inSequence_next (here : calls[trace.length]? = some fc) :
    inSequence (calls.map (call fd)) none (trace.map Prod.snd) = .call (fc.call fd) := by
  simp [inSequence, here]

/-- A transfer the kernel makes has a result the wrapper passes on. -/
theorem transferred (kernel : Kernel) {data : Bytes} (fits : data.length ≤ kernel.maxCount) :
    rawToSsize (Int32.ofInt data.length) = ((data.length : Int), none) := by
  have small := kernel.small
  apply rawToSsize_success
  · omega
  · omega

theorem recordOne_done (alone : s.Alone trace) (here : calls[trace.length]? = some fc)
    {result : CallResult} {args : LogArgs}
    (done : (fc.call fd).wrapper.issue (fc.answer kernel file) = .done result args) :
    ∃ t reply, exec (step (inSequence (calls.map (call fd)))) s (fc.recordOne kernel fd file).2 =
        some t ∧ t.Alone (trace ++ [reply]) ∧ t.results = s.results ++ [result] ∧
      (fc.recordOne kernel fd file).1 = (fc.libc kernel file).1 := by
  obtain ⟨t, taken, after, seen⟩ := alone.immediate (inSequence_next here) done
  simp only [recordOne, done]
  exact ⟨t, _, exec_single taken, after, seen, trivial⟩

theorem recordOne_served (alone : s.Alone trace) (here : calls[trace.length]? = some fc)
    {op : IoOp} {finish : Int32 → Bytes → CallResult × LogArgs} {after : File} {res : Int32}
    {data : Bytes} (submits : (fc.call fd).wrapper.issue (fc.answer kernel file) = .submit op)
    (half : (fc.call fd).wrapper.finish = some finish)
    (served : kernel.serve file op = some (after, res, data)) :
    ∃ t reply, exec (step (inSequence (calls.map (call fd)))) s (fc.recordOne kernel fd file).2 =
        some t ∧ t.Alone (trace ++ [reply]) ∧ t.results = s.results ++ [(finish res data).1] ∧
      (fc.recordOne kernel fd file).1 = after := by
  obtain ⟨w, reached, config, sched, ring, same⟩ :=
    alone.submitted (inSequence_next here) submits rfl res data
  obtain ⟨t, taken, alone', seen⟩ := alone.answered half config sched ring
  simp only [recordOne, submits, served]
  refine ⟨t, _, ?_, alone', by rw [seen, same], trivial⟩
  exact exec_append.mpr ⟨w, reached, exec_single taken⟩

/-- One call in record mode does to the file and returns what `recorded` says. -/
theorem recordOne_run (kernel : Kernel) (fd : Int32) (file : File) (alone : s.Alone trace)
    (here : calls[trace.length]? = some fc) :
    ∃ t reply, exec (step (inSequence (calls.map (call fd)))) s (fc.recordOne kernel fd file).2 =
        some t ∧ t.Alone (trace ++ [reply]) ∧
      t.results = s.results ++ [(fc.recorded kernel file).2] ∧
      (fc.recordOne kernel fd file).1 = (fc.recorded kernel file).1 := by
  have offset : (0 : UInt64) ≠ -1 := by decide
  cases fc with
  | read object count =>
      by_cases zero : count = 0
      · subst zero
        exact recordOne_done alone here rfl
      · have submits : ((FileCall.read object count).call fd).wrapper.issue
            ((FileCall.read object count).answer kernel file) =
              .submit (.read fd (UInt32.ofNat count) 0) := if_neg zero
        set data := file.readAt 0 (min (count % 2 ^ 32) kernel.maxCount) with transfer
        have served : kernel.serve file (.read fd (UInt32.ofNat count) 0) =
            some (file, Int32.ofInt data.length, data) := by
          simp only [Kernel.serve, offset, ↓reduceIte, UInt32.toNat_ofNat']
          rfl
        have length : rawToSsize (Int32.ofInt data.length) = ((data.length : Int), none) := by
          apply transferred kernel
          rw [transfer, File.length_readAt]
          omega
        have result : (FileCall.read object count).recorded kernel file =
            (file, ⟨(rawToSsize (Int32.ofInt data.length)).1,
              (rawToSsize (Int32.ofInt data.length)).2, some (overwrite object data), none⟩) := by
          rw [length]
          exact if_neg zero
        rw [result]
        exact recordOne_served alone here submits rfl served
  | write buf =>
      by_cases zero : buf.length = 0
      · have done : ((FileCall.write buf).call fd).wrapper.issue
            ((FileCall.write buf).answer kernel file) = zeroCount Nr.write fd none
              (kernel.write file buf).2 := if_pos zero
        have result : (FileCall.write buf).recorded kernel file =
            ((kernel.write file buf).1, realResult (kernel.write file buf).2 none none) :=
          if_pos zero
        rw [result]
        exact recordOne_done alone here done
      · have submits : ((FileCall.write buf).call fd).wrapper.issue
            ((FileCall.write buf).answer kernel file) =
              .submit (.write fd buf (UInt32.ofNat buf.length) 0) := if_neg zero
        set data := buf.take (min (buf.length % 2 ^ 32) kernel.maxCount) with transfer
        have served : kernel.serve file (.write fd buf (UInt32.ofNat buf.length) 0) =
            some (file.writeAt 0 data, Int32.ofInt data.length, []) := by
          simp only [Kernel.serve, offset, ↓reduceIte, UInt32.toNat_ofNat']
          rfl
        have length : rawToInt (Int32.ofInt data.length) = ((data.length : Int), none) := by
          apply transferred kernel
          rw [transfer, List.length_take]
          omega
        have result : (FileCall.write buf).recorded kernel file =
            (file.writeAt 0 data, ⟨(rawToInt (Int32.ofInt data.length)).1,
              (rawToInt (Int32.ofInt data.length)).2, none, none⟩) := by
          rw [length]
          exact if_neg zero
        rw [result]
        exact recordOne_served alone here submits rfl served

/-- The same in passthrough mode. -/
theorem passOne_run (kernel : Kernel) (fd : Int32) (file : File) (passing : s.Passing trace)
    (here : calls[trace.length]? = some fc) :
    ∃ t reply, exec (step (inSequence (calls.map (call fd)))) s (fc.passOne kernel file).2 =
        some t ∧ t.Passing (trace ++ [reply]) ∧
      t.results = s.results ++ [(fc.passed kernel file).2] ∧
      (fc.passOne kernel file).1 = (fc.passed kernel file).1 := by
  obtain ⟨t, taken, after, seen, _⟩ := passing.called (inSequence_next here)
    (fc.answer kernel file)
  refine ⟨t, _, exec_single taken, after, ?_, rfl⟩
  rw [seen]
  cases fc with
  | read object count => rfl
  | write buf => rfl

/-- What holds of single calls holds of the sequence. -/
theorem driven_run {program : Program} {one : File → FileCall → File × List Input}
    {answer : File → FileCall → File × CallResult}
    {keeps : State → List (Action × Reply) → Prop}
    (single : ∀ s trace file fc, keeps s trace → calls[trace.length]? = some fc →
      ∃ t reply, exec (step program) s (one file fc).2 = some t ∧ keeps t (trace ++ [reply]) ∧
        t.results = s.results ++ [(answer file fc).2] ∧ (one file fc).1 = (answer file fc).1)
    (front rest : List FileCall) (whole : calls = front ++ rest) (s : State)
    (trace : List (Action × Reply)) (length : trace.length = front.length)
    (start : keeps s trace) (file : File) :
    ∃ t, exec (step program) s (driven one file rest).2 = some t ∧
      t.results = s.results ++ (all answer file rest).2 ∧
      (driven one file rest).1 = (all answer file rest).1 := by
  induction rest generalizing front s trace file with
  | nil => exact ⟨s, rfl, by simp [all], rfl⟩
  | cons fc rest ih =>
      have here : calls[trace.length]? = some fc := by simp [whole, length]
      obtain ⟨t, reply, reached, keeps', seen, left⟩ := single s trace file fc start here
      obtain ⟨r, further, results, files⟩ := ih (front ++ [fc]) (by simp [whole]) t
        (trace ++ [reply]) (by simp [length]) keeps' (one file fc).1
      refine ⟨r, exec_append.mpr ⟨t, reached, further⟩, ?_, ?_⟩
      · rw [results, seen, left]
        simp [all]
      · rw [driven, all, files, left]

end Runs

@[simp] theorem length_all (one : File → FileCall → File × CallResult) (file : File)
    (calls : List FileCall) : (all one file calls).2.length = calls.length := by
  induction calls generalizing file with
  | nil => rfl
  | cons fc rest ih => simp [all, ih]

/-- A sequence of calls on one file, recorded and in passthrough mode: every call returns
in both, and they give the same results and leave the same file exactly if every call is
harmless. -/
theorem recording_keeps_file_iff (kernel : Kernel) (fd signalFd : Int32) (stackSize : Nat)
    (file : File) (calls : List FileCall) :
    ∃ r p,
      exec (step (inSequence (calls.map (call fd)))) (State.recordStart stackSize signalFd)
        (driven (recordOne kernel fd) file calls).2 = some r ∧
      exec (step (inSequence (calls.map (call fd)))) (State.passthroughStart stackSize)
        (driven (passOne kernel) file calls).2 = some p ∧
      r.results.length = calls.length ∧ p.results.length = calls.length ∧
      ((r.results = p.results ∧
          (driven (recordOne kernel fd) file calls).1 = (driven (passOne kernel) file calls).1) ↔
        ∀ fc ∈ calls, fc.Harmless kernel file) := by
  have whole : calls = [] ++ calls := rfl
  obtain ⟨r, recorded, results, left⟩ := driven_run
    (fun _ _ file _ alone here => recordOne_run kernel fd file alone here) [] calls whole
    (State.recordStart stackSize signalFd) [] rfl
    (State.recordStart_alone stackSize signalFd) file
  obtain ⟨p, passed, results', left'⟩ := driven_run
    (fun _ _ file _ passing here => passOne_run kernel fd file passing here) [] calls whole
    (State.passthroughStart stackSize) [] rfl
    ⟨rfl, rfl, rfl, rfl, rfl, _, rfl, rfl, rfl⟩ file
  have none : (State.recordStart stackSize signalFd).results = [] := by
    rw [State.recordStart_eq]
    rfl
  have none' : (State.passthroughStart stackSize).results = [] := rfl
  rw [none, List.nil_append] at results
  rw [none', List.nil_append] at results'
  refine ⟨r, p, recorded, passed, by rw [results, length_all], by rw [results', length_all], ?_⟩
  rw [results, results', left, left', ← all_same_iff, Prod.ext_iff, and_comm]

end FileCall

/-- The limits of Linux on x86-64: a count beyond `TASK_SIZE_MAX` reaches out of the address
space from wherever the object begins. -/
def Kernel.linux : Kernel where
  maxCount := 0x7ffff000
  positive := by decide
  small := by decide
  refuses count := if 2 ^ 47 - 4096 < count then some Errno.EFAULT else none

/-- Two reads of one byte each from a file of two bytes give the first byte twice, and
the file position stays where it was. -/
theorem two_reads_get_one_byte :
    ∃ r p,
      exec (step (inSequence [.read 3 (some [0]) 1, .read 3 (some [0]) 1]))
        (State.recordStart 8192 5) (FileCall.driven (FileCall.recordOne .linux 3) ⟨[97, 98], 0⟩
          [.read [0] 1, .read [0] 1]).2 = some r ∧
      exec (step (inSequence [.read 3 (some [0]) 1, .read 3 (some [0]) 1]))
        (State.passthroughStart 8192) (FileCall.driven (FileCall.passOne .linux) ⟨[97, 98], 0⟩
          [.read [0] 1, .read [0] 1]).2 = some p ∧
      r.results = [⟨1, none, some [97], none⟩, ⟨1, none, some [97], none⟩] ∧
      p.results = [⟨1, none, some [97], none⟩, ⟨1, none, some [98], none⟩] ∧
      (FileCall.driven (FileCall.recordOne .linux 3) ⟨[97, 98], 0⟩
        [.read [0] 1, .read [0] 1]).1.position = 0 ∧
      (FileCall.driven (FileCall.passOne .linux) ⟨[97, 98], 0⟩
        [.read [0] 1, .read [0] 1]).1.position = 2 := by
  have recorded : (exec (step (inSequence [.read 3 (some [0]) 1, .read 3 (some [0]) 1]))
      (State.recordStart 8192 5) (FileCall.driven (FileCall.recordOne .linux 3) ⟨[97, 98], 0⟩
        [.read [0] 1, .read [0] 1]).2).map State.results =
      some [⟨1, none, some [97], none⟩, ⟨1, none, some [97], none⟩] := by decide +kernel
  have passed : (exec (step (inSequence [.read 3 (some [0]) 1, .read 3 (some [0]) 1]))
      (State.passthroughStart 8192) (FileCall.driven (FileCall.passOne .linux) ⟨[97, 98], 0⟩
        [.read [0] 1, .read [0] 1]).2).map State.results =
      some [⟨1, none, some [97], none⟩, ⟨1, none, some [98], none⟩] := by decide +kernel
  obtain ⟨r, reached, results⟩ := Option.map_eq_some_iff.mp recorded
  obtain ⟨p, reached', results'⟩ := Option.map_eq_some_iff.mp passed
  exact ⟨r, p, reached, reached', results, results', by decide +kernel, by decide +kernel⟩

end Librr
