import AutoSerialBridge.Codegen.Target
import AutoSerialBridge.Controller.Frame
import Mathlib

/-!
# Auto Serial Bridge — shutdown

`pending_serial_ops_` counts the reads and writes whose handlers have not run (`OpsCounted`), and the
destructor waits for all of them. The strand runs its tasks in the order they were posted, so when
the destructor's task runs, everything that was posted through `post_serial` before has run; from
`shutting_down_` on nothing is posted that way any more. What may still be posted are the timeouts of
retry timers.

From the destructor's task on (`Drained`) nothing is sent or received, and every event either does
nothing or leaves less to be done (`remaining`).

## Results

* `shutdown_sound` — **the destructor waits for every operation**, and is woken exactly once.
-/

namespace AutoSerialBridge

open Lib

-- ---------------------------------------------------------------------------
-- The machine
-- ---------------------------------------------------------------------------

/-- How far `~SerialController` has come. -/
inductive DestructorPhase where
  | alive
  /-- `shutting_down_` is set and the task is posted. -/
  | shuttingDown
  /-- The task has run. -/
  | drained
deriving DecidableEq, Repr

/-- A controller and its destructor. `signals` counts the calls of `done.set_value()`. -/
structure Shutdown where
  controller : Controller
  phase : DestructorPhase
  signals : Nat

inductive ShutdownEvent where
  | node (event : ControllerEvent)
  /-- `~SerialController` sets `shutting_down_` and posts its task. -/
  | destroy
  /-- The task runs. -/
  | drain

/-- The task is no longer one of those that came in through `post_serial`. -/
def StrandTask.isTimeout : StrandTask → Bool
  | .retryTimeout _ _ => true
  | .serialOpsDrained => true
  | _ => false

namespace Shutdown

variable (p : Protocol) (throws : Nat → Bool)

/-- The event runs the callback of `notify_serial_ops_drained`, which is `done.set_value()`. -/
def runsCallback (s : Controller) : ControllerEvent → Bool
  | .run index _ => s.posted[index]? == some .serialOpsDrained
  | _ => false

/-- The destructor's task. -/
def drain (s : Shutdown) : Shutdown :=
  let controller := Controller.resetSerial p s.controller
  if controller.pendingSerialOps == 0 then
    { controller := controller, phase := .drained, signals := s.signals + 1 }
  else
    { s with
      controller := { controller with pendingSerialDrainCallback := true }
      phase := .drained }

def step (s : Shutdown) (event : ShutdownEvent) : Option Shutdown :=
  match event with
  | .node event =>
    (Controller.step p throws s.controller event).map fun controller =>
      { s with
        controller := controller
        signals := if runsCallback s.controller event then s.signals + 1 else s.signals }
  | .destroy =>
    if s.phase = .alive then
      some { s with
        controller := { s.controller with shuttingDown := true }
        phase := .shuttingDown }
    else none
  | .drain =>
    if s.phase = .shuttingDown ∧ s.controller.posted.all StrandTask.isTimeout then some (drain p s)
    else none

end Shutdown

/-- `SerialController` and its destructor as a machine. -/
def shutdownMachine (p : Protocol) (throws : Nat → Bool) : Machine Shutdown ShutdownEvent where
  initial s := ∃ h, PacketHandler.new p.bufferSize = some h ∧ s = ⟨Controller.new p h, .alive, 0⟩
  step := Shutdown.step p throws

-- ---------------------------------------------------------------------------
-- Pending operations
-- ---------------------------------------------------------------------------

namespace ControllerCore

variable {p : Protocol} {s : ControllerCore}

@[simp] theorem complete_writes (request : Nat) (success : Bool) :
    (complete request success s).writes = s.writes := by
  unfold complete
  split <;> rfl

@[simp] theorem failTxQueue_writes : (failTxQueue s).writes = s.writes :=
  failTxQueue_congr ControllerCore.writes (fun _ _ => complete_writes _ _) (fun _ => rfl) s

@[simp] theorem reject_writes (request : Nat) : (reject request s).writes = s.writes := by
  rw [reject, complete_writes]

@[simp] theorem noteWrite_writes (write : PendingWrite) (result : IoResult) :
    (noteWrite write result s).writes = s.writes := by
  unfold noteWrite
  split_ifs <;> rfl

@[simp] theorem finishWrite_writes (request : Nat) (success : Bool) :
    (finishWrite request success s).writes = s.writes := by
  rw [finishWrite, complete_writes]

@[simp] theorem reset_writes : (reset p s).writes = s.writes := by
  unfold reset
  simp

@[simp] theorem updateAcked_writes (ackedId ackSeq : UInt8) :
    (updateAcked p ackedId ackSeq s).writes = s.writes := by
  unfold updateAcked updateSender
  simp only
  split_ifs <;> rfl

end ControllerCore

theorem SenderOp.writes {p : Protocol} {s core : ControllerCore} {req : Option SendRequest}
    (h : SenderOp p s core req) : core.writes = s.writes := by
  cases h with
  | send => rfl
  | timeout => rfl
  | ack => exact ControllerCore.updateAcked_writes _ _

theorem Offer.writes {p : Protocol} {s core : ControllerCore} {bytes : List UInt8}
    {completion : Option SendCompletion} {origin : Option (UInt8 × Nat)}
    (h : Offer p s core bytes completion origin) : core.writes = s.writes := by
  cases h with
  | plain => rfl
  | reliable h => exact h.writes

namespace Controller

variable {p : Protocol} {ok : Allowed} {throws : Nat → Bool} {s s' : Controller}

/-- The count is right, and nobody waits for it. -/
structure OpsCounted (s : Controller) : Prop where
  counted : s.pendingSerialOps = s.reads.length + s.writes.length
  callback : s.pendingSerialDrainCallback = false
  posted : .serialOpsDrained ∉ s.posted

@[simp] theorem publishReady_ops (ready : Bool) :
    (publishReady ready s).pendingSerialOps = s.pendingSerialOps ∧
      (publishReady ready s).reads = s.reads ∧
      (publishReady ready s).pendingSerialDrainCallback = s.pendingSerialDrainCallback ∧
      (publishReady ready s).posted = s.posted := by
  unfold publishReady
  split_ifs <;> exact ⟨rfl, rfl, rfl, rfl⟩

/-- An operation ends while nobody waits. -/
theorem opsCounted_completeSerialOp
    (hcounted : s.pendingSerialOps = s.reads.length + s.writes.length + 1)
    (hcallback : s.pendingSerialDrainCallback = false) (hposted : .serialOpsDrained ∉ s.posted) :
    OpsCounted (completeSerialOp s) := by
  have hops : completeSerialOp s = { s with pendingSerialOps := s.reads.length + s.writes.length } := by
    unfold completeSerialOp
    simp [hcounted, hcallback]
  rw [hops]
  exact ⟨rfl, hcallback, hposted⟩

/-- A reset leaves the operations alone while nobody waits. -/
theorem resetSerial_of_callback (h : s.pendingSerialDrainCallback = false) :
    (resetSerial p s).pendingSerialOps = s.pendingSerialOps ∧
      (resetSerial p s).reads = s.reads ∧
      (resetSerial p s).pendingSerialDrainCallback = false ∧
      (resetSerial p s).posted = s.posted ∧ (resetSerial p s).shutdownRequested = true := by
  obtain ⟨hops, hreads, hcallback, hposted⟩ := publishReady_ops (s := s) false
  unfold resetSerial
  simp only
  split_ifs with hdrained
  · simp [onCore, h] at hdrained
  · exact ⟨hops, hreads, hcallback.trans h, hposted, rfl⟩

namespace OpsCounted

theorem reset (h : OpsCounted s) : OpsCounted (resetSerial p s) := by
  obtain ⟨hops, hreads, hcallback, hposted, -⟩ := resetSerial_of_callback (p := p) h.callback
  refine ⟨?_, hcallback, hposted ▸ h.posted⟩
  rw [hops, hreads, resetSerial_core, ControllerCore.reset_writes]
  exact h.counted

/-- Work on the core that starts or ends no write. -/
theorem onCore (h : OpsCounted s) {f : ControllerCore → ControllerCore}
    (hf : (f s.toControllerCore).writes = s.writes) : OpsCounted (onCore f s) := by
  refine ⟨?_, h.callback, h.posted⟩
  rw [onCore_core, hf]
  exact h.counted

/-- An operation that is started and fails to start. -/
theorem failedStart (h : OpsCounted s) {f : ControllerCore → ControllerCore}
    (hf : ∀ core, (f core).writes = core.writes) :
    OpsCounted (resetSerial p (completeSerialOp (Controller.onCore f
      { s with pendingSerialOps := s.pendingSerialOps + 1, attempts := s.attempts + 1 }))) := by
  refine reset (opsCounted_completeSerialOp ?_ ?_ ?_)
  · show s.pendingSerialOps + 1 = s.reads.length + (f s.toControllerCore).writes.length + 1
    rw [hf, h.counted]
  · exact h.callback
  · exact h.posted

theorem startNext (h : OpsCounted s) (hnext : StartNext p s s') : OpsCounted s' := by
  cases hnext with
  | idle => exact h
  | gone => exact h.onCore ControllerCore.failTxQueue_writes
  | begin request rest port =>
    refine ⟨?_, h.callback, h.posted⟩
    have hcounted := h.counted
    show s.pendingSerialOps + 1 = s.reads.length + (s.writes ++ [_]).length
    rw [List.length_append, List.length_singleton]
    omega
  | fails => exact h.failedStart fun _ => rfl

theorem readEnds (h : OpsCounted s) {index : Nat} (hindex : index < s.reads.length) :
    OpsCounted (completeSerialOp { s with reads := s.reads.eraseIdx index }) := by
  refine opsCounted_completeSerialOp ?_ ?_ ?_
  · have hcounted := h.counted
    show s.pendingSerialOps = (s.reads.eraseIdx index).length + s.writes.length + 1
    rw [List.length_eraseIdx_of_lt hindex]
    omega
  · exact h.callback
  · exact h.posted

theorem writeEnds (h : OpsCounted s) {index : Nat} {write : PendingWrite}
    (hwrite : s.writes[index]? = some write) (result : IoResult) :
    OpsCounted (endWrite index write result s) := by
  unfold endWrite
  refine onCore (opsCounted_completeSerialOp ?_ ?_ ?_) (ControllerCore.noteWrite_writes _ _)
  · have hcounted := h.counted
    have hindex : index < s.writes.length := (List.getElem?_eq_some_iff.mp hwrite).1
    show s.pendingSerialOps = s.reads.length + (s.writes.eraseIdx index).length + 1
    rw [List.length_eraseIdx_of_lt hindex]
    omega
  · exact h.callback
  · exact h.posted

theorem publishReady (h : OpsCounted s) (ready : Bool) : OpsCounted (publishReady ready s) := by
  obtain ⟨hops, hreads, hcallback, hposted⟩ := publishReady_ops (s := s) ready
  refine ⟨?_, hcallback.trans h.callback, hposted ▸ h.posted⟩
  rw [hops, hreads, publishReady_core]
  exact h.counted

theorem post (h : OpsCounted s) {task : StrandTask} (htask : task ≠ .serialOpsDrained) :
    OpsCounted { s with posted := s.posted ++ [task] } := by
  refine ⟨h.counted, h.callback, fun hmem => ?_⟩
  rcases List.mem_append.mp hmem with hmem | hmem
  · exact h.posted hmem
  · exact htask (List.mem_singleton.mp hmem).symm

/-- **Every read and write that is started is counted until its handler runs.** -/
theorem move (h : OpsCounted s) (hmove : Move p ok s s') : OpsCounted s' := by
  cases hmove with
  | quiet => exact ⟨h.counted, h.callback, h.posted⟩
  | post task _ hpost =>
    unfold postSerial
    split_ifs
    · exact h
    · exact h.post hpost
  | take index => exact ⟨h.counted, h.callback, fun hmem => h.posted (List.mem_of_mem_eraseIdx hmem)⟩
  | expire =>
    refine OpsCounted.post (s := { s with reliableSender := _ }) ?_ nofun
    exact ⟨h.counted, h.callback, h.posted⟩
  | receive => exact ⟨h.counted, h.callback, h.posted⟩
  | echo => exact ⟨h.counted, h.callback, h.posted⟩
  | handshake =>
    refine OpsCounted.publishReady ?_ true
    exact ⟨h.counted, h.callback, h.posted⟩
  | op hop => exact h.onCore (f := fun _ => _) hop.writes
  | rejected hoffer =>
    refine h.onCore (f := fun _ => _) ?_
    rw [ControllerCore.reject_writes]
    exact hoffer.writes
  | accepted hoffer _ _ _ _ hnext =>
    refine startNext ?_ hnext
    exact h.onCore (f := fun _ => _) hoffer.writes
  | readEnds hindex => exact h.readEnds hindex
  | readStarts port =>
    refine ⟨?_, h.callback, h.posted⟩
    have hcounted := h.counted
    show s.pendingSerialOps + 1 = (s.reads ++ [_]).length + s.writes.length
    rw [List.length_append, List.length_singleton]
    omega
  | readFails => exact h.failedStart (f := id) fun _ => rfl
  | writeStale hwrite _ result => exact h.writeEnds hwrite result
  | @writeDone index write _ hwrite _ hnext =>
    have hended := (h.writeEnds hwrite .success).onCore
      (ControllerCore.finishWrite_writes write.request true)
    refine startNext ?_ hnext
    exact ⟨hended.counted, hended.callback, hended.posted⟩
  | writeFails hwrite =>
    exact ((h.writeEnds hwrite .failure).onCore (ControllerCore.finishWrite_writes _ _)).reset
  | writeAborted hwrite =>
    exact (h.writeEnds hwrite .operationAborted).onCore (ControllerCore.finishWrite_writes _ _)
  | reset => exact h.reset
  | heartbeat => exact ⟨h.counted, h.callback, h.posted⟩
  | resend => exact ⟨h.counted, h.callback, h.posted⟩

theorem reconnect (h : OpsCounted s) : OpsCounted (reconnect p s) := by
  have hconnect : OpsCounted { Controller.onCore (ControllerCore.connect p) (resetSerial p s) with
      shutdownRequested := false } := ⟨h.reset.counted, h.reset.callback, h.reset.posted⟩
  unfold Controller.reconnect
  simp only
  split_ifs
  · exact hconnect
  · exact hconnect.publishReady true

end OpsCounted

theorem opsCounted_invariant : ControllerInvariant p ok OpsCounted where
  initial _ _ := ⟨rfl, rfl, nofun⟩
  move h hmove := h.move hmove
  reconnect h _ := h.reconnect

-- ---------------------------------------------------------------------------
-- After the destructor's task
-- ---------------------------------------------------------------------------

theorem Reaches.shuttingDown (h : Reaches p ok s s') : s'.shuttingDown = s.shuttingDown := by
  have hmoves : ∀ {s s'}, Moves p ok s s' → s'.shuttingDown = s.shuttingDown := by
    intro s s' h
    induction h with
    | refl => rfl
    | tail _ hmove ih =>
      rcases hmove.portState with ⟨hport, _⟩ | ⟨hport, _⟩ | ⟨_, _, _, _, hport, _⟩ <;>
        exact (congrArg PortState.shuttingDown hport).trans ih
  rcases h with h | ⟨s₁, h, _, h'⟩
  · exact hmoves h
  · have hreconnect : (reconnect p s₁).shuttingDown = s₁.shuttingDown := by
      rw [reconnect_core]
      exact congrArg PortState.shuttingDown ControllerCore.reset_portState
    exact (hmoves h').trans (hreconnect.trans (hmoves h))

/-- Nothing is connected, nothing waits for an Ack, and only timeouts are posted. -/
structure Drained (s : Controller) : Prop where
  shuttingDown : s.shuttingDown = true
  shutdownRequested : s.shutdownRequested = true
  isConnected : s.isConnected = false
  serialPort : s.serialPort = none
  pending : s.reliableSender.pending = fun _ => []
  posted : ∀ task ∈ s.posted, task.isTimeout = true

/-- What can still happen: nothing, a timeout that is too late, or the end of an operation. -/
inductive DrainedStep (s : Controller) : ControllerEvent → Controller → Prop where
  | nothing (event : ControllerEvent) (hevent : ∀ index now, event ≠ .run index now) :
    DrainedStep s event s
  | run {index : Nat} (now : Int) (hindex : index < s.posted.length) :
    DrainedStep s (.run index now) { s with posted := s.posted.eraseIdx index }
  | readDone {index : Nat} (result : IoResult) (data : List UInt8) (hindex : index < s.reads.length) :
    DrainedStep s (.readDone index result data)
      (completeSerialOp { s with reads := s.reads.eraseIdx index })
  | writeDone {index : Nat} {write : PendingWrite} (result : IoResult)
      (hwrite : s.writes[index]? = some write) :
    DrainedStep s (.writeDone index result) (endWrite index write result s)

/-- A timeout finds no entry. -/
theorem Drained.runTask (h : Drained s) {task : StrandTask} (htask : task.isTimeout = true)
    (now : Int) : runTask p throws task now s = s := by
  cases task with
  | retryTimeout key seq =>
    have hnone : ReliableSender.handleRetryTimeout p s.reliableSender key seq =
        (s.reliableSender, none) := by
      unfold ReliableSender.handleRetryTimeout
      rw [h.pending]
    show senderRetryTimeout p throws key seq s = s
    unfold senderRetryTimeout
    rw [hnone]
    rfl
  | serialOpsDrained => rfl
  | _ => cases htask

/-- Without a port no handler belongs to the current connection. -/
theorem Drained.isCurrent (h : Drained s) (port : Nat) (generation : UInt64) :
    s.isCurrent port generation = false := by
  unfold ControllerCore.isCurrent
  rw [h.serialPort]
  simp

/-- The reset of the destructor clears the reliable sender, and no completion fills it again. -/
theorem reset_pending {core : ControllerCore} (h : core.shuttingDown = true) :
    (core.reset p).reliableSender.pending = fun _ => [] := by
  unfold ControllerCore.reset
  simp only [h, if_true]
  refine ControllerCore.failTxQueue_keeps (I := fun s => s.reliableSender.pending = fun _ => [])
    (fun request s hs => ?_) (fun _ hs => hs) rfl
  unfold ControllerCore.complete
  split
  · unfold ReliableSender.handleSendCompletion
    simp only [hs]
  · exact hs

theorem Drained.step (h : Drained s) {event : ControllerEvent}
    (hstep : step p throws s event = some s') : DrainedStep s event s' := by
  have hpost : ∀ task, postSerial task s = s := fun task => by
    unfold postSerial
    rw [if_pos h.shuttingDown]
  unfold Controller.step at hstep
  cases event with
  | connectionTimer =>
    obtain rfl := Option.some.inj hstep
    rw [hpost]
    exact .nothing _ nofun
  | heartbeatTimer =>
    obtain rfl := Option.some.inj hstep
    rw [hpost]
    exact .nothing _ nofun
  | sendPacket id data =>
    obtain rfl := Option.some.inj hstep
    rw [Controller.sendPacket, hpost]
    exact .nothing _ nofun
  | reliableSend id data =>
    obtain rfl := Option.some.inj hstep
    rw [Controller.reliableSend, hpost]
    exact .nothing _ nofun
  | retryTimer key index =>
    simp [ReliableSender.expire, h.pending] at hstep
  | run index now =>
    simp only at hstep
    split at hstep
    · next task htask =>
      obtain rfl := Option.some.inj hstep
      have hdrained : Drained { s with posted := s.posted.eraseIdx index } :=
        ⟨h.shuttingDown, h.shutdownRequested, h.isConnected, h.serialPort, h.pending,
          fun task htask => h.posted task (List.mem_of_mem_eraseIdx htask)⟩
      rw [hdrained.runTask (h.posted task (List.mem_of_getElem? htask))]
      exact .run now (List.getElem?_eq_some_iff.mp htask).1
    · cases hstep
  | readDone index result data =>
    simp only at hstep
    split at hstep
    · next read hread =>
      split_ifs at hstep
      obtain rfl := Option.some.inj hstep
      unfold handleReceive
      simp only [completeSerialOp_core]
      rw [if_pos (h.isCurrent _ _)]
      exact .readDone result data (List.getElem?_eq_some_iff.mp hread).1
    · cases hstep
  | writeDone index result =>
    simp only at hstep
    split at hstep
    · next write hwrite =>
      obtain rfl := Option.some.inj hstep
      have hstale : (endWrite index write result s).isCurrent write.port write.generation = false := by
        unfold ControllerCore.isCurrent
        have hport : (endWrite index write result s).portState = s.portState := by
          rw [endWrite_core, ControllerCore.noteWrite_portState]
          rfl
        rw [show (endWrite index write result s).serialPort = none from
          (congrArg PortState.serialPort hport).trans h.serialPort]
        simp
      show DrainedStep s _ (if (endWrite index write result s).isCurrent write.port
        write.generation = false then endWrite index write result s else _)
      rw [if_pos hstale]
      exact .writeDone result hwrite
    · cases hstep

/-- What is left to be done. -/
def remaining (s : Controller) : Nat := 2 * (s.reads.length + s.writes.length) + s.posted.length

/-- The destructor's task has run. While an operation is outstanding the callback is set; then it is
posted; then the signal is given. -/
structure Awaited (s : Controller) (signals : Nat) : Prop where
  drained : Drained s
  counted : s.pendingSerialOps = s.reads.length + s.writes.length
  callback : s.pendingSerialDrainCallback = true ∧ s.pendingSerialOps ≠ 0 ∧
      signals + s.posted.count .serialOpsDrained = 0 ∨
    s.pendingSerialDrainCallback = false ∧ s.pendingSerialOps = 0 ∧
      signals + s.posted.count .serialOpsDrained = 1

namespace Awaited

variable {signals : Nat}

/-- An operation ends: the callback is posted behind the last one. -/
theorem completeSerialOp (hdrained : Drained s)
    (hcounted : s.pendingSerialOps = s.reads.length + s.writes.length + 1)
    (hcallback : s.pendingSerialDrainCallback = true)
    (hsignals : signals + s.posted.count .serialOpsDrained = 0) :
    Awaited (completeSerialOp s) signals ∧
      (completeSerialOp s).reads = s.reads ∧ (completeSerialOp s).writes = s.writes ∧
      (completeSerialOp s).posted.length ≤ s.posted.length + 1 := by
  obtain ⟨hshutting, hrequested, hconn, hport, hpending, hposted⟩ := hdrained
  by_cases hlast : s.reads.length + s.writes.length = 0
  · have hops : Controller.completeSerialOp s = { s with
        pendingSerialOps := 0
        pendingSerialDrainCallback := false
        posted := s.posted ++ [.serialOpsDrained] } := by
      unfold Controller.completeSerialOp notifySerialOpsDrained
      simp [hcounted, hlast, hcallback, hrequested]
    rw [hops]
    refine ⟨⟨⟨hshutting, hrequested, hconn, hport, hpending, fun task htask => ?_⟩, hlast.symm,
      .inr ⟨rfl, rfl, ?_⟩⟩, rfl, rfl, ?_⟩
    · rcases List.mem_append.mp htask with htask | htask
      · exact hposted task htask
      · rw [List.mem_singleton.mp htask]
        rfl
    · rw [List.count_append, List.count_singleton_self]
      omega
    · simp
  · have hops : Controller.completeSerialOp s =
        { s with pendingSerialOps := s.reads.length + s.writes.length } := by
      have hnotlast : (s.reads.length + s.writes.length == 0) = false := by simpa using hlast
      unfold Controller.completeSerialOp
      simp only [hcounted, Nat.succ_pos, if_true, Nat.add_sub_cancel, hnotlast, Bool.and_false,
        Bool.false_and, Bool.false_eq_true, if_false]
    rw [hops]
    exact ⟨⟨⟨hshutting, hrequested, hconn, hport, hpending, hposted⟩, rfl,
      .inl ⟨hcallback, hlast, hsignals⟩⟩, rfl, rfl, Nat.le_succ _⟩

/-- An operation is outstanding: the callback is set. -/
theorem outstanding (h : Awaited s signals) (hops : 0 < s.reads.length + s.writes.length) :
    s.pendingSerialDrainCallback = true ∧ signals + s.posted.count .serialOpsDrained = 0 := by
  have hcounted := h.counted
  rcases h.callback with ⟨hcallback, _, hsignals⟩ | ⟨_, hzero, _⟩
  · exact ⟨hcallback, hsignals⟩
  · omega

theorem noteWrite (h : Awaited s signals) (write : PendingWrite) (result : IoResult) :
    Awaited (onCore (ControllerCore.noteWrite write result) s) signals := by
  obtain ⟨⟨hshutting, hrequested, hconn, hport, hpending, hposted⟩, hcounted, hcallback⟩ := h
  unfold onCore ControllerCore.noteWrite
  split_ifs <;>
    exact ⟨⟨hshutting, hrequested, hconn, hport, hpending, hposted⟩, hcounted, hcallback⟩

/-- A posted task is taken, and the signal is given if it is the callback. -/
theorem run (h : Awaited s signals) {index : Nat} (now : Int) (hindex : index < s.posted.length) :
    Awaited { s with posted := s.posted.eraseIdx index }
      (if Shutdown.runsCallback s (.run index now) then signals + 1 else signals) := by
  obtain ⟨⟨hshutting, hrequested, hconn, hport, hpending, hposted⟩, hcounted, hcallback⟩ := h
  have hruns : Shutdown.runsCallback s (.run index now) =
      (s.posted[index] == .serialOpsDrained) := by
    simp [Shutdown.runsCallback, hindex]
  have hcount : s.posted.count .serialOpsDrained = (s.posted.eraseIdx index).count .serialOpsDrained +
      if s.posted[index] == .serialOpsDrained then 1 else 0 := by
    rw [← List.count_cons]
    exact (List.getElem_cons_eraseIdx_perm hindex).count_eq _ |>.symm
  refine ⟨⟨hshutting, hrequested, hconn, hport, hpending,
    fun task htask => hposted task (List.mem_of_mem_eraseIdx htask)⟩, hcounted, ?_⟩
  rw [hruns]
  refine hcallback.imp (fun hcb => ⟨hcb.1, hcb.2.1, ?_⟩) (fun hcb => ⟨hcb.1, hcb.2.1, ?_⟩)
  · have hsignals := hcb.2.2
    simp only
    split_ifs at hcount ⊢ <;> omega
  · have hsignals := hcb.2.2
    simp only
    split_ifs at hcount ⊢ <;> omega

/-- **One event after the destructor's task**: nothing changes, or less is left to be done. -/
theorem step (h : Awaited s signals) {event : ControllerEvent} (hstep : DrainedStep s event s') :
    Awaited s' (if Shutdown.runsCallback s event then signals + 1 else signals) ∧
      s'.reads.Sublist s.reads ∧ s'.writes.Sublist s.writes ∧
      (s' = s ∧ Shutdown.runsCallback s event = false ∨ remaining s' < remaining s) := by
  cases hstep with
  | nothing _ hevent =>
    have hruns : Shutdown.runsCallback s event = false := by
      cases event with
      | run index now => exact absurd rfl (hevent index now)
      | _ => rfl
    rw [hruns]
    exact ⟨h, .refl _, .refl _, .inl ⟨rfl, rfl⟩⟩
  | @run index now hindex =>
    refine ⟨h.run now hindex, .refl _, .refl _, .inr ?_⟩
    simp only [remaining, List.length_eraseIdx_of_lt hindex]
    omega
  | @readDone index result data hindex =>
    have hlength := List.length_eraseIdx_of_lt hindex
    obtain ⟨hcallback, hsignals⟩ := h.outstanding (by omega)
    have hcounted := h.counted
    have hdrained : Drained { s with reads := s.reads.eraseIdx index } :=
      ⟨h.drained.shuttingDown, h.drained.shutdownRequested, h.drained.isConnected,
        h.drained.serialPort, h.drained.pending, h.drained.posted⟩
    obtain ⟨hawaited, hreads, hwrites, hposted⟩ :=
      completeSerialOp hdrained (by simp only; omega) hcallback hsignals
    refine ⟨hawaited, ?_, ?_, .inr ?_⟩
    · rw [hreads]
      exact List.eraseIdx_sublist _ _
    · rw [hwrites]
    · simp only [remaining, hreads, hwrites]
      simp only at hposted
      omega
  | @writeDone index write result hwrite =>
    have hindex : index < s.writes.length := (List.getElem?_eq_some_iff.mp hwrite).1
    have hlength := List.length_eraseIdx_of_lt hindex
    obtain ⟨hcallback, hsignals⟩ := h.outstanding (by omega)
    have hcounted := h.counted
    have hdrained : Drained { s with writes := s.writes.eraseIdx index } :=
      ⟨h.drained.shuttingDown, h.drained.shutdownRequested, h.drained.isConnected,
        h.drained.serialPort, h.drained.pending, h.drained.posted⟩
    obtain ⟨hawaited, hreads, hwrites, hposted⟩ :=
      completeSerialOp hdrained (by simp only; omega) hcallback hsignals
    have hwrites' : (endWrite index write result s).writes = s.writes.eraseIdx index := by
      rw [endWrite_core, ControllerCore.noteWrite_writes]
    refine ⟨hawaited.noteWrite write result, ?_, ?_, .inr ?_⟩
    · show (Controller.completeSerialOp _).reads.Sublist _
      rw [hreads]
    · rw [hwrites']
      exact List.eraseIdx_sublist _ _
    · have hreads' : (endWrite index write result s).reads = s.reads := hreads
      have hposted' : (endWrite index write result s).posted.length ≤ s.posted.length + 1 := hposted
      simp only [remaining, hreads', hwrites']
      omega

end Awaited

/-- The destructor's task: either nothing is outstanding and the signal is given, or the callback
is set. -/
theorem awaited_drain (h : OpsCounted s) (hshutting : s.shuttingDown = true)
    (hposted : s.posted.all StrandTask.isTimeout = true) (phase : DestructorPhase) :
    Awaited (Shutdown.drain p ⟨s, phase, 0⟩).controller (Shutdown.drain p ⟨s, phase, 0⟩).signals := by
  obtain ⟨hops, hreads, hcallback, hposted', hrequested⟩ :=
    resetSerial_of_callback (p := p) h.callback
  have hreset := h.reset (p := p)
  have hport : (resetSerial p s).portState = s.portState.reset p := by simp
  have hdrained : Drained (resetSerial p s) := by
    refine ⟨(congrArg PortState.shuttingDown hport).trans hshutting, hrequested,
      congrArg PortState.isConnected hport, congrArg PortState.serialPort hport, ?_, ?_⟩
    · rw [resetSerial_core]
      exact reset_pending hshutting
    · rw [hposted']
      exact List.all_eq_true.mp hposted
  have hcount : (resetSerial p s).posted.count .serialOpsDrained = 0 :=
    List.count_eq_zero.mpr hreset.posted
  unfold Shutdown.drain
  simp only
  split_ifs with hzero
  · exact ⟨hdrained, hreset.counted, .inr ⟨hcallback, beq_iff_eq.mp hzero, by simp only; omega⟩⟩
  · refine ⟨⟨hdrained.shuttingDown, hdrained.shutdownRequested, hdrained.isConnected,
      hdrained.serialPort, hdrained.pending, hdrained.posted⟩, hreset.counted, .inl ⟨rfl, ?_, ?_⟩⟩
    · simpa using hzero
    · simp only
      omega

end Controller

-- ---------------------------------------------------------------------------
-- The result
-- ---------------------------------------------------------------------------

variable {p : Protocol} {throws : Nat → Bool} {s s' : Shutdown}

open Controller

/-- Before the destructor's task the operations are counted; from then on they are waited for. -/
structure ShutdownInv (p : Protocol) (s : Shutdown) : Prop where
  before : s.phase ≠ .drained → OpsCounted s.controller ∧ PostedPacked p s.controller ∧ s.signals = 0
  shutting : s.phase = .shuttingDown → s.controller.shuttingDown = true
  after : s.phase = .drained → Awaited s.controller s.signals

theorem ShutdownInv.step (h : ShutdownInv p s) {event : ShutdownEvent}
    (hstep : Shutdown.step p throws s event = some s') : ShutdownInv p s' := by
  unfold Shutdown.step at hstep
  cases event with
  | node event =>
    obtain ⟨controller, hcontroller, rfl⟩ := Option.map_eq_some_iff.mp hstep
    by_cases hphase : s.phase = .drained
    · have hawaited := h.after hphase
      exact ⟨fun hne => absurd hphase hne, fun hshut => by simp [hphase] at hshut,
        fun _ => (hawaited.step (hawaited.drained.step hcontroller)).1⟩
    · obtain ⟨hcounted, hpacked, hsignals⟩ := h.before hphase
      have hreaches := step_reaches hpacked (permitted_all _ _) hcontroller
      have hruns : Shutdown.runsCallback s.controller event = false := by
        cases event with
        | run index now =>
          refine Bool.eq_false_iff.mpr fun hruns => hcounted.posted ?_
          exact List.mem_of_getElem? (beq_iff_eq.mp hruns)
        | _ => rfl
      refine ⟨fun _ => ⟨opsCounted_invariant.reaches hcounted hreaches,
        postedPacked_invariant.reaches hpacked hreaches, ?_⟩,
        fun hshut => hreaches.shuttingDown.trans (h.shutting hshut), fun hdrained => absurd hdrained hphase⟩
      rw [hruns]
      exact hsignals
  | destroy =>
    simp only at hstep
    split_ifs at hstep with hphase
    obtain rfl := Option.some.inj hstep
    obtain ⟨hcounted, hpacked, hsignals⟩ := h.before (by rw [hphase]; nofun)
    exact ⟨fun _ => ⟨⟨hcounted.counted, hcounted.callback, hcounted.posted⟩, hpacked, hsignals⟩,
      fun _ => rfl, nofun⟩
  | drain =>
    simp only at hstep
    split_ifs at hstep with hphase
    obtain rfl := Option.some.inj hstep
    obtain ⟨hcounted, -, hsignals⟩ := h.before (by rw [hphase.1]; nofun)
    obtain ⟨controller, phase, signals⟩ := s
    obtain rfl : signals = 0 := hsignals
    have hdrained : (Shutdown.drain p ⟨controller, phase, 0⟩).phase = .drained := by
      unfold Shutdown.drain
      simp only
      split_ifs <;> rfl
    exact ⟨fun hne => absurd hdrained hne, fun hshut => by simp [hdrained] at hshut,
      fun _ => awaited_drain hcounted (h.shutting hphase.1) hphase.2 phase⟩

/-- What is claimed of a state. -/
structure ShutdownSound (p : Protocol) (throws : Nat → Bool) (s : Shutdown) : Prop where
  /-- The count is that of the handlers that have not run. -/
  counted : s.controller.pendingSerialOps =
    s.controller.reads.length + s.controller.writes.length
  /-- The signal comes at most once, and when every handler has run. -/
  once : s.signals ≤ 1
  last : 0 < s.signals →
    s.phase = .drained ∧ s.controller.reads = [] ∧ s.controller.writes = []
  /-- After the task no operation is started, and an event that does anything leaves less to do. -/
  ends : s.phase = .drained → ∀ event s', Shutdown.step p throws s event = some s' →
    s'.controller.reads.Sublist s.controller.reads ∧
      s'.controller.writes.Sublist s.controller.writes ∧
      (s' = s ∨ remaining s'.controller < remaining s.controller)
  /-- When the handlers and the callback have run, the signal has come. -/
  woken : s.phase = .drained → s.controller.reads = [] → s.controller.writes = [] →
    .serialOpsDrained ∉ s.controller.posted → s.signals = 1

theorem ShutdownInv.sound (h : ShutdownInv p s) : ShutdownSound p throws s := by
  by_cases hphase : s.phase = .drained
  · have hawaited := h.after hphase
    have hcounted := hawaited.counted
    refine ⟨hcounted, ?_, fun hsignals => ?_, fun _ event s' hstep => ?_, fun _ hreads hwrites hposted => ?_⟩
    · rcases hawaited.callback with ⟨-, -, hsum⟩ | ⟨-, -, hsum⟩ <;> omega
    · rcases hawaited.callback with ⟨-, -, hsum⟩ | ⟨-, hzero, -⟩
      · omega
      · rw [hcounted] at hzero
        exact ⟨hphase, List.length_eq_zero_iff.mp (by omega), List.length_eq_zero_iff.mp (by omega)⟩
    · unfold Shutdown.step at hstep
      cases event with
      | node event =>
        obtain ⟨controller, hcontroller, rfl⟩ := Option.map_eq_some_iff.mp hstep
        obtain ⟨-, hreads, hwrites, hends⟩ := hawaited.step (hawaited.drained.step hcontroller)
        refine ⟨hreads, hwrites, hends.imp_left ?_⟩
        rintro ⟨rfl, hruns⟩
        rw [hruns]
        rfl
      | destroy => simp [hphase] at hstep
      | drain => simp [hphase] at hstep
    · have hcount := List.count_eq_zero.mpr hposted
      rw [hreads, hwrites] at hcounted
      rcases hawaited.callback with ⟨-, hne, -⟩ | ⟨-, -, hsum⟩
      · exact absurd hcounted hne
      · omega
  · obtain ⟨hcounted, -, hsignals⟩ := h.before hphase
    exact ⟨hcounted.counted, by omega, fun hpos => by omega, fun h => absurd h hphase,
      fun h => absurd h hphase⟩

/-- **Shutdown waits for every serial operation.** -/
theorem shutdown_sound (h : (shutdownMachine p throws).Reachable s) : ShutdownSound p throws s := by
  refine ShutdownInv.sound (h.invariant (I := ShutdownInv p) ?_ fun s event s' hs hstep => hs.step hstep)
  rintro _ ⟨handler, -, rfl⟩
  exact ⟨fun _ => ⟨⟨rfl, rfl, nofun⟩, nofun, rfl⟩, nofun, nofun⟩

/-- The node is destroyed while a read and a write are outstanding. -/
def shutdownEvents : List ShutdownEvent :=
  [.node .connectionTimer, .node (.run 0 0), .node (.run 0 0), .destroy, .drain,
    .node (.writeDone 0 .operationAborted), .node (.readDone 0 .operationAborted []), .node (.run 0 0)]

theorem shutdown_sound_demo :
    ∃ s, (PacketHandler.new demoProtocol.bufferSize).bind (fun h =>
        (shutdownMachine demoProtocol fun _ => false).run ⟨Controller.new demoProtocol h, .alive, 0⟩
          shutdownEvents) = some s ∧
      s.signals = 1 ∧ ShutdownSound demoProtocol (fun _ => false) s := by
  have hrun : ((PacketHandler.new demoProtocol.bufferSize).bind (fun h =>
      (shutdownMachine demoProtocol fun _ => false).run ⟨Controller.new demoProtocol h, .alive, 0⟩
        shutdownEvents)).map (·.signals) = some 1 := by decide +kernel
  obtain ⟨s, hs, hsignals⟩ := Option.map_eq_some_iff.mp hrun
  obtain ⟨handler, hnew, hreach⟩ := Option.bind_eq_some_iff.mp hs
  exact ⟨s, hs, hsignals,
    shutdown_sound (Machine.Reachable.of_run (.initial ⟨handler, hnew, rfl⟩) hreach)⟩

end AutoSerialBridge
