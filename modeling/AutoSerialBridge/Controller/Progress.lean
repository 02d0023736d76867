import AutoSerialBridge.Controller.Sending
import AutoSerialBridge.Reliable.Progress

/-!
# Auto Serial Bridge — no message is stranded in the node

`Reliable/Progress.lean` is about a sender with any `send_callback_` that invokes every completion
once. Here the sender stands in `SerialController`: its completions are in `tx_queue_`, and a retry
timeout that has expired is a task of the strand.

A task that is taken may be the timeout a message waits for, and then its own handler wakes the
message (`awake_senderRetryTimeout`). Within one task no other task is taken (`withinTask`), so every
move keeps the messages awake.

## Results

* `Controller.Awake.step` — every event keeps the messages awake.
* `sender_contract` — the node keeps the contract of `send_callback_`.
* `node_progress` — **every message is being written, or its retry timeout is armed or posted**.
-/

namespace AutoSerialBridge

open Lib

/-- The front entry of every queue is awake, with these retry timeouts posted. -/
def ReliableSender.Awake (timeouts : List (UInt8 × UInt8)) (s : ReliableSender) : Prop :=
  ∀ key, Woken key (s.pending key) timeouts

theorem ReliableSender.Awake.mono {timeouts timeouts' : List (UInt8 × UInt8)} {s : ReliableSender}
    (h : s.Awake timeouts) (hsub : timeouts ⊆ timeouts') : s.Awake timeouts' :=
  fun key => (h key).mono fun _ hx _ => hsub hx

/-- The id and the seq of a retry timeout. -/
def StrandTask.timeout? : StrandTask → Option (UInt8 × UInt8)
  | .retryTimeout key seq => some (key, seq)
  | _ => none

/-- The retry timeouts that are posted. -/
def retryTimeouts (posted : List StrandTask) : List (UInt8 × UInt8) :=
  posted.filterMap StrandTask.timeout?

theorem mem_retryTimeouts {posted : List StrandTask} {key seq : UInt8} :
    (key, seq) ∈ retryTimeouts posted ↔ .retryTimeout key seq ∈ posted := by
  unfold retryTimeouts
  rw [List.mem_filterMap]
  constructor
  · rintro ⟨task, htask, heq⟩
    cases task with
    | retryTimeout key' seq' =>
      obtain ⟨rfl, rfl⟩ := Prod.mk.inj (Option.some.inj heq)
      exact htask
    | _ => cases heq
  · exact fun h => ⟨_, h, rfl⟩

theorem retryTimeouts_subset {posted posted' : List StrandTask} (h : posted <+: posted') :
    retryTimeouts posted ⊆ retryTimeouts posted' :=
  fun _ hx => (h.sublist.filterMap _).mem hx

/-- The timeouts before a task is taken. -/
theorem retryTimeouts_perm {posted : List StrandTask} {index : Nat} {task : StrandTask}
    (h : posted[index]? = some task) :
    (task.timeout?.toList ++ retryTimeouts (posted.eraseIdx index)).Perm (retryTimeouts posted) := by
  obtain ⟨hindex, rfl⟩ := List.getElem?_eq_some_iff.mp h
  have hperm := (List.getElem_cons_eraseIdx_perm hindex).filterMap StrandTask.timeout?
  rw [List.filterMap_cons] at hperm
  cases htimeout : posted[index].timeout? with
  | none =>
    rw [htimeout] at hperm
    exact hperm
  | some x =>
    rw [htimeout] at hperm
    exact hperm

-- ---------------------------------------------------------------------------
-- The core
-- ---------------------------------------------------------------------------

section Core

open ControllerCore

variable {p : Protocol} {s s' core : ControllerCore} {ok : Controller.Allowed}
  {timeouts : List (UInt8 × UInt8)}

theorem awake_complete (h : s.reliableSender.Awake timeouts) (request : Nat) (success : Bool) :
    (complete request success s).reliableSender.Awake timeouts := by
  unfold complete
  split
  · exact woken_handleSendCompletion h success
  · exact h

theorem awake_failTxQueue (h : s.reliableSender.Awake timeouts) :
    (failTxQueue s).reliableSender.Awake timeouts := by
  have hall : ∀ (queue : List Nat) (s : ControllerCore), s.reliableSender.Awake timeouts →
      (queue.foldl (fun s request => complete request false s) s).reliableSender.Awake timeouts := by
    intro queue
    induction queue with
    | nil => exact fun _ h => h
    | cons request queue ih => exact fun s h => ih _ (awake_complete h request false)
  exact hall s.txQueue s h

theorem awake_reset (h : s.reliableSender.Awake timeouts) :
    (reset p s).reliableSender.Awake timeouts := by
  refine awake_failTxQueue (s := { s with
    isConnected := false
    connectionGeneration := s.connectionGeneration + 1
    reliableSender :=
      if s.shuttingDown then s.reliableSender.clearAllImpl else s.reliableSender }) ?_
  show ReliableSender.Awake timeouts (if s.shuttingDown then _ else _)
  split_ifs
  · exact fun _ => Woken.nil
  · exact h

theorem awake_finishWrite (h : s.reliableSender.Awake timeouts) (request : Nat) (success : Bool) :
    (finishWrite request success s).reliableSender.Awake timeouts :=
  awake_complete (s := { s with
    txWriteInProgress := false
    txQueue := if s.txQueue.head? = some request then s.txQueue.tail else s.txQueue }) h request
    success

theorem awake_noteWrite (h : s.reliableSender.Awake timeouts) (write : PendingWrite)
    (result : IoResult) : (noteWrite write result s).reliableSender.Awake timeouts := by
  rw [noteWrite_sender]
  exact h

theorem awake_startsNext (h : s.reliableSender.Awake timeouts) (hnext : StartsNext p s s') :
    s'.reliableSender.Awake timeouts := by
  cases hnext with
  | idle => exact h
  | gone => exact awake_failTxQueue h
  | begin => exact h
  | fails =>
    refine awake_reset ?_
    exact h

theorem awake_reject (h : s.reliableSender.Awake timeouts) (bytes : List UInt8)
    (completion : Option SendCompletion) (origin : Option (UInt8 × Nat)) (request : Nat) :
    ((s.submit bytes completion origin).reject request).reliableSender.Awake timeouts := by
  refine awake_complete ?_ request false
  exact h

/-- A handler of the sender that wakes what it is called for. A retry timeout may run although it was
not posted; it wakes nothing then. -/
theorem SenderOp.awake {req : Option SendRequest} (hop : SenderOp p s core req)
    (h : s.reliableSender.Awake timeouts) : core.reliableSender.Awake timeouts := by
  cases hop with
  | send id data => exact woken_sendImpl h id _
  | timeout key seq =>
    have hwoken : ReliableSender.Awake (timeouts.erase (key, seq))
      (ReliableSender.handleRetryTimeout p s.reliableSender key seq).1 := woken_handleRetryTimeout h
    exact hwoken.mono List.erase_subset
  | ack ackedId ackSeq => exact woken_onAckReceivedImpl h

theorem Offer.awake {bytes : List UInt8} {completion : Option SendCompletion}
    {origin : Option (UInt8 × Nat)} (hoffer : Offer p s core bytes completion origin)
    (h : s.reliableSender.Awake timeouts) : core.reliableSender.Awake timeouts := by
  cases hoffer with
  | plain => exact h
  | reliable hop => exact hop.awake h

/-- **Every move within a task** keeps the messages awake. -/
theorem ControllerCore.CoreMove.awake (hmove : CoreMove p ok s s') (hok : ¬ ok.turn)
    (h : s.reliableSender.Awake timeouts) : s'.reliableSender.Awake timeouts := by
  cases hmove with
  | same => exact h
  | note => exact h
  | handshake => exact h
  | expire _ hturn => exact absurd hturn hok
  | op hop => exact hop.awake h
  | rejected hoffer => exact awake_reject (hoffer.awake h) _ _ _ _
  | accepted hoffer _ _ _ _ hnext =>
    refine awake_startsNext ?_ hnext
    exact hoffer.awake h
  | writeStale _ _ result =>
    refine awake_noteWrite ?_ _ result
    exact h
  | writeDone _ _ hnext =>
    refine awake_startsNext (awake_finishWrite (awake_noteWrite ?_ _ _) _ _) hnext
    exact h
  | writeFails =>
    refine awake_reset (awake_finishWrite ?_ _ _)
    exact h
  | writeAborted =>
    refine awake_finishWrite ?_ _ _
    exact h
  | reset => exact awake_reset h

end Core

-- ---------------------------------------------------------------------------
-- Posted tasks
-- ---------------------------------------------------------------------------

namespace Controller

open Relation

variable {p : Protocol} {ok : Allowed} {throws : Nat → Bool} {s s' : Controller}
  {timeouts : List (UInt8 × UInt8)}

theorem notifySerialOpsDrained_posted (s : Controller) :
    s.posted <+: (notifySerialOpsDrained s).posted := by
  unfold notifySerialOpsDrained
  split_ifs
  · exact List.prefix_append ..
  · exact List.prefix_rfl

theorem completeSerialOp_posted (s : Controller) : s.posted <+: (completeSerialOp s).posted := by
  unfold completeSerialOp
  simp only
  split_ifs
  · exact notifySerialOpsDrained_posted { s with pendingSerialOps := s.pendingSerialOps - 1 }
  · exact List.prefix_rfl
  · exact notifySerialOpsDrained_posted s
  · exact List.prefix_rfl

theorem publishReady_posted (ready : Bool) (s : Controller) :
    (publishReady ready s).posted = s.posted := by
  unfold publishReady
  split_ifs <;> rfl

theorem resetSerial_posted (s : Controller) : s.posted <+: (resetSerial p s).posted := by
  have hready := publishReady_posted false s
  unfold resetSerial
  simp only
  split_ifs
  · rw [← hready]
    exact notifySerialOpsDrained_posted { onCore (ControllerCore.reset p) (publishReady false s) with
      shutdownRequested := true
      packetHandler := (publishReady false s).packetHandler.reset
      heartbeatCount := 0
      lastHeartbeatTxCount := 0
      awaitingHeartbeatAck := false }
  · rw [← hready]
    exact List.prefix_rfl

theorem reconnect_posted (s : Controller) : s.posted <+: (reconnect p s).posted := by
  unfold reconnect
  simp only
  split_ifs
  · exact resetSerial_posted s
  · rw [publishReady_posted]
    exact resetSerial_posted s

theorem StartNext.posted (hnext : StartNext p s s') : s.posted <+: s'.posted := by
  cases hnext with
  | idle => exact List.prefix_rfl
  | gone => exact List.prefix_rfl
  | begin => exact List.prefix_rfl
  | fails request _ port =>
    exact (completeSerialOp_posted (onCore (ControllerCore.handOver request port.id)
      { s with pendingSerialOps := s.pendingSerialOps + 1, attempts := s.attempts + 1 })).trans
      (resetSerial_posted _)

theorem endWrite_posted (index : Nat) (write : PendingWrite) (result : IoResult) (s : Controller) :
    s.posted <+: (endWrite index write result s).posted :=
  completeSerialOp_posted { s with writes := s.writes.eraseIdx index }

/-- Within a task, tasks are only posted. -/
theorem Move.posted (hmove : Move p ok s s') (hok : ¬ ok.turn) : s.posted <+: s'.posted := by
  cases hmove with
  | post task _ _ =>
    unfold postSerial
    split_ifs
    · exact List.prefix_rfl
    · exact List.prefix_append ..
  | take _ hturn => exact absurd hturn hok
  | expire _ hturn => exact absurd hturn hok
  | handshake =>
    rw [acceptHandshake, publishReady_posted]
    exact List.prefix_rfl
  | accepted _ _ _ _ _ hnext =>
    have hposted := hnext.posted
    exact hposted
  | @readEnds index => exact completeSerialOp_posted { s with reads := s.reads.eraseIdx index }
  | readFails =>
    exact (completeSerialOp_posted { s with
      pendingSerialOps := s.pendingSerialOps + 1, attempts := s.attempts + 1 }).trans
      (resetSerial_posted _)
  | @writeStale index write _ _ result => exact endWrite_posted index write result s
  | @writeDone index write _ _ _ hnext =>
    exact (endWrite_posted index write .success s).trans hnext.posted
  | @writeFails index write =>
    exact (endWrite_posted index write .failure s).trans (resetSerial_posted
      (onCore (ControllerCore.finishWrite write.request false) (endWrite index write .failure s)))
  | @writeAborted index write => exact endWrite_posted index write .operationAborted s
  | reset => exact resetSerial_posted s
  | _ => exact List.prefix_rfl

-- ---------------------------------------------------------------------------
-- Events
-- ---------------------------------------------------------------------------

/-- The moves within one task of the strand. -/
def withinTask : Allowed := ⟨fun _ _ => True, True, False⟩

theorem moves_awake (hmoves : Moves p withinTask s s') (h : s.reliableSender.Awake timeouts) :
    s'.reliableSender.Awake timeouts ∧ s.posted <+: s'.posted := by
  induction hmoves with
  | refl => exact ⟨h, List.prefix_rfl⟩
  | tail _ hmove ih => exact ⟨hmove.core.awake id ih.1, ih.2.trans (hmove.posted id)⟩

theorem reaches_awake (hreaches : Reaches p withinTask s s')
    (h : s.reliableSender.Awake timeouts) :
    s'.reliableSender.Awake timeouts ∧ s.posted <+: s'.posted := by
  rcases hreaches with hmoves | ⟨s₁, hmoves, -, hmoves'⟩
  · exact moves_awake hmoves h
  · obtain ⟨hawake, hposted⟩ := moves_awake hmoves h
    have hreconnect : (reconnect p s₁).reliableSender.Awake timeouts := by
      show (reconnect p s₁).toControllerCore.reliableSender.Awake timeouts
      rw [reconnect_core]
      exact awake_reset (p := p) (s := s₁.toControllerCore) hawake
    obtain ⟨hawake', hposted'⟩ := moves_awake hmoves' hreconnect
    exact ⟨hawake', (hposted.trans (reconnect_posted s₁)).trans hposted'⟩

theorem awake_asyncSendImpl (h : s.reliableSender.Awake timeouts) (bytes : List UInt8)
    (completion : Option SendCompletion) (origin : Option (UInt8 × Nat)) :
    (asyncSendImpl p throws bytes completion origin s).reliableSender.Awake timeouts := by
  have hreject := awake_reject (s := s.toControllerCore) h bytes completion origin s.nextRequest
  unfold asyncSendImpl
  simp only
  split_ifs
  · exact hreject
  · exact hreject
  · exact hreject
  · exact hreject
  · simp only [attempt]
    cases throws (onCore (ControllerCore.submit bytes completion origin) s).attempts with
    | true =>
      show ControllerCore.reliableSender _ |>.Awake timeouts
      rw [resetSerial_core]
      exact awake_reset hreject
    | false =>
      refine awake_startsNext ?_ (startNextWrite_spec _).core
      exact h

/-- **The timeout that a message waits for** is gone when its task is taken; its handler wakes the
message. -/
theorem awake_senderRetryTimeout {key seq : UInt8}
    (h : s.reliableSender.Awake ((key, seq) :: timeouts)) :
    (senderRetryTimeout p throws key seq s).reliableSender.Awake timeouts := by
  have hwoken : ReliableSender.Awake (((key, seq) :: timeouts).erase (key, seq))
    (ReliableSender.handleRetryTimeout p s.reliableSender key seq).1 := woken_handleRetryTimeout h
  rw [List.erase_cons_head] at hwoken
  unfold senderRetryTimeout
  simp only
  cases (ReliableSender.handleRetryTimeout p s.reliableSender key seq).2 with
  | none => exact hwoken
  | some req =>
    have hcore : (onCore (ControllerCore.updateSender
        (ReliableSender.handleRetryTimeout p s.reliableSender key seq)) s).reliableSender.Awake
        timeouts := hwoken
    exact awake_asyncSendImpl hcore _ _ _

/-- Every message of the node is awake. -/
def Awake (s : Controller) : Prop := s.reliableSender.Awake (retryTimeouts s.posted)

/-- **Every event keeps the messages awake.** -/
theorem Awake.step {event : ControllerEvent} (h : s.Awake) (hposted : PostedPacked p s)
    (hstep : step p throws s event = some s') : s'.Awake := by
  have hwithin : isTurn event = false → s'.Awake := by
    intro hturn
    have hpermitted : Permitted p throws withinTask s event :=
      ⟨fun _ _ data _ _ _ _ => moves_ingestReceivedBytes (fun _ _ _ => trivial) data _,
        fun _ _ _ _ _ => trivial, fun h => Bool.noConfusion (hturn.symm.trans h)⟩
    obtain ⟨hawake, hsub⟩ := reaches_awake (step_reaches hposted hpermitted hstep) h
    exact hawake.mono (retryTimeouts_subset hsub)
  cases event with
  | retryTimer key index =>
    simp only [Controller.step] at hstep
    split at hstep
    · next sender seq hexp =>
      obtain rfl := Option.some.inj hstep
      have hwoken : ReliableSender.Awake _ _ := woken_expire h hexp
      refine hwoken.mono (List.cons_subset.mpr ⟨?_, retryTimeouts_subset (List.prefix_append ..)⟩)
      exact mem_retryTimeouts.mpr (List.mem_append_right _ (List.mem_singleton_self _))
    · cases hstep
  | run index now =>
    simp only [Controller.step] at hstep
    split at hstep
    · next task htask =>
      obtain rfl := Option.some.inj hstep
      set s₁ : Controller := { s with posted := s.posted.eraseIdx index } with hs₁
      have hbefore : s₁.reliableSender.Awake (task.timeout?.toList ++ retryTimeouts s₁.posted) :=
        ReliableSender.Awake.mono h (retryTimeouts_perm htask).symm.subset
      have hreaches : Reaches p withinTask s₁ (runTask p throws task now s₁) :=
        reaches_runTask (hposted task (List.mem_of_getElem? htask)) now s₁
      have hsub := (reaches_awake hreaches hbefore).2
      refine ReliableSender.Awake.mono ?_ (retryTimeouts_subset hsub)
      cases task with
      | retryTimeout key seq => exact awake_senderRetryTimeout hbefore
      | _ => exact (reaches_awake hreaches hbefore).1
    · cases hstep
  | connectionTimer => exact hwithin rfl
  | heartbeatTimer => exact hwithin rfl
  | sendPacket => exact hwithin rfl
  | reliableSend => exact hwithin rfl
  | readDone => exact hwithin rfl
  | writeDone => exact hwithin rfl

theorem Awake.reachable {P : Controller → ControllerEvent → Prop}
    (h : (controllerMachine p throws).ReachableBy P s) : s.Awake := by
  refine (h.invariant (I := fun s => s.Awake ∧ PostedPacked p s) ?_ ?_).1
  · rintro _ ⟨handler, hnew, rfl⟩
    exact ⟨fun _ => Woken.nil, List.forall_mem_nil _⟩
  · intro s event s' hs _ hstep
    have hreaches := step_reaches hs.2 (permitted_all s event) hstep
    exact ⟨hs.1.step hs.2 hstep, postedPacked_invariant.reaches hs.2 hreaches⟩

end Controller

-- ---------------------------------------------------------------------------
-- The results
-- ---------------------------------------------------------------------------

section Results

open Controller

variable {p : Protocol} {throws : Nat → Bool} {s : Controller}

/-- **The node keeps the contract of `send_callback_`.** In every reachable state the completions of the
requests in `tx_queue_` are those the sender waits for: for each id that of the front entry, if its send
is in progress, and none else. -/
theorem sender_contract (h : (controllerMachine p throws).Reachable s) :
    SenderInv s.reliableSender s.outstanding :=
  (sending_invariant.reachable (fun s event _ => permitted_all s event) h).2.sender

/-- What is claimed of the front message of an id. -/
structure MessageAwake (s : Controller) (id : UInt8) (entry : PendingEntry) : Prop where
  assigned : entry.seqAssigned = true
  exclusive : ¬ (entry.sendInProgress = true ∧ entry.awaitingAck = true)
  /-- Its request is queued behind a write that is in flight, or its timeout is armed or posted. -/
  awake : ((∃ request ∈ s.txQueue, (s.requests request).completion = some (entry.completion id)) ∧
      ∃ write ∈ s.writes, s.isCurrent write.port write.generation = true ∧
        s.txQueue.head? = some write.request) ∨
    entry.timer = some entry.expectedSeq ∨ .retryTimeout id entry.expectedSeq ∈ s.posted

/-- **No message is stranded in the node**, in every run in which only cancelled writes are aborted. -/
theorem node_progress (h : (controllerMachine p throws).ReachableBy AbortsCancelled s) (id : UInt8) :
    ∀ entry ∈ (s.reliableSender.pending id).head?, MessageAwake s id entry := by
  obtain ⟨htransmit, hsending⟩ := sending_invariant.reachable (fun _ _ hevent => hevent.permitted) h
  have hsound : TransmitSound s.toControllerCore := htransmit.sound fun h => h
  have hawake := Awake.reachable h id
  have hqueue := hsending.sender id
  intro entry hentry
  obtain ⟨rest, hq⟩ := List.head?_eq_some_iff.mp hentry
  rw [hq, QueueInv.cons_iff] at hqueue
  rw [hq, woken_cons_iff] at hawake
  obtain ⟨-, hassigned, hexcl, hcomp⟩ := hqueue
  refine ⟨hassigned, ?_, ?_⟩
  · rintro ⟨hbusy, hawait⟩
    rw [hexcl hbusy] at hawait
    cases hawait
  · rcases hawake with hbusy | htimer | hposted
    · left
      rw [if_pos hbusy] at hcomp
      have hmem : entry.completion id ∈ completionsOf s.outstanding id := by
        rw [hcomp]
        exact List.mem_singleton_self _
      obtain ⟨request, hrequest, hcompletion⟩ := List.mem_filterMap.mp (List.mem_filter.mp hmem).1
      refine ⟨⟨request, hrequest, hcompletion⟩, ?_⟩
      obtain ⟨-, -, front, tail, port, htx, -, hone⟩ :=
        hsound.inFlight (List.ne_nil_of_mem hrequest)
      have hwrite : (⟨port.id, s.connectionGeneration, front⟩ : PendingWrite) ∈
          s.toControllerCore.currentWrites := by
        rw [hone]
        exact List.mem_singleton_self _
      obtain ⟨hmem, hcurrent⟩ := List.mem_filter.mp hwrite
      exact ⟨_, hmem, hcurrent, by rw [htx]; rfl⟩
    · exact .inr (.inl htimer)
    · exact .inr (.inr (mem_retryTimeouts.mp hposted))

/-- After a reconnect the retry timeout of a message that awaits its Ack has expired: its task is
posted. -/
theorem node_progress_demo : ∃ s entry,
    throwingRun demoProtocol 100 (fun s event => decide (AbortsCancelled s event))
      ((retransmitEvents demoProtocol).dropLast) = some s ∧
    (s.reliableSender.pending 2).head? = some entry ∧ MessageAwake s 2 entry := by
  have hrun : (throwingRun demoProtocol 100 (fun s event => decide (AbortsCancelled s event))
      ((retransmitEvents demoProtocol).dropLast)).map
        (fun s => (s.reliableSender.pending 2).head?.isSome) = some true := by decide +kernel
  obtain ⟨s, hs, hsome⟩ := Option.map_eq_some_iff.mp hrun
  obtain ⟨entry, hentry⟩ := Option.isSome_iff_exists.mp hsome
  exact ⟨s, entry, hs, hentry, node_progress
    (reachableBy_of_throwingRun (fun _ _ hcheck => of_decide_eq_true hcheck) hs) 2 entry hentry⟩

theorem sender_contract_demo : ∃ s, demoRun demoProtocol (awaitingEvents demoProtocol) = some s ∧
    s.reliableSender.pending 2 ≠ [] ∧ SenderInv s.reliableSender s.outstanding := by
  have hrun : (demoRun demoProtocol (awaitingEvents demoProtocol)).map
      (fun s => (s.reliableSender.pending 2).isEmpty) = some false := by decide +kernel
  obtain ⟨s, hs, hempty⟩ := Option.map_eq_some_iff.mp hrun
  refine ⟨s, hs, ?_, sender_contract (reachable_of_demoRun hs)⟩
  rw [Ne, ← List.isEmpty_iff, hempty]
  exact Bool.false_ne_true

end Results

end AutoSerialBridge
