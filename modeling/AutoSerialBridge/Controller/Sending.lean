import AutoSerialBridge.Controller.Transmit

/-!
# Auto Serial Bridge — the reliable sender inside the controller

`SerialController` is what stands behind `send_callback_`. The completions that it still owes are
those of the requests in `tx_queue_` (`outstanding`), and with these the invariant of the sender's
queues holds of the controller (`SendingInv`): what `Reliable/Queue.lean` proves of a sender with any
`send_callback_` holds of the sender in the node.

## Results

* `sending_invariant` — **the completions in the queue are those the sender waits for**.
-/

namespace AutoSerialBridge

open Lib ReliableSender

/-- The completions of the requests. -/
def completionsIn (requests : Nat → TxRequest) (queue : List Nat) : List SendCompletion :=
  queue.filterMap fun r => (requests r).completion

/-- The completions that the controller owes the sender. -/
def ControllerCore.outstanding (s : ControllerCore) : List SendCompletion :=
  completionsIn s.requests s.txQueue

/-- The invariant. -/
structure SendingInv (s : ControllerCore) : Prop where
  alive : s.shuttingDown = false
  nodup : s.txQueue.Nodup
  known : ∀ r ∈ s.txQueue, r < s.nextRequest
  sender : SenderInv s.reliableSender s.outstanding

section Completions

variable {requests requests' : Nat → TxRequest} {queue : List Nat} {request : Nat}

theorem completionsIn_cons : completionsIn requests (request :: queue) =
    (requests request).completion.toList ++ completionsIn requests queue := by
  unfold completionsIn
  rw [List.filterMap_cons]
  cases (requests request).completion <;> rfl

theorem completionsIn_congr (h : ∀ r ∈ queue, requests' r = requests r) :
    completionsIn requests' queue = completionsIn requests queue :=
  List.filterMap_congr fun r hr => by rw [h r hr]

theorem completionsIn_disarm (h : request ∉ queue) :
    completionsIn (ControllerCore.disarm request requests) queue = completionsIn requests queue := by
  refine completionsIn_congr fun r hr => ?_
  have hne : r ≠ request := by
    rintro rfl
    exact h hr
  exact Function.update_of_ne hne ..

end Completions

section Sending

open ControllerCore

variable {p : Protocol} {s s' core : ControllerCore} {ok : Controller.Allowed} {request : Nat}
  {outstanding : List SendCompletion}

/-- A completion is used up. -/
theorem senderInv_complete (success : Bool)
    (h : SenderInv s.reliableSender ((s.requests request).completion.toList ++ outstanding)) :
    SenderInv (complete request success s).reliableSender outstanding := by
  unfold complete
  cases hc : (s.requests request).completion with
  | none =>
    rw [hc] at h
    exact h
  | some c =>
    rw [hc] at h
    exact h.handleSendCompletion success

/-- Giving up the queue uses up its completions. -/
theorem senderInv_failTxQueue (hnodup : s.txQueue.Nodup)
    (h : SenderInv s.reliableSender s.outstanding) :
    SenderInv (failTxQueue s).reliableSender [] := by
  have hall : ∀ (queue : List Nat) (s : ControllerCore), queue.Nodup →
      SenderInv s.reliableSender (completionsIn s.requests queue) →
      SenderInv (queue.foldl (fun s request => complete request false s) s).reliableSender [] := by
    intro queue
    induction queue with
    | nil => exact fun _ _ h => h
    | cons request queue ih =>
      intro s hnodup h
      rw [List.nodup_cons] at hnodup
      rw [completionsIn_cons] at h
      refine ih (complete request false s) hnodup.2 ?_
      rw [complete_requests, completionsIn_disarm hnodup.1]
      exact senderInv_complete false h
  exact hall s.txQueue s hnodup h

/-- A handler of the sender: its request is one more completion to come. -/
theorem SenderOp.senderInv {req : Option SendRequest} (hop : SenderOp p s core req)
    (h : SenderInv s.reliableSender outstanding) :
    SenderInv core.reliableSender (SenderInv.after req outstanding) := by
  cases hop with
  | send id data => exact h.sendImpl id _
  | timeout key seq => exact h.handleRetryTimeout key seq
  | ack ackedId ackSeq => exact h.onAckReceivedImpl ackedId ackSeq

theorem Offer.senderInv {bytes : List UInt8} {completion : Option SendCompletion}
    {origin : Option (UInt8 × Nat)} (hoffer : Offer p s core bytes completion origin)
    (h : SenderInv s.reliableSender outstanding) :
    SenderInv core.reliableSender (completion.toList ++ outstanding) := by
  cases hoffer with
  | plain => exact h
  | reliable hop => exact hop.senderInv h

/-- Whatever leaves the requests and the sender alone. -/
theorem SendingInv.congr (h : SendingInv s) (htx : s'.txState = s.txState)
    (halive : s'.shuttingDown = s.shuttingDown) (hsender : s'.reliableSender = s.reliableSender) :
    SendingInv s' := by
  have hqueue : s'.txQueue = s.txQueue := congrArg TxState.txQueue htx
  have hrequests : s'.requests = s.requests := congrArg TxState.requests htx
  have hnext : s'.nextRequest = s.nextRequest := congrArg TxState.nextRequest htx
  refine ⟨halive.trans h.alive, hqueue ▸ h.nodup, ?_, ?_⟩
  · rw [hqueue, hnext]
    exact h.known
  · unfold ControllerCore.outstanding
    rw [hsender, hqueue, hrequests]
    exact h.sender

theorem SendingInv.failTxQueue (h : SendingInv s) : SendingInv (failTxQueue s) := by
  refine ⟨?_, List.nodup_nil, List.forall_mem_nil _, senderInv_failTxQueue h.nodup h.sender⟩
  exact (congrArg PortState.shuttingDown failTxQueue_portState).trans h.alive

theorem SendingInv.reset (h : SendingInv s) : SendingInv (reset p s) := by
  have hsame : ControllerCore.reset p s = { ControllerCore.failTxQueue { s with
        isConnected := false
        connectionGeneration := s.connectionGeneration + 1 } with
      serialPort := none
      state := if p.requireHandshake then .waitingHandshake else .running } := by
    unfold ControllerCore.reset
    simp only [h.alive, Bool.false_eq_true, if_false]
  rw [hsame]
  have hfailed := SendingInv.failTxQueue (s := { s with
    isConnected := false
    connectionGeneration := s.connectionGeneration + 1 }) ⟨h.alive, h.nodup, h.known, h.sender⟩
  exact ⟨hfailed.alive, hfailed.nodup, hfailed.known, hfailed.sender⟩

theorem SendingInv.startsNext (h : SendingInv s) (hnext : StartsNext p s s') : SendingInv s' := by
  cases hnext with
  | idle => exact h
  | gone => exact h.failTxQueue
  | begin => exact ⟨h.alive, h.nodup, h.known, h.sender⟩
  | fails => exact SendingInv.reset ⟨h.alive, h.nodup, h.known, h.sender⟩

/-- A request that comes in, with the sender already waiting for it. -/
theorem SendingInv.reject (hcore : core.txState = s.txState) (halive : core.shuttingDown = false)
    (h : SendingInv s) (bytes : List UInt8) {completion : Option SendCompletion}
    (origin : Option (UInt8 × Nat))
    (hsender : SenderInv core.reliableSender (completion.toList ++ s.outstanding)) :
    SendingInv ((core.submit bytes completion origin).reject core.nextRequest) := by
  have hqueue : core.txQueue = s.txQueue := congrArg TxState.txQueue hcore
  have hnext : core.nextRequest = s.nextRequest := congrArg TxState.nextRequest hcore
  have hrequests : core.requests = s.requests := congrArg TxState.requests hcore
  have hfresh : core.nextRequest ∉ s.txQueue := by
    intro hmem
    have hlt := h.known _ hmem
    omega
  set s₁ : ControllerCore := note (.rejected core.nextRequest) (core.submit bytes completion origin)
    with hs₁
  have hself : (s₁.requests core.nextRequest).completion = completion := by
    have hreq : s₁.requests core.nextRequest = ⟨bytes, completion, origin⟩ :=
      Function.update_self ..
    rw [hreq]
  show SendingInv (complete core.nextRequest false s₁)
  have hqueue₁ : (complete core.nextRequest false s₁).txQueue = s.txQueue :=
    complete_txQueue.trans hqueue
  refine ⟨?_, hqueue₁ ▸ h.nodup, ?_, ?_⟩
  · exact (congrArg PortState.shuttingDown (complete_portState _ _)).trans halive
  · rw [hqueue₁, complete_nextRequest]
    intro r hr
    have hlt := h.known r hr
    show r < core.nextRequest + 1
    omega
  · unfold ControllerCore.outstanding
    rw [hqueue₁, complete_requests, completionsIn_disarm hfresh]
    have hold : completionsIn s₁.requests s.txQueue = s.outstanding := by
      refine completionsIn_congr fun r hr => ?_
      have hne : r ≠ core.nextRequest := by
        rintro rfl
        exact hfresh hr
      exact (Function.update_of_ne hne ..).trans (congrFun hrequests r)
    rw [hold]
    refine senderInv_complete false ?_
    rw [hself]
    exact hsender

theorem SendingInv.accept (hcore : core.txState = s.txState) (halive : core.shuttingDown = false)
    (h : SendingInv s) (bytes : List UInt8) {completion : Option SendCompletion}
    (origin : Option (UInt8 × Nat))
    (hsender : SenderInv core.reliableSender (completion.toList ++ s.outstanding)) :
    SendingInv ((core.submit bytes completion origin).accept core.nextRequest) := by
  have hqueue : core.txQueue = s.txQueue := congrArg TxState.txQueue hcore
  have hnext : core.nextRequest = s.nextRequest := congrArg TxState.nextRequest hcore
  have hrequests : core.requests = s.requests := congrArg TxState.requests hcore
  have hfresh : core.nextRequest ∉ s.txQueue := by
    intro hmem
    have hlt := h.known _ hmem
    omega
  have hqueue₁ : ((core.submit bytes completion origin).accept core.nextRequest).txQueue =
      s.txQueue ++ [core.nextRequest] := congrArg (· ++ [core.nextRequest]) hqueue
  refine ⟨halive, ?_, ?_, ?_⟩
  · rw [hqueue₁, List.nodup_append]
    refine ⟨h.nodup, List.nodup_singleton _, ?_⟩
    intro r hr r' hr'
    rw [List.mem_singleton.mp hr']
    rintro rfl
    exact hfresh hr
  · rw [hqueue₁]
    intro r hr
    show r < core.nextRequest + 1
    rcases List.mem_append.mp hr with hr | hr
    · have hlt := h.known r hr
      omega
    · rw [List.mem_singleton.mp hr]
      exact Nat.lt_succ_self _
  · refine hsender.perm ?_
    unfold ControllerCore.outstanding
    rw [hqueue₁]
    set requests := ((core.submit bytes completion origin).accept core.nextRequest).requests
      with hdef
    have hself : (requests core.nextRequest).completion = completion := by
      have hreq : requests core.nextRequest = ⟨bytes, completion, origin⟩ :=
        Function.update_self ..
      rw [hreq]
    have hold : completionsIn requests s.txQueue = completionsIn s.requests s.txQueue := by
      refine completionsIn_congr fun r hr => ?_
      have hne : r ≠ core.nextRequest := by
        rintro rfl
        exact hfresh hr
      exact (Function.update_of_ne hne ..).trans (congrFun hrequests r)
    have hsplit : completionsIn requests (s.txQueue ++ [core.nextRequest]) =
        completionsIn requests s.txQueue ++ completion.toList := by
      unfold completionsIn
      rw [List.filterMap_append, ← hself]
      cases hc : (requests core.nextRequest).completion <;> simp [hc]
    rw [hsplit, hold]
    exact List.perm_append_comm

/-- The front request is done. -/
theorem SendingInv.finishWrite {rest : List Nat} (h : SendingInv s)
    (hqueue : s.txQueue = request :: rest) (success : Bool) :
    SendingInv (finishWrite request success s) := by
  have hnodup := h.nodup
  rw [hqueue, List.nodup_cons] at hnodup
  have hsender := h.sender
  unfold ControllerCore.outstanding at hsender
  rw [hqueue, completionsIn_cons] at hsender
  set s₁ : ControllerCore := { s with
    txWriteInProgress := false
    txQueue := if s.txQueue.head? = some request then s.txQueue.tail else s.txQueue } with hs₁
  have hqueue₁ : s₁.txQueue = rest := by
    rw [hs₁]
    simp only
    rw [hqueue, List.head?_cons, if_pos rfl, List.tail_cons]
  show SendingInv (complete request success s₁)
  refine ⟨?_, ?_, ?_, ?_⟩
  · exact (congrArg PortState.shuttingDown (complete_portState _ _)).trans h.alive
  · rw [complete_txQueue, hqueue₁]
    exact hnodup.2
  · rw [complete_txQueue, hqueue₁, complete_nextRequest]
    exact fun r hr => h.known r (by rw [hqueue]; exact List.mem_cons_of_mem _ hr)
  · unfold ControllerCore.outstanding
    rw [complete_txQueue, hqueue₁, complete_requests, completionsIn_disarm hnodup.1]
    exact senderInv_complete (s := s₁) success hsender

theorem noteWrite_sender (write : PendingWrite) (result : IoResult) :
    (noteWrite write result s).reliableSender = s.reliableSender := by
  unfold noteWrite
  split_ifs <;> rfl

/-- The end of the write in flight. -/
theorem SendingInv.endWrite {index : Nat} {write : PendingWrite} (h : SendingInv s)
    (htransmit : TransmitPre s) (hwrite : s.writes[index]? = some write)
    (hcurrent : s.isCurrent write.port write.generation = true) (result : IoResult) :
    SendingInv (ControllerCore.finishWrite write.request (result = .success)
      (noteWrite write result (dropWrite index s))) := by
  obtain ⟨rest, hqueue⟩ := htransmit.front_of_isCurrent hwrite hcurrent
  have htx := noteWrite_txState (s := dropWrite index s) write result
  have hnoted : SendingInv (noteWrite write result (dropWrite index s)) := by
    refine SendingInv.congr (s := dropWrite index s) ⟨h.alive, h.nodup, h.known, h.sender⟩ htx ?_
      (noteWrite_sender write result)
    exact congrArg PortState.shuttingDown (noteWrite_portState write result)
  exact hnoted.finishWrite ((congrArg TxState.txQueue htx).trans hqueue) _

/-- **Every move keeps the invariant.** -/
theorem SendingInv.move (htransmit : TransmitInv ok s) (h : SendingInv s)
    (hmove : CoreMove p ok s s') : SendingInv s' := by
  cases hmove with
  | same => exact h
  | note => exact ⟨h.alive, h.nodup, h.known, h.sender⟩
  | handshake => exact ⟨h.alive, h.nodup, h.known, h.sender⟩
  | expire hexpire => exact ⟨h.alive, h.nodup, h.known, h.sender.expire hexpire⟩
  | op hop =>
    have htx := hop.txState
    have hqueue : s'.txQueue = s.txQueue := congrArg TxState.txQueue htx
    refine ⟨(congrArg PortState.shuttingDown hop.portState).trans h.alive, hqueue ▸ h.nodup, ?_, ?_⟩
    · rw [hqueue, show s'.nextRequest = s.nextRequest from congrArg TxState.nextRequest htx]
      exact h.known
    · unfold ControllerCore.outstanding
      rw [hqueue, show s'.requests = s.requests from congrArg TxState.requests htx]
      exact hop.senderInv h.sender
  | rejected hoffer =>
    exact h.reject hoffer.txState ((congrArg PortState.shuttingDown hoffer.portState).trans h.alive) _ _
      (hoffer.senderInv h.sender)
  | accepted hoffer _ _ _ _ hnext =>
    exact (h.accept hoffer.txState ((congrArg PortState.shuttingDown hoffer.portState).trans h.alive)
      _ _ (hoffer.senderInv h.sender)).startsNext hnext
  | @writeStale index write _ _ result =>
    refine SendingInv.congr (s := dropWrite index s) ⟨h.alive, h.nodup, h.known, h.sender⟩
      (noteWrite_txState write result) ?_ (noteWrite_sender write result)
    exact congrArg PortState.shuttingDown (noteWrite_portState write result)
  | writeDone hwrite hcurrent hnext =>
    exact (h.endWrite htransmit.toTransmitPre hwrite hcurrent .success).startsNext hnext
  | writeFails hwrite hcurrent =>
    exact (h.endWrite htransmit.toTransmitPre hwrite hcurrent .failure).reset
  | writeAborted hwrite hcurrent =>
    exact h.endWrite htransmit.toTransmitPre hwrite hcurrent .operationAborted
  | reset => exact h.reset

/-- **The completions in the queue are those the sender waits for.** -/
theorem sending_invariant : CoreInvariant p ok fun s => TransmitInv ok s ∧ SendingInv s where
  initial := ⟨transmit_invariant.initial (p := p),
    ⟨rfl, List.nodup_nil, List.forall_mem_nil _, SenderInv.initial⟩⟩
  move h hmove := ⟨h.1.move hmove, h.2.move h.1 hmove⟩
  connect h hconn := ⟨h.1.connect hconn, ⟨h.2.alive, h.2.nodup, h.2.known, h.2.sender⟩⟩

end Sending

end AutoSerialBridge
