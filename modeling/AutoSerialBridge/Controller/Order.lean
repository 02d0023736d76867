import AutoSerialBridge.Controller.Sending
import AutoSerialBridge.Reliable.Outbox

/-!
# Auto Serial Bridge — the order of the reliable messages

The messages of a reliable id are numbered in the order of `send`. The calls of `send_callback_` and the
removals by Acks are the history of an outbox (`outboxHistory`), so the items of an id are transmitted in
their order (`OrderInv`). The frames on the wire and in `tx_queue_` stand in the order in which
they were transmitted (`CarryInv`), since a reset empties the queue.

## Results

* `order_invariant` — **the order of the transmissions**, in the history and on the wire.
* `node_refines_outbox` — **every run of the node is a run of the outbox**.
-/

namespace AutoSerialBridge

open Lib Lib.Outbox

/-- The event of the outbox. -/
def HistoryEvent.outboxEvent : HistoryEvent → Option (Outbox.Event UInt8 (List UInt8))
  | .transmitted id number bytes => some (.transmitted id number bytes)
  | .acked id number => some (.removed id number)
  | _ => none

def outboxHistory (history : List HistoryEvent) : List (Outbox.Event UInt8 (List UInt8)) :=
  history.filterMap HistoryEvent.outboxEvent

/-- A frame does not carry an earlier message of an id than one before it. -/
def Follows (a b : WireFrame) : Prop :=
  ∀ id n m, a.origin = some (id, n) → b.origin = some (id, m) → n ≤ m

namespace ControllerCore

/-- What the order of the transmissions depends on. -/
def orderState (s : ControllerCore) :
    Outbox UInt8 (List UInt8) × List (Outbox.Event UInt8 (List UInt8)) :=
  (s.reliableSender.outbox, outboxHistory s.history)

/-- The frame of a request. -/
def requestFrame (s : ControllerCore) (request : Nat) : WireFrame :=
  ⟨(s.requests request).bytes, (s.requests request).origin⟩

/-- The frames that were handed over, and those that are queued. -/
def carried (s : ControllerCore) : List WireFrame := s.wire ++ s.txQueue.map s.requestFrame

end ControllerCore

/-- The transmissions so far are in order. -/
def OrderInv (s : ControllerCore) : Prop := Ordered s.orderState.1 s.orderState.2

/-- The frames carry what was transmitted, in order. -/
structure CarryInv (s : ControllerCore) : Prop where
  sent : ∀ frame ∈ s.carried, ∀ id number, frame.origin = some (id, number) →
    .transmitted id number frame.bytes ∈ s.orderState.2
  ordered : s.carried.Pairwise Follows

section Order

open ControllerCore

variable {p : Protocol} {s s' core : ControllerCore} {ok : Controller.Allowed} {request : Nat}

-- ---------------------------------------------------------------------------
-- What does not matter
-- ---------------------------------------------------------------------------

@[simp] theorem outboxHistory_submitted (request : Nat) (completion : Option SendCompletion)
    (history : List HistoryEvent) :
    outboxHistory (.submitted request completion :: history) = outboxHistory history := rfl

theorem outboxHistory_noted {e : HistoryEvent} (h : Noted e) (history : List HistoryEvent) :
    outboxHistory (e :: history) = outboxHistory history := by
  cases e <;> first | rfl | cases h

theorem complete_orderState (request : Nat) (success : Bool) (s : ControllerCore) :
    (complete request success s).orderState = s.orderState := by
  unfold complete
  split
  · exact Prod.ext (ReliableSender.outbox_handleSendCompletion _ _ _) rfl
  · rfl

theorem failTxQueue_orderState (s : ControllerCore) : (failTxQueue s).orderState = s.orderState :=
  failTxQueue_congr orderState (fun request s => complete_orderState request false s)
    (fun _ => rfl) s

theorem complete_wire (request : Nat) (success : Bool) (s : ControllerCore) :
    (complete request success s).wire = s.wire := by
  unfold complete
  split <;> rfl

theorem failTxQueue_carried (s : ControllerCore) : (failTxQueue s).carried = s.wire := by
  have hwire : (failTxQueue s).wire = s.wire :=
    failTxQueue_congr ControllerCore.wire (fun request s => complete_wire request false s)
      (fun _ => rfl) s
  unfold carried
  rw [hwire]
  exact List.append_nil _

theorem complete_carried (request : Nat) (success : Bool) (s : ControllerCore) :
    (complete request success s).carried = s.carried := by
  unfold carried
  rw [complete_wire, complete_txQueue]
  refine congrArg _ (List.map_congr_left fun r _ => ?_)
  unfold requestFrame
  rw [complete_requests, disarm_bytes, disarm_origin]

theorem noteWrite_orderState (write : PendingWrite) (result : IoResult) (s : ControllerCore) :
    (noteWrite write result s).orderState = s.orderState := by
  unfold noteWrite
  split_ifs <;> rfl

theorem noteWrite_carried (write : PendingWrite) (result : IoResult) (s : ControllerCore) :
    (noteWrite write result s).carried = s.carried := by
  unfold noteWrite
  split_ifs <;> rfl

/-- A running controller keeps the queues of the sender when it resets. -/
theorem reset_eq_of_alive (p : Protocol) (h : s.shuttingDown = false) :
    reset p s = { failTxQueue { s with
        isConnected := false
        connectionGeneration := s.connectionGeneration + 1 } with
      serialPort := none
      state := if p.requireHandshake then .waitingHandshake else .running } := by
  unfold reset
  simp only [h, Bool.false_eq_true, if_false]

theorem reset_orderState (h : s.shuttingDown = false) : (reset p s).orderState = s.orderState := by
  rw [reset_eq_of_alive p h]
  exact failTxQueue_orderState { s with
    isConnected := false
    connectionGeneration := s.connectionGeneration + 1 }

theorem reset_carried (h : s.shuttingDown = false) : (reset p s).carried = s.wire := by
  rw [reset_eq_of_alive p h]
  exact failTxQueue_carried { s with
    isConnected := false
    connectionGeneration := s.connectionGeneration + 1 }

theorem finishWrite_orderState (request : Nat) (success : Bool) (s : ControllerCore) :
    (finishWrite request success s).orderState = s.orderState :=
  complete_orderState request success { s with
    txWriteInProgress := false
    txQueue := if s.txQueue.head? = some request then s.txQueue.tail else s.txQueue }

theorem startsNext_orderState (hnext : StartsNext p s s') (h : s.shuttingDown = false) :
    s'.orderState = s.orderState := by
  cases hnext with
  | idle => rfl
  | gone => exact failTxQueue_orderState s
  | begin => rfl
  | fails => exact reset_orderState h

-- ---------------------------------------------------------------------------
-- The transmissions
-- ---------------------------------------------------------------------------

/-- The events of a handler are those of its request and its removal. -/
theorem updateSender_outboxHistory (r : ReliableSender × Option SendRequest) :
    outboxHistory (updateSender r s).history = requestEvents r.2 ++ outboxHistory s.history := by
  unfold updateSender requestEvents outboxHistory
  cases r.2 <;> rfl

theorem updateAcked_outboxHistory (ackedId ackSeq : UInt8) (s : ControllerCore) :
    outboxHistory (s.updateAcked p ackedId ackSeq).history =
      requestEvents (ReliableSender.onAckReceivedImpl p s.reliableSender ackedId ackSeq).2 ++
        (s.reliableSender.removedEvents ackedId
          ((ReliableSender.onAckReceivedImpl p s.reliableSender ackedId ackSeq).1.acked ackedId) ++
          outboxHistory s.history) := by
  unfold updateAcked
  simp only
  rw [updateSender_outboxHistory]
  unfold ReliableSender.removedEvents
  split_ifs <;> rfl

/-- What a handler of the reliable sender adds to the history: its request, and the removal before
it. -/
structure AddsRequest (s core : ControllerCore) (req : Option SendRequest)
    (removals : List (Outbox.Event UInt8 (List UInt8))) : Prop where
  history : core.orderState.2 = requestEvents req ++ (removals ++ s.orderState.2)
  removals : ∀ e ∈ removals, ∃ key number, e = .removed key number

/-- **A handler of the reliable sender** takes steps of the outbox. -/
theorem SenderOp.steps {req : Option SendRequest} {outstanding : List SendCompletion}
    (hop : SenderOp p s core req) (hsender : SenderInv s.reliableSender outstanding)
    (h : OrderInv s) : ∃ removals, AddsRequest s core req removals ∧
      Steps s.orderState.1 (requestEvents req ++ removals) core.orderState.1 := by
  cases hop with
  | send id data =>
    have hsteps := ReliableSender.steps_sendImpl (p := p) s.reliableSender id (pack p id data)
    refine ⟨[], ⟨updateSender_outboxHistory _, List.forall_mem_nil _⟩, ?_⟩
    rw [List.append_nil]
    exact hsteps
  | timeout key seq =>
    have hsteps := ReliableSender.steps_handleRetryTimeout (p := p) s.reliableSender key seq
    refine ⟨[], ⟨updateSender_outboxHistory _, List.forall_mem_nil _⟩, ?_⟩
    rw [List.append_nil]
    exact hsteps
  | ack ackedId ackSeq =>
    have hsteps := ReliableSender.steps_onAckReceivedImpl (p := p) h
      (fun key => (hsender key).assigned) ackedId ackSeq
    refine ⟨_, ⟨updateAcked_outboxHistory ackedId ackSeq s, fun e he => ?_⟩, hsteps⟩
    unfold ReliableSender.removedEvents at he
    split_ifs at he
    · exact absurd he List.not_mem_nil
    · exact ⟨_, _, List.mem_singleton.mp he⟩

/-- A handler of the reliable sender keeps the order; its request is the newest transmission. -/
theorem SenderOp.order {req : Option SendRequest} {outstanding : List SendCompletion}
    (hop : SenderOp p s core req) (hsender : SenderInv s.reliableSender outstanding)
    (h : OrderInv s) : OrderInv core ∧ ∃ removals, AddsRequest s core req removals := by
  obtain ⟨removals, hadds, hsteps⟩ := hop.steps hsender h
  refine ⟨?_, removals, hadds⟩
  show Ordered _ core.orderState.2
  rw [hadds.history, ← List.append_assoc]
  exact Ordered.steps h hsteps

theorem SenderOp.carried {req : Option SendRequest} (hop : SenderOp p s core req) :
    core.carried = s.carried := by
  have htx := hop.txState
  have hqueue : core.txQueue = s.txQueue := congrArg TxState.txQueue htx
  have hrequests : core.requests = s.requests := congrArg TxState.requests htx
  have hwire : core.wire = s.wire := by
    cases hop with
    | send => rfl
    | timeout => rfl
    | ack ackedId ackSeq =>
      unfold updateAcked updateSender
      simp only
      split_ifs <;> rfl
  unfold ControllerCore.carried requestFrame
  rw [hqueue, hrequests, hwire]

-- ---------------------------------------------------------------------------
-- The frames
-- ---------------------------------------------------------------------------

theorem Follows.self (frame : WireFrame) : Follows frame frame := by
  intro id n m hn hm
  rw [hn] at hm
  obtain ⟨-, rfl⟩ := Prod.mk.inj (Option.some.inj hm)
  exact Nat.le_refl n

/-- Some of the frames, and a longer history. -/
theorem CarryInv.sublist (h : CarryInv s) (hsub : s'.carried.Sublist s.carried)
    (hhistory : ∀ e ∈ s.orderState.2, e ∈ s'.orderState.2) : CarryInv s' := by
  refine ⟨fun frame hframe id number horigin => ?_, h.ordered.sublist hsub⟩
  exact hhistory _ (h.sent frame (hsub.mem hframe) id number horigin)

/-- The same frames. -/
theorem CarryInv.congr (h : CarryInv s) (hcarried : s'.carried = s.carried)
    (hstate : s'.orderState = s.orderState) : CarryInv s' :=
  h.sublist (hcarried ▸ List.Sublist.refl _) fun e he => by rw [hstate]; exact he

theorem wire_sublist (s : ControllerCore) : s.wire.Sublist s.carried := List.sublist_append_left ..

theorem CarryInv.failTxQueue (h : CarryInv s) : CarryInv (failTxQueue s) := by
  refine h.sublist ?_ fun e he => ?_
  · rw [failTxQueue_carried]
    exact wire_sublist s
  · rw [failTxQueue_orderState]
    exact he

theorem CarryInv.reset (h : CarryInv s) (halive : s.shuttingDown = false) :
    CarryInv (reset p s) := by
  refine h.sublist ?_ fun e he => ?_
  · rw [reset_carried halive]
    exact wire_sublist s
  · rw [reset_orderState halive]
    exact he

/-- The front request is handed over: its frame now stands on the wire, and still in the queue. -/
theorem CarryInv.handOver (h : CarryInv s) {rest : List Nat} (port : Nat)
    (hqueue : s.txQueue = request :: rest) : CarryInv (ControllerCore.handOver request port s) := by
  have hbefore : s.carried = s.wire ++ (s.requestFrame request :: rest.map s.requestFrame) := by
    unfold carried
    rw [hqueue, List.map_cons]
  have hafter : (ControllerCore.handOver request port s).carried =
      s.wire ++ (s.requestFrame request :: s.requestFrame request :: rest.map s.requestFrame) := by
    show (s.wire ++ [s.requestFrame request]) ++ s.txQueue.map s.requestFrame = _
    rw [hqueue, List.map_cons, List.append_assoc, List.singleton_append]
  have hordered := h.ordered
  rw [hbefore, List.pairwise_append, List.pairwise_cons] at hordered
  obtain ⟨hwire, ⟨hfront, hrest⟩, hcross⟩ := hordered
  refine ⟨fun frame hframe => h.sent frame ?_, ?_⟩
  · rw [hafter] at hframe
    rw [hbefore]
    simpa using hframe
  · rw [hafter, List.pairwise_append, List.pairwise_cons, List.pairwise_cons]
    refine ⟨hwire, ⟨List.forall_mem_cons.mpr ⟨.self _, hfront⟩, hfront, hrest⟩, ?_⟩
    intro a ha b hb
    exact hcross a ha b (by simpa using hb)

theorem CarryInv.startsNext (h : CarryInv s) (halive : s.shuttingDown = false)
    (hnext : StartsNext p s s') : CarryInv s' := by
  cases hnext with
  | idle => exact h
  | gone => exact h.failTxQueue
  | begin hqueue => exact (h.handOver _ hqueue).congr rfl rfl
  | fails hqueue => exact (h.handOver _ hqueue).reset halive

/-- A new request is not in the queue. -/
theorem submit_carried (hknown : ∀ r ∈ s.txQueue, r < s.nextRequest) (bytes : List UInt8)
    (completion : Option SendCompletion) (origin : Option (UInt8 × Nat)) :
    (submit bytes completion origin s).carried = s.carried := by
  unfold carried
  refine congrArg _ (List.map_congr_left fun r hr => ?_)
  have hsame : (submit bytes completion origin s).requests r = s.requests r :=
    Function.update_of_ne (Nat.ne_of_lt (hknown r hr)) ..
  unfold requestFrame
  rw [hsame]

/-- A request is queued: its frame is the last one. -/
theorem accept_carried (hknown : ∀ r ∈ s.txQueue, r < s.nextRequest) (bytes : List UInt8)
    (completion : Option SendCompletion) (origin : Option (UInt8 × Nat)) :
    ((submit bytes completion origin s).accept s.nextRequest).carried =
      s.carried ++ [⟨bytes, origin⟩] := by
  have hself : ((submit bytes completion origin s).accept s.nextRequest).requestFrame s.nextRequest =
      ⟨bytes, origin⟩ := by
    have hreq : ((submit bytes completion origin s).accept s.nextRequest).requests s.nextRequest =
        ⟨bytes, completion, origin⟩ := Function.update_self ..
    unfold requestFrame
    rw [hreq]
  have hold := submit_carried hknown bytes completion origin
  unfold carried at hold ⊢
  show s.wire ++ (s.txQueue ++ [s.nextRequest]).map _ = _
  rw [List.map_append, List.map_singleton, hself, ← List.append_assoc]
  exact congrArg (· ++ [_]) hold

theorem CarryInv.accept (h : CarryInv s) (hknown : ∀ r ∈ s.txQueue, r < s.nextRequest)
    {bytes : List UInt8} (completion : Option SendCompletion) {origin : Option (UInt8 × Nat)}
    (hsent : ∀ id number, origin = some (id, number) →
      .transmitted id number bytes ∈ s.orderState.2 ∧
      ∀ n bytes', .transmitted id n bytes' ∈ s.orderState.2 → n ≤ number) :
    CarryInv ((submit bytes completion origin s).accept s.nextRequest) := by
  have hcarried := accept_carried hknown bytes completion origin
  refine ⟨fun frame hframe id number horigin => ?_, ?_⟩
  · rw [hcarried] at hframe
    rcases List.mem_append.mp hframe with hframe | hframe
    · exact h.sent frame hframe id number horigin
    · obtain rfl := List.mem_singleton.mp hframe
      exact (hsent id number horigin).1
  · rw [hcarried, List.pairwise_append]
    refine ⟨h.ordered, List.pairwise_singleton .., fun a ha b hb => ?_⟩
    obtain rfl := List.mem_singleton.mp hb
    intro id n m hn hm
    exact (hsent id m hm).2 n a.bytes (h.sent a ha id n hn)

/-- The front request leaves the queue, if it is still there. -/
theorem finishWrite_carried (request : Nat) (success : Bool) (s : ControllerCore) :
    (finishWrite request success s).carried.Sublist s.carried := by
  set s₁ : ControllerCore := { s with
    txWriteInProgress := false
    txQueue := if s.txQueue.head? = some request then s.txQueue.tail else s.txQueue } with hs₁
  show (complete request success s₁).carried.Sublist s.carried
  rw [complete_carried]
  refine List.Sublist.append_left (List.Sublist.map _ ?_) s.wire
  show (if s.txQueue.head? = some request then s.txQueue.tail else s.txQueue).Sublist s.txQueue
  split_ifs
  · exact List.tail_sublist _
  · exact .refl _

theorem CarryInv.finishWrite (h : CarryInv s) (request : Nat) (success : Bool) :
    CarryInv (finishWrite request success s) := by
  refine h.sublist (finishWrite_carried request success s) fun e he => ?_
  rw [finishWrite_orderState]
  exact he

-- ---------------------------------------------------------------------------
-- The moves
-- ---------------------------------------------------------------------------

/-- **What a move does to the transmissions**: nothing, or what a handler of the reliable sender
does. -/
theorem ControllerCore.CoreMove.orderState (hmove : CoreMove p ok s s') (halive : s.shuttingDown = false) :
    s'.orderState = s.orderState ∨
      ∃ core req, SenderOp p s core req ∧ s'.orderState = core.orderState := by
  have hoffer : ∀ {core bytes completion origin}, Offer p s core bytes completion origin →
      s'.orderState = core.orderState → s'.orderState = s.orderState ∨
        ∃ core req, SenderOp p s core req ∧ s'.orderState = core.orderState := by
    rintro core bytes completion origin hoffer hsame
    cases hoffer with
    | plain => exact .inl hsame
    | reliable hop => exact .inr ⟨core, _, hop, hsame⟩
  cases hmove with
  | same => exact .inl rfl
  | note event hevent => exact .inl (Prod.ext rfl (outboxHistory_noted hevent s.history))
  | handshake => exact .inl rfl
  | expire hexpire => exact .inl (Prod.ext (ReliableSender.outbox_expire hexpire) rfl)
  | op hop => exact .inr ⟨s', none, hop, rfl⟩
  | @rejected core bytes completion origin h =>
    exact hoffer h (complete_orderState core.nextRequest false
      (ControllerCore.note (.rejected core.nextRequest) (core.submit bytes completion origin)))
  | accepted h _ _ _ _ hnext =>
    have hcore := (congrArg PortState.shuttingDown h.portState).trans halive
    exact hoffer h ((startsNext_orderState hnext hcore).trans rfl)
  | @writeStale index write _ _ result =>
    exact .inl (noteWrite_orderState write result (dropWrite index s))
  | @writeDone index write _ _ _ hnext =>
    have hfinish : (finishWrite write.request true
        (noteWrite write .success (dropWrite index s))).shuttingDown = false :=
      (congrArg PortState.shuttingDown ((finishWrite_portState _ _).trans
        (noteWrite_portState (s := dropWrite index s) write .success))).trans halive
    exact .inl ((startsNext_orderState hnext hfinish).trans ((finishWrite_orderState _ _ _).trans
      (noteWrite_orderState write .success (dropWrite index s))))
  | @writeFails index write =>
    have hfinish : (finishWrite write.request false (dropWrite index s)).shuttingDown = false :=
      (congrArg PortState.shuttingDown (finishWrite_portState _ _)).trans halive
    exact .inl ((reset_orderState hfinish).trans
      (finishWrite_orderState write.request false (dropWrite index s)))
  | @writeAborted index write =>
    exact .inl (finishWrite_orderState write.request false (dropWrite index s))
  | reset => exact .inl (reset_orderState halive)

/-- **A move takes steps of the outbox**, and the history gains their events. -/
theorem ControllerCore.CoreMove.steps (hmove : CoreMove p ok s s') (hsending : SendingInv s)
    (h : OrderInv s) : ∃ events, Steps s.orderState.1 events s'.orderState.1 ∧
      s'.orderState.2 = events ++ s.orderState.2 := by
  rcases hmove.orderState hsending.alive with hsame | ⟨core, req, hop, hsame⟩
  · rw [hsame]
    exact ⟨[], .refl, rfl⟩
  · obtain ⟨removals, hadds, hsteps⟩ := hop.steps hsending.sender h
    rw [hsame]
    refine ⟨_, hsteps, ?_⟩
    rw [hadds.history, List.append_assoc]

theorem OrderInv.congr (h : OrderInv s) (hstate : s'.orderState = s.orderState) : OrderInv s' := by
  unfold OrderInv
  rw [hstate]
  exact h

theorem OrderInv.move (h : OrderInv s) (hsending : SendingInv s) (hmove : CoreMove p ok s s') :
    OrderInv s' := by
  rcases hmove.orderState hsending.alive with hsame | ⟨core, req, hop, hsame⟩
  · exact h.congr hsame
  · exact (hop.order hsending.sender h).1.congr hsame

/-- A frame that comes in, with the transmission it stands for. -/
theorem Offer.carry {bytes : List UInt8} {completion : Option SendCompletion}
    {origin : Option (UInt8 × Nat)} (hoffer : Offer p s core bytes completion origin)
    (hsending : SendingInv s) (h : OrderInv s) (hcarry : CarryInv s) :
    CarryInv core ∧ ∀ id number, origin = some (id, number) →
      .transmitted id number bytes ∈ core.orderState.2 ∧
      ∀ n bytes', .transmitted id n bytes' ∈ core.orderState.2 → n ≤ number := by
  cases hoffer with
  | plain => exact ⟨hcarry, by rintro id number ⟨⟩⟩
  | @reliable core req hop =>
    obtain ⟨horder, removals, hadds⟩ := hop.order hsending.sender h
    have hnew : core.orderState.2 = .transmitted req.completion.key req.number req.bytes ::
        (removals ++ s.orderState.2) := hadds.history
    have hcore : CarryInv core := by
      refine hcarry.sublist (hop.carried ▸ List.Sublist.refl _) fun e he => ?_
      rw [hnew]
      exact List.mem_cons_of_mem _ (List.mem_append_right _ he)
    refine ⟨hcore, fun id number horigin => ?_⟩
    obtain ⟨rfl, rfl⟩ := Prod.mk.inj (Option.some.inj horigin)
    have hrecorded := horder.recorded
    rw [hnew] at hrecorded ⊢
    refine ⟨List.mem_cons_self, fun n bytes' hmem => ?_⟩
    rcases List.mem_cons.mp hmem with heq | hmem
    · obtain ⟨-, hn, -⟩ := Outbox.Event.transmitted.inj heq
      omega
    · rcases (hrecorded.1.transmitted _ _ _ rfl).earlier n bytes' hmem with hlt | ⟨hn, -⟩
      · omega
      · omega

/-- The frames after a move. -/
theorem CarryInv.move (hcarry : CarryInv s) (hsending : SendingInv s) (h : OrderInv s)
    (hmove : CoreMove p ok s s') : CarryInv s' := by
  have halive := hsending.alive
  have hknown : ∀ {core : ControllerCore}, core.txState = s.txState →
      ∀ r ∈ core.txQueue, r < core.nextRequest := by
    intro core htx
    rw [show core.txQueue = s.txQueue from congrArg TxState.txQueue htx,
      show core.nextRequest = s.nextRequest from congrArg TxState.nextRequest htx]
    exact hsending.known
  cases hmove with
  | same => exact hcarry
  | note event hevent => exact hcarry.congr rfl (Prod.ext rfl (outboxHistory_noted hevent s.history))
  | handshake => exact hcarry.congr rfl rfl
  | expire hexpire =>
    exact hcarry.congr rfl (Prod.ext (ReliableSender.outbox_expire hexpire) rfl)
  | op hop =>
    obtain ⟨-, removals, hadds⟩ := hop.order hsending.sender h
    refine hcarry.sublist (hop.carried ▸ List.Sublist.refl _) fun e he => ?_
    rw [hadds.history]
    exact List.mem_append_right _ (List.mem_append_right _ he)
  | @rejected core bytes completion origin hoffer =>
    obtain ⟨hcore, -⟩ := hoffer.carry hsending h hcarry
    set s₁ : ControllerCore := note (.rejected core.nextRequest) (core.submit bytes completion origin)
    exact hcore.congr ((complete_carried core.nextRequest false s₁).trans
        (submit_carried (hknown hoffer.txState) bytes completion origin))
      (complete_orderState core.nextRequest false s₁)
  | @accepted core bytes completion origin _ hoffer _ _ _ _ hnext =>
    obtain ⟨hcore, hsent⟩ := hoffer.carry hsending h hcarry
    have hcorealive := (congrArg PortState.shuttingDown hoffer.portState).trans halive
    exact (hcore.accept (hknown hoffer.txState) completion hsent).startsNext hcorealive hnext
  | @writeStale index write _ _ result =>
    exact hcarry.congr (noteWrite_carried write result (dropWrite index s))
      (noteWrite_orderState write result (dropWrite index s))
  | @writeDone index write _ _ _ hnext =>
    have hnoted : CarryInv (noteWrite write .success (dropWrite index s)) :=
      hcarry.congr (noteWrite_carried write .success (dropWrite index s))
        (noteWrite_orderState write .success (dropWrite index s))
    refine (hnoted.finishWrite write.request true).startsNext ?_ hnext
    exact (congrArg PortState.shuttingDown ((finishWrite_portState _ _).trans
      (noteWrite_portState (s := dropWrite index s) write .success))).trans halive
  | @writeFails index write =>
    have hdrop : CarryInv (dropWrite index s) := hcarry.congr rfl rfl
    refine (hdrop.finishWrite write.request false).reset ?_
    exact (congrArg PortState.shuttingDown (finishWrite_portState _ _)).trans halive
  | @writeAborted index write =>
    have hdrop : CarryInv (dropWrite index s) := hcarry.congr rfl rfl
    exact hdrop.finishWrite write.request false
  | reset => exact hcarry.reset halive

-- ---------------------------------------------------------------------------
-- The bytes
-- ---------------------------------------------------------------------------

/-- What a move does to the sender. -/
theorem ControllerCore.CoreMove.changes (hmove : CoreMove p ok s s') (halive : s.shuttingDown = false) :
    ReliableSender.Changes p s.reliableSender s'.reliableSender := by
  have hcomplete : ∀ (request : Nat) (success : Bool) (s : ControllerCore),
      ReliableSender.Changes p s.reliableSender (complete request success s).reliableSender :=
    complete_changes p
  have hfail : ∀ s : ControllerCore,
      ReliableSender.Changes p s.reliableSender (failTxQueue s).reliableSender := fun s =>
    failTxQueue_keeps (I := fun s' => ReliableSender.Changes p s.reliableSender s'.reliableSender)
      (fun request s' h => h.trans (hcomplete request false s')) (fun _ h => h) .refl
  have hreset : ∀ s : ControllerCore, s.shuttingDown = false →
      ReliableSender.Changes p s.reliableSender (ControllerCore.reset p s).reliableSender := by
    intro s halive
    rw [reset_eq_of_alive p halive]
    exact hfail { s with
      isConnected := false
      connectionGeneration := s.connectionGeneration + 1 }
  have hnext : ∀ {s s' : ControllerCore}, s.shuttingDown = false → StartsNext p s s' →
      ReliableSender.Changes p s.reliableSender s'.reliableSender := by
    intro s s' halive hnext
    cases hnext with
    | idle => exact .refl
    | gone => exact hfail s
    | begin => exact .refl
    | @fails request rest port => exact hreset (handOver request port.id s) halive
  have hfinish : ∀ (request : Nat) (success : Bool) (s : ControllerCore),
      ReliableSender.Changes p s.reliableSender (finishWrite request success s).reliableSender :=
    fun request success s => hcomplete request success { s with
      txWriteInProgress := false
      txQueue := if s.txQueue.head? = some request then s.txQueue.tail else s.txQueue }
  have hoffer : ∀ {core bytes completion origin}, Offer p s core bytes completion origin →
      ReliableSender.Changes p s.reliableSender core.reliableSender := by
    rintro core bytes completion origin hoffer
    cases hoffer with
    | plain => exact .refl
    | reliable hop => exact hop.changes.1
  have hnote : ∀ (write : PendingWrite) (result : IoResult) (s : ControllerCore),
      (noteWrite write result s).reliableSender = s.reliableSender :=
    fun write result s => noteWrite_sender write result
  cases hmove with
  | same => exact .refl
  | note => exact .refl
  | handshake => exact .refl
  | expire hexpire => exact .single (ReliableSender.change_expire hexpire)
  | op hop => exact hop.changes.1
  | @rejected core bytes completion origin h =>
    exact (hoffer h).trans (hcomplete core.nextRequest false
      (ControllerCore.note (.rejected core.nextRequest) (core.submit bytes completion origin)))
  | @accepted core bytes completion origin _ h _ _ _ _ hstart =>
    have halive' : ((core.submit bytes completion origin).accept core.nextRequest).shuttingDown =
        false := (congrArg PortState.shuttingDown h.portState).trans halive
    have hstep := hnext halive' hstart
    exact (hoffer h).trans hstep
  | @writeStale index write _ _ result =>
    rw [hnote write result (dropWrite index s)]
    exact .refl
  | @writeDone index write _ _ _ hstart =>
    have halive' : (finishWrite write.request true
        (noteWrite write .success (dropWrite index s))).shuttingDown = false :=
      (congrArg PortState.shuttingDown ((finishWrite_portState _ _).trans
        (noteWrite_portState (s := dropWrite index s) write .success))).trans halive
    have hwrite := hfinish write.request true (noteWrite write .success (dropWrite index s))
    rw [hnote write .success (dropWrite index s)] at hwrite
    exact hwrite.trans (hnext halive' hstart)
  | @writeFails index write =>
    exact (hfinish write.request false (dropWrite index s)).trans
      (hreset _ ((congrArg PortState.shuttingDown (finishWrite_portState _ _)).trans halive))
  | @writeAborted index write => exact hfinish write.request false (dropWrite index s)
  | reset => exact hreset s halive

/-- The entries and the transmissions carry their seq once, behind the data. -/
structure StampInv (p : Protocol) (s : ControllerCore) : Prop where
  entries : ReliableSender.EntriesStamped p s.reliableSender
  sent : ∀ id number bytes, .transmitted id number bytes ∈ s.orderState.2 →
    ∃ data seq, bytes = injectTrailingSeq p (pack p id data) seq

theorem StampInv.op {req : Option SendRequest} (h : StampInv p s) (hsending : SendingInv s)
    (horder : OrderInv s) (hop : SenderOp p s core req) : StampInv p core := by
  obtain ⟨hchanges, hreq⟩ := hop.changes
  obtain ⟨-, removals, hadds⟩ := hop.order hsending.sender horder
  have hentries := h.entries.changes hchanges
  refine ⟨hentries, fun id number bytes hmem => ?_⟩
  rw [hadds.history] at hmem
  rcases List.mem_append.mp hmem with hmem | hmem
  · cases req with
    | none => exact absurd hmem List.not_mem_nil
    | some r =>
      obtain ⟨rfl, rfl, rfl⟩ := Outbox.Event.transmitted.inj (List.mem_singleton.mp hmem)
      obtain ⟨key, entry, rest, hq, hassigned, rfl⟩ := hreq r rfl
      obtain ⟨data, hbytes⟩ := hentries key entry (by rw [hq]; exact List.mem_cons_self)
      rw [hassigned, if_pos rfl] at hbytes
      exact ⟨data, entry.expectedSeq, hbytes⟩
  · rcases List.mem_append.mp hmem with hmem | hmem
    · obtain ⟨_, _, heq⟩ := hadds.removals _ hmem
      cases heq
    · exact h.sent id number bytes hmem

theorem StampInv.move (h : StampInv p s) (hsending : SendingInv s) (horder : OrderInv s)
    (hmove : CoreMove p ok s s') : StampInv p s' := by
  refine ⟨h.entries.changes (hmove.changes hsending.alive), ?_⟩
  rcases hmove.orderState hsending.alive with hsame | ⟨core, req, hop, hsame⟩
  · rw [hsame]
    exact h.sent
  · rw [hsame]
    exact (h.op hsending horder hop).sent

-- ---------------------------------------------------------------------------
-- The invariant
-- ---------------------------------------------------------------------------

/-- The invariants of the order. -/
structure OrderedInv (p : Protocol) (s : ControllerCore) : Prop where
  sending : SendingInv s
  order : OrderInv s
  carry : CarryInv s
  stamp : StampInv p s

/-- **The order of the transmissions** is an invariant of the core. -/
theorem order_invariant : CoreInvariant p ok fun s => TransmitInv ok s ∧ OrderedInv p s where
  initial := by
    have hsending : CoreInvariant p ok fun s => TransmitInv ok s ∧ SendingInv s := sending_invariant
    refine ⟨hsending.initial.1, hsending.initial.2, .empty, ⟨?_, List.Pairwise.nil⟩, ⟨?_, ?_⟩⟩
    · exact fun frame hframe => absurd hframe List.not_mem_nil
    · exact fun _ => List.forall_mem_nil _
    · exact fun id number bytes hmem => absurd hmem List.not_mem_nil
  move {s s'} h hmove := by
    have hsending := sending_invariant.move ⟨h.1, h.2.sending⟩ hmove
    exact ⟨hsending.1, hsending.2, h.2.order.move h.2.sending hmove,
      h.2.carry.move h.2.sending h.2.order hmove, h.2.stamp.move h.2.sending h.2.order hmove⟩
  connect {s} h hconn := by
    have hsending := sending_invariant.connect (p := p) ⟨h.1, h.2.sending⟩ hconn
    exact ⟨hsending.1, hsending.2, h.2.order, h.2.carry.congr rfl rfl, ⟨h.2.stamp.entries,
      h.2.stamp.sent⟩⟩

/-- The history so far is a run of the outbox. -/
theorem outbox_invariant : CoreInvariant p ok fun s => (TransmitInv ok s ∧ OrderedInv p s) ∧
    Steps Outbox.empty s.orderState.2 s.orderState.1 where
  initial := ⟨order_invariant.initial, .refl⟩
  move h hmove := by
    obtain ⟨events, hsteps, hhistory⟩ := hmove.steps h.1.2.sending h.1.2.order
    refine ⟨order_invariant.move h.1 hmove, ?_⟩
    rw [hhistory]
    exact h.2.trans hsteps
  connect h hconn := ⟨order_invariant.connect h.1 hconn, h.2⟩

/-- **The node refines the outbox**: in every run, what was passed to `send_callback_` and removed by
Acks is a run of the outbox from its empty state, and it leaves the outbox with the queues of the
sender. -/
theorem node_refines_outbox {throws : Nat → Bool} {s : Controller}
    (h : (controllerMachine p throws).Reachable s) :
    Steps Outbox.empty (outboxHistory s.history) s.reliableSender.outbox :=
  (outbox_invariant.reachable (fun s event _ => Controller.permitted_all s event) h).2

end Order

theorem node_refines_outbox_demo : ∃ s,
    demoRun demoProtocol (awaitingEvents demoProtocol) = some s ∧
    (outboxHistory s.history).length = 1 ∧
    Steps Outbox.empty (outboxHistory s.history) s.reliableSender.outbox := by
  have hrun : (demoRun demoProtocol (awaitingEvents demoProtocol)).map
      (fun s => (outboxHistory s.history).length) = some 1 := by decide +kernel
  obtain ⟨s, hs, hlength⟩ := Option.map_eq_some_iff.mp hrun
  exact ⟨s, hs, hlength, node_refines_outbox (reachable_of_demoRun hs)⟩

end AutoSerialBridge
