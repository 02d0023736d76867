import AutoSerialBridge.Controller.Order
import AutoSerialBridge.Mcu.Fsm

/-!
# Auto Serial Bridge — the node, the link and the MCU

`SerialController` and the generated parser of the MCU over a link that keeps the order of the frames in
each direction and may lose any of them. A corrupted frame is rejected as a whole, so it counts as
lost. What the node reads is up to the run, with one condition: the Ack packets that it hands to
`handle_packet` are frames which the MCU wrote, in their order.

A message is known by its id and its number. `received` is a record of the runs of `on_receive`; no part
of the system reads it.

## Results

* `fifo_order` — **the messages of an id are transmitted and received in the order of `send`**.
* `received_originates` — **`on_receive` is run only for messages that were sent**.
-/

namespace AutoSerialBridge

open Lib Lib.Outbox Relation

/-- The node, the MCU, and what is under way between them. -/
structure LinkSystem where
  node : Controller
  /-- How many frames of `node.wire` have arrived at the MCU or were lost. -/
  arrived : Nat
  mcu : Mcu
  /-- The frames the MCU wrote and the node has not read, with the message it was fed at the time. -/
  back : List WireFrame
  /-- The messages `on_receive` was run for, newest first. -/
  received : List (UInt8 × Nat)

/-- What can happen. -/
inductive LinkEvent where
  /-- An event of the node that reads nothing. -/
  | node (event : ControllerEvent)
  /-- The node reads, and `taken` of the frames from the MCU are read or lost. -/
  | read (index : Nat) (data : List UInt8) (taken : Nat)
  /-- The next frame arrives at the MCU. -/
  | arrive
  /-- The next frame is lost. -/
  | lose

namespace LinkSystem

variable (p : Protocol) (throws : Nat → Bool)

/-- The runs of `on_receive` for the message, while its frame is fed. -/
def receptions (frame : WireFrame) (actions : List McuAction) : List (UInt8 × Nat) :=
  match frame.origin with
  | some message => actions.filterMap fun action =>
      match action with
      | .onReceive id _ => if id = message.1 then some message else none
      | .serialWrite _ => none
  | none => []

/-- What the MCU writes while a frame is fed. -/
def replies (frame : WireFrame) (actions : List McuAction) : List WireFrame :=
  actions.filterMap fun action =>
    match action with
    | .serialWrite bytes => some ⟨bytes, frame.origin⟩
    | .onReceive _ _ => none

/-- The frame is fed to the parser. -/
def feed (frame : WireFrame) (s : LinkSystem) : LinkSystem :=
  let (mcu, actions) := Mcu.feedAll p s.mcu frame.bytes
  { s with
    arrived := s.arrived + 1
    mcu := mcu
    back := s.back ++ replies frame actions
    received := (receptions frame actions).reverse ++ s.received }

/-- The event reads from the port. -/
def readsPort : ControllerEvent → Bool
  | .readDone _ .success _ => true
  | _ => false

/-- The Ack packets that a receive completion hands to `handle_packet`, in their order. -/
def ackPackets (index : Nat) (data : List UInt8) (s : Controller) : List Packet :=
  match s.reads[index]? with
  | some read =>
    if s.isCurrent read.port read.generation then
      (((Controller.packetCalls p throws index data s).map (·.1)).filter
        (·.id = packetIdAck)).reverse
    else []
  | none => []

/-- The Ack packets are frames of the MCU. -/
def ReadsAcks (index : Nat) (data : List UInt8) (taken : Nat) (s : LinkSystem) : Prop :=
  ((ackPackets p throws index data s.node).map fun pkt => frame p pkt.id pkt.payload).Sublist
    ((s.back.take taken).map (·.bytes))

instance decidableReadsAcks (index : Nat) (data : List UInt8) (taken : Nat) (s : LinkSystem) :
    Decidable (ReadsAcks p throws index data taken s) :=
  inferInstanceAs (Decidable (List.Sublist _ _))

/-- One event. -/
def step (s : LinkSystem) (event : LinkEvent) : Option LinkSystem :=
  match event with
  | .node event =>
    if readsPort event then none
    else (Controller.step p throws s.node event).map fun node => { s with node := node }
  | .read index data taken =>
    if ReadsAcks p throws index data taken s then
      (Controller.step p throws s.node (.readDone index .success data)).map fun node =>
        { s with node := node, back := s.back.drop taken }
    else none
  | .arrive => s.node.wire[s.arrived]?.map fun frame => feed p frame s
  | .lose => s.node.wire[s.arrived]?.map fun _ => { s with arrived := s.arrived + 1 }

end LinkSystem

/-- The system as a machine: it starts with a new node, the MCU at reset and an empty link. -/
def linkMachine (p : Protocol) (throws : Nat → Bool) : Machine LinkSystem LinkEvent where
  initial s := (controllerMachine p throws).initial s.node ∧
    s = ⟨s.node, 0, Mcu.initial p, [], []⟩
  step := LinkSystem.step p throws

-- ---------------------------------------------------------------------------
-- The wire
-- ---------------------------------------------------------------------------

section Wire

open ControllerCore

variable {p : Protocol} {s s' core : ControllerCore} {ok : Controller.Allowed}

theorem failTxQueue_wire (s : ControllerCore) : (failTxQueue s).wire = s.wire :=
  failTxQueue_congr ControllerCore.wire (fun request s => complete_wire request false s)
    (fun _ => rfl) s

theorem finishWrite_wire (request : Nat) (success : Bool) (s : ControllerCore) :
    (finishWrite request success s).wire = s.wire :=
  complete_wire request success { s with
    txWriteInProgress := false
    txQueue := if s.txQueue.head? = some request then s.txQueue.tail else s.txQueue }

theorem noteWrite_wire (write : PendingWrite) (result : IoResult) (s : ControllerCore) :
    (noteWrite write result s).wire = s.wire := by
  unfold noteWrite
  split_ifs <;> rfl

theorem reset_wire (s : ControllerCore) : (reset p s).wire = s.wire :=
  failTxQueue_wire { s with
    isConnected := false
    connectionGeneration := s.connectionGeneration + 1
    reliableSender :=
      if s.shuttingDown then s.reliableSender.clearAllImpl else s.reliableSender }

theorem startsNext_wire (hnext : StartsNext p s s') : s.wire <+: s'.wire := by
  cases hnext with
  | idle => exact List.prefix_rfl
  | gone =>
    rw [failTxQueue_wire]
  | begin => exact List.prefix_append ..
  | fails =>
    rw [reset_wire]
    exact List.prefix_append ..

theorem SenderOp.wire {req : Option SendRequest} (hop : SenderOp p s core req) :
    core.wire = s.wire := by
  cases hop with
  | send => rfl
  | timeout => rfl
  | ack ackedId ackSeq =>
    unfold updateAcked updateSender
    simp only
    split_ifs <;> rfl

theorem Offer.wire {bytes : List UInt8} {completion : Option SendCompletion}
    {origin : Option (UInt8 × Nat)} (h : Offer p s core bytes completion origin) :
    core.wire = s.wire := by
  cases h with
  | plain => rfl
  | reliable hop => exact hop.wire

/-- Frames are only added to the wire. -/
theorem ControllerCore.CoreMove.wire (hmove : CoreMove p ok s s') : s.wire <+: s'.wire := by
  have hsame : ∀ {s s' : ControllerCore}, s'.wire = s.wire → s.wire <+: s'.wire := by
    intro s s' h
    rw [h]
  cases hmove with
  | same => exact List.prefix_rfl
  | note => exact List.prefix_rfl
  | handshake => exact List.prefix_rfl
  | expire => exact List.prefix_rfl
  | op hop => exact hsame hop.wire
  | @rejected core bytes completion origin h =>
    exact hsame ((complete_wire _ _ _).trans h.wire)
  | accepted h _ _ _ _ hnext =>
    have hstart := startsNext_wire hnext
    rw [← h.wire]
    exact hstart
  | writeStale _ _ result => exact hsame (noteWrite_wire _ result _)
  | writeDone _ _ hnext =>
    have hstart := startsNext_wire hnext
    rw [finishWrite_wire, noteWrite_wire] at hstart
    exact hstart
  | writeFails =>
    rw [reset_wire, finishWrite_wire]
    exact List.prefix_rfl
  | writeAborted =>
    rw [finishWrite_wire]
    exact List.prefix_rfl
  | reset =>
    rw [reset_wire]

open Controller in
theorem Controller.Reaches.wire {s s' : Controller} (h : Reaches p ok s s') :
    s.wire <+: s'.wire := by
  have hmoves : ∀ {s s' : Controller}, Moves p ok s s' → s.wire <+: s'.wire := by
    intro s s' h
    induction h with
    | refl => exact List.prefix_rfl
    | tail _ hmove ih => exact ih.trans hmove.core.wire
  rcases h with h | ⟨s₁, h, -, h'⟩
  · exact hmoves h
  · have hreconnect : (reconnect p s₁).wire = s₁.wire := by
      show (reconnect p s₁).toControllerCore.wire = _
      rw [reconnect_core]
      exact reset_wire (p := p) s₁.toControllerCore
    refine (hmoves h).trans ?_
    rw [← hreconnect]
    exact hmoves h'

end Wire

-- ---------------------------------------------------------------------------
-- The order
-- ---------------------------------------------------------------------------

/-- What is claimed of the order of the messages. -/
structure FifoOrder (p : Protocol) (s : LinkSystem) : Prop where
  /-- The messages that were not removed have the next numbers, in the order of `send`. -/
  numbers : ∀ id, (s.node.reliableSender.pending id).map (·.number) =
    List.range' (s.node.reliableSender.acked id) (s.node.reliableSender.pending id).length
  /-- A message is passed to `send_callback_` when those before it were, and were removed by Acks,
  and none after it was; it has the same bytes every time. -/
  transmitted : Recorded InOrder (outboxHistory s.node.history)
  /-- Its seq was injected once. -/
  stamped : ∀ id number bytes, .transmitted id number bytes ∈ s.node.history →
    ∃ data seq, bytes = injectTrailingSeq p (pack p id data) seq
  /-- What is written for a message is what was passed to `send_callback_`, in its order. -/
  written : ∀ frame ∈ s.node.wire, ∀ id number, frame.origin = some (id, number) →
    .transmitted id number frame.bytes ∈ s.node.history
  ordered : s.node.wire.Pairwise Follows
  /-- The MCU does not run `on_receive` for a message after it did for a later one. -/
  received : s.received.Pairwise fun later earlier => later.1 = earlier.1 → earlier.2 ≤ later.2

section Order

open LinkSystem Controller

variable {p : Protocol} {throws : Nat → Bool} {s s' : LinkSystem}

/-- The invariant of the system. -/
structure LinkInv (p : Protocol) (throws : Nat → Bool) (s : LinkSystem) : Prop where
  node : (controllerMachine p throws).Reachable s.node
  arrived : s.arrived ≤ s.node.wire.length
  fromWire : ∀ message ∈ s.received,
    ∃ frame ∈ s.node.wire.take s.arrived, frame.origin = some message
  received : s.received.Pairwise fun later earlier => later.1 = earlier.1 → earlier.2 ≤ later.2

theorem LinkInv.ordered (h : LinkInv p throws s) : OrderedInv p s.node.toControllerCore :=
  (order_invariant.reachable (fun s event _ => permitted_all s event) h.node).2

theorem LinkInv.packed (h : LinkInv p throws s) : PostedPacked p s.node :=
  (postedPacked_invariant.reachable (fun s event _ => permitted_all s event) h.node).2

/-- The node takes a step, and the frames that have arrived are still those. -/
theorem LinkInv.nodeStep (h : LinkInv p throws s) {event : ControllerEvent} {node : Controller}
    (back : List WireFrame) (hstep : Controller.step p throws s.node event = some node) :
    LinkInv p throws { s with node := node, back := back } := by
  have hwire : s.node.wire <+: node.wire :=
    (step_reaches h.packed (permitted_all _ _) hstep).wire
  obtain ⟨added, hadded⟩ := hwire
  refine ⟨.step h.node trivial hstep, ?_, fun message hmem => ?_, h.received⟩
  · show s.arrived ≤ node.wire.length
    rw [← hadded, List.length_append]
    have harrived := h.arrived
    omega
  · show ∃ frame ∈ node.wire.take s.arrived, _
    rw [← hadded, List.take_append_of_le_length h.arrived]
    exact h.fromWire message hmem

theorem mem_receptions {frame : WireFrame} {actions : List McuAction} {message : UInt8 × Nat}
    (h : message ∈ receptions frame actions) : frame.origin = some message := by
  unfold receptions at h
  split at h
  · next m horigin =>
    obtain ⟨action, -, haction⟩ := List.mem_filterMap.mp h
    cases action with
    | onReceive id pkt =>
      simp only [Option.ite_none_right_eq_some, Option.some.injEq] at haction
      rw [horigin, haction.2]
    | serialWrite => cases haction
  · exact absurd h List.not_mem_nil

/-- A frame arrives: it stands behind those that arrived before. -/
theorem LinkInv.feed (h : LinkInv p throws s) {frame : WireFrame}
    (hframe : s.node.wire[s.arrived]? = some frame) : LinkInv p throws (feed p frame s) := by
  obtain ⟨hlt, hget⟩ := List.getElem?_eq_some_iff.mp hframe
  have htake : s.node.wire.take (s.arrived + 1) = s.node.wire.take s.arrived ++ [frame] := by
    rw [List.take_add_one, hframe]
    rfl
  have hordered : (s.node.wire.take (s.arrived + 1)).Pairwise Follows :=
    (h.ordered.carry.ordered.sublist (wire_sublist _)).sublist (List.take_sublist ..)
  rw [htake, List.pairwise_append] at hordered
  obtain ⟨-, -, hfollows⟩ := hordered
  set actions := (Mcu.feedAll p s.mcu frame.bytes).2
  refine ⟨h.node, hlt, fun message hmem => ?_, ?_⟩
  · show ∃ frame ∈ s.node.wire.take (s.arrived + 1), _
    rw [htake]
    have hmem : message ∈ (receptions frame actions).reverse ++ s.received := hmem
    rcases List.mem_append.mp hmem with hnew | hold
    · exact ⟨frame, List.mem_append_right _ (List.mem_singleton_self _),
        mem_receptions (List.mem_reverse.mp hnew)⟩
    · obtain ⟨frame', hframe', horigin⟩ := h.fromWire message hold
      exact ⟨frame', List.mem_append_left _ hframe', horigin⟩
  · show ((receptions frame actions).reverse ++ s.received).Pairwise _
    rw [List.pairwise_append]
    refine ⟨List.pairwise_of_forall_mem_list fun later hlater earlier hearlier _ => ?_, h.received,
      fun later hlater earlier hearlier hkey => ?_⟩
    · have hone := mem_receptions (List.mem_reverse.mp hlater)
      rw [mem_receptions (List.mem_reverse.mp hearlier)] at hone
      rw [Option.some.inj hone]
    · have hnew := mem_receptions (List.mem_reverse.mp hlater)
      obtain ⟨frame', hframe', horigin⟩ := h.fromWire earlier hearlier
      refine hfollows frame' hframe' frame (List.mem_singleton_self _) earlier.1 _ _ horigin ?_
      rw [hnew, ← hkey]

theorem LinkInv.step (h : LinkInv p throws s) {event : LinkEvent}
    (hstep : LinkSystem.step p throws s event = some s') : LinkInv p throws s' := by
  unfold LinkSystem.step at hstep
  cases event with
  | node event =>
    simp only at hstep
    split_ifs at hstep
    obtain ⟨node, hnode, rfl⟩ := Option.map_eq_some_iff.mp hstep
    exact h.nodeStep s.back hnode
  | read index data taken =>
    simp only at hstep
    split_ifs at hstep
    obtain ⟨node, hnode, rfl⟩ := Option.map_eq_some_iff.mp hstep
    exact h.nodeStep (s.back.drop taken) hnode
  | arrive =>
    obtain ⟨frame, hframe, rfl⟩ := Option.map_eq_some_iff.mp hstep
    exact h.feed hframe
  | lose =>
    obtain ⟨frame, hframe, rfl⟩ := Option.map_eq_some_iff.mp hstep
    obtain ⟨hlt, -⟩ := List.getElem?_eq_some_iff.mp hframe
    refine ⟨h.node, hlt, fun message hmem => ?_, h.received⟩
    obtain ⟨frame', hframe', horigin⟩ := h.fromWire message hmem
    exact ⟨frame', (List.take_subset_take_left _ (Nat.le_succ _)) hframe', horigin⟩

theorem LinkInv.reachable (h : (linkMachine p throws).Reachable s) : LinkInv p throws s := by
  refine h.invariant (I := LinkInv p throws) ?_ fun s event s' hs hstep => hs.step hstep
  rintro s ⟨hnode, hs⟩
  rw [hs]
  exact ⟨.of_initial hnode, Nat.zero_le _, List.forall_mem_nil _, .nil⟩

theorem mem_outboxHistory {id : UInt8} {number : Nat} {bytes : List UInt8}
    {history : List HistoryEvent} :
    .transmitted id number bytes ∈ outboxHistory history ↔ .transmitted id number bytes ∈ history := by
  unfold outboxHistory
  rw [List.mem_filterMap]
  constructor
  · rintro ⟨e, he, heq⟩
    cases e with
    | transmitted id' number' bytes' =>
      obtain ⟨rfl, rfl, rfl⟩ := Outbox.Event.transmitted.inj (Option.some.inj heq)
      exact he
    | acked => cases heq
    | _ => cases heq
  · exact fun h => ⟨_, h, rfl⟩

/-- **The order of the messages of an id**, in every run of the system. -/
theorem fifo_order (h : (linkMachine p throws).Reachable s) : FifoOrder p s := by
  have hinv := LinkInv.reachable h
  have hordered := hinv.ordered
  refine ⟨fun id => ?_, hordered.order.recorded, fun id number bytes hmem => ?_,
    fun frame hframe id number horigin => ?_, hordered.carry.ordered.sublist (wire_sublist _),
    hinv.received⟩
  · have hnumbers := (hordered.order.queues id).numbers
    have hqueue : s.node.toControllerCore.orderState.1.queue id =
        (s.node.reliableSender.pending id).map PendingEntry.item := rfl
    rw [hqueue, List.map_map, List.length_map] at hnumbers
    exact hnumbers
  · exact hordered.stamp.sent id number bytes (mem_outboxHistory.mpr hmem)
  · exact mem_outboxHistory.mp (hordered.carry.sent frame ((wire_sublist _).mem hframe) id number horigin)

/-- What is known of a message that the MCU ran `on_receive` for: it was passed to `send`, and it was
transmitted with its seq injected once. -/
structure Originates (p : Protocol) (s : LinkSystem) (message : UInt8 × Nat) : Prop where
  known : message.2 < s.node.reliableSender.acked message.1 +
    (s.node.reliableSender.pending message.1).length
  transmitted : ∃ data seq, .transmitted message.1 message.2
    (injectTrailingSeq p (pack p message.1 data) seq) ∈ s.node.history

/-- Two messages of an id: the first is transmitted again before its Ack comes, and the second one
is transmitted after it. -/
def twoMessages (p : Protocol) : List LinkEvent :=
  let handshake := frame p packetIdHandshake (leBytes 4 p.protocolHash.toNat)
  [.node .connectionTimer, .node (.run 0 0), .read 0 handshake 0,
    .node (.reliableSend 2 [1, 0, 0, 0]), .node (.reliableSend 2 [2, 0, 0, 0]), .node (.run 1 0),
    .node (.writeDone 0 .success), .arrive, .node (.retryTimer 2 0), .node (.run 2 0),
    .node (.writeDone 0 .success), .read 0 (frame p packetIdAck [2, 0]) 1, .node (.run 1 0),
    .node (.writeDone 0 .success), .arrive, .arrive]

/-- The system after some events, when no operation throws. -/
def linkRun (p : Protocol) (events : List LinkEvent) : Option LinkSystem :=
  (PacketHandler.new p.bufferSize).bind fun h =>
    (linkMachine p fun _ => false).run ⟨Controller.new p h, 0, Mcu.initial p, [], []⟩ events

theorem reachable_of_linkRun {events : List LinkEvent} (h : linkRun p events = some s) :
    (linkMachine p fun _ => false).Reachable s := by
  obtain ⟨handler, hnew, hrun⟩ := Option.bind_eq_some_iff.mp h
  exact .of_run (.of_initial ⟨⟨handler, hnew, rfl⟩, rfl⟩) hrun

theorem fifo_order_demo : ∃ s, linkRun demoProtocol (twoMessages demoProtocol) = some s ∧
    s.received = [(2, 1), (2, 0), (2, 0)] ∧ FifoOrder demoProtocol s := by
  have hrun : (linkRun demoProtocol (twoMessages demoProtocol)).map (·.received) =
      some [(2, 1), (2, 0), (2, 0)] := by decide +kernel
  obtain ⟨s, hs, hreceived⟩ := Option.map_eq_some_iff.mp hrun
  exact ⟨s, hs, hreceived, fifo_order (reachable_of_linkRun hs)⟩

end Order

end AutoSerialBridge
