import AutoSerialBridge.Controller.Transmit

/-!
# Auto Serial Bridge — the handshake gate

With `require_handshake`, `async_send_impl` rejects everything but Handshake frames in
`WAITING_HANDSHAKE`. The gate is passed when a request is queued, not when it is written; what makes
it tight is that the queue is empty whenever the state goes back to `WAITING_HANDSHAKE` (`GateInv`).

## Results

* `no_unverified_write` — **a peer that was not verified is sent Handshake frames only**, and nothing
  queued or received survives a reconnect.
-/

namespace AutoSerialBridge

open Lib ReliableSender

variable (p : Protocol)

def IsHandshakeFrame (bytes : List UInt8) : Prop := ∃ payload, bytes = frame p packetIdHandshake payload

/-- A Handshake packet with the own hash was received on the connection. -/
def Verified (connection : Connection) (history : List HistoryEvent) : Prop :=
  ∃ state pkt, .received (some connection) state pkt ∈ history ∧
    Controller.AcceptedHandshake p pkt ∧ p.member 0 pkt = p.protocolHash

/-- What is written is a Handshake frame, or the peer was verified. -/
def Gated (e : HistoryEvent) (older : List HistoryEvent) : Prop :=
  ∀ request connection bytes, e = .writeStarted request connection bytes →
    IsHandshakeFrame p bytes ∨ Verified p connection older

/-- The event is no start of a write. -/
def HistoryEvent.NoWrite : HistoryEvent → Prop
  | .writeStarted _ _ _ => False
  | _ => True

/-- The invariant. -/
structure GateInv (s : ControllerCore) : Prop where
  gated : Recorded (Gated p) s.history
  verified : s.state = .running → ∀ connection, s.connection = some connection →
    Verified p connection s.history
  queue : ∀ r ∈ s.txQueue, r < s.nextRequest ∧ Framed p (s.requests r).bytes ∧
    (s.state = .waitingHandshake → IsHandshakeFrame p (s.requests r).bytes)
  closed : s.isConnected = false → s.txQueue = []
  entries : EntriesFramed p s.reliableSender

section Gate

open ControllerCore

variable {p} {s s' core : ControllerCore} {ok : Controller.Allowed}

theorem Verified.gained {P : HistoryEvent → Prop} {connection : Connection}
    {history history' : List HistoryEvent} (h : Verified p connection history)
    (hg : Gained P history history') : Verified p connection history' := by
  obtain ⟨state, pkt, hmem, hpkt⟩ := h
  exact ⟨state, pkt, hg.mem hmem, hpkt⟩

theorem gated_of_noWrite {e : HistoryEvent} (h : e.NoWrite) (older : List HistoryEvent) :
    Gated p e older := by
  rintro request connection bytes rfl
  exact h.elim

theorem noWrite_of_silent {e : HistoryEvent} (h : ControllerCore.Noted e) : e.NoWrite := by
  cases e <;> trivial

/-- Whatever touches neither the queue nor the connection keeps the invariant. -/
theorem GateInv.congr (h : GateInv p s) (hqueue : s'.txQueue = s.txQueue)
    (hnext : s'.nextRequest = s.nextRequest)
    (hbytes : ∀ r, (s'.requests r).bytes = (s.requests r).bytes)
    (hport : s'.portState = s.portState)
    (hsender : Changes p s.reliableSender s'.reliableSender)
    (hg : Gained HistoryEvent.NoWrite s.history s'.history) : GateInv p s' := by
  have hstate : s'.state = s.state := congrArg PortState.state hport
  have hconnected : s'.isConnected = s.isConnected := congrArg PortState.isConnected hport
  refine ⟨h.gated.gained hg fun e older he => gated_of_noWrite he older, ?_, ?_, ?_,
    h.entries.changes hsender⟩
  · rw [hstate, connection_of_line (line_congr hport)]
    exact fun hrunning connection hconn => (h.verified hrunning connection hconn).gained hg
  · intro r hr
    rw [hqueue] at hr
    rw [hnext, hbytes, hstate]
    exact h.queue r hr
  · rw [hconnected, hqueue]
    exact h.closed

theorem GateInv.complete (h : GateInv p s) (request : Nat) (success : Bool) :
    GateInv p (complete request success s) := by
  refine h.congr complete_txQueue complete_nextRequest (fun r => ?_) (complete_portState _ _)
    (complete_changes p request success s) ?_
  · rw [complete_requests]
    exact disarm_bytes request r s.requests
  · unfold ControllerCore.complete
    split
    · exact .cons trivial
    · exact .refl _

theorem GateInv.failTxQueue (h : GateInv p s) : GateInv p (failTxQueue s) := by
  refine failTxQueue_keeps (I := GateInv p) (fun request s h => h.complete request false) ?_ h
  intro s h
  exact ⟨h.gated, h.verified, List.forall_mem_nil _, fun _ => rfl, h.entries⟩

/-- After a reset nothing is queued, and there is no connection. -/
theorem GateInv.reset (hrequire : p.requireHandshake = true) (h : GateInv p s) :
    GateInv p (reset p s) := by
  set s₁ : ControllerCore := { s with
    isConnected := false
    connectionGeneration := s.connectionGeneration + 1
    reliableSender :=
      if s.shuttingDown then s.reliableSender.clearAllImpl else s.reliableSender } with hs₁
  have hentries : EntriesFramed p s₁.reliableSender := by
    rw [hs₁]
    simp only
    split_ifs
    · exact fun _ => List.forall_mem_nil _
    · exact h.entries
  -- the connection of the intermediate state does not matter: it is closed at the end
  have hfailed := failTxQueue_keeps (s := s₁) (I := fun s' =>
      Recorded (Gated p) s'.history ∧ EntriesFramed p s'.reliableSender)
    (fun request s' hs' => by
      refine ⟨hs'.1.gained (P := HistoryEvent.NoWrite) ?_ fun e older he => gated_of_noWrite he older,
        hs'.2.changes (complete_changes p request false s')⟩
      unfold ControllerCore.complete
      split
      · exact .cons trivial
      · exact .refl _)
    (fun s' hs' => hs') ⟨h.gated, hentries⟩
  have hstate : (ControllerCore.reset p s).state = .waitingHandshake := by
    have hport := congrArg PortState.state (reset_portState (p := p) (s := s))
    show (ControllerCore.reset p s).portState.state = _
    rw [hport, PortState.reset, hrequire]
    rfl
  refine ⟨hfailed.1, fun hrunning => ?_, List.forall_mem_nil _, fun _ => rfl, hfailed.2⟩
  rw [hstate] at hrunning
  cases hrunning

theorem GateInv.connect (hrequire : p.requireHandshake = true) (h : GateInv p s)
    (hconn : s.isConnected = false) : GateInv p (connect p s) := by
  refine ⟨h.gated, fun hrunning => ?_, ?_, fun _ => h.closed hconn, h.entries⟩
  · have hstate : (ControllerCore.connect p s).state = .waitingHandshake := if_pos hrequire
    rw [hstate] at hrunning
    cases hrunning
  · show ∀ r ∈ s.txQueue, _
    rw [h.closed hconn]
    exact List.forall_mem_nil _

/-- A frame that comes in. -/
theorem GateInv.submit (h : GateInv p s) (bytes : List UInt8) (completion : Option SendCompletion)
    (origin : Option (UInt8 × Nat)) : GateInv p (submit bytes completion origin s) := by
  refine ⟨⟨?_, h.gated⟩, fun hrunning connection hconn => ?_, fun r hr => ?_, h.closed, h.entries⟩
  · rintro request connection bytes ⟨⟩
  · have hverified := h.verified hrunning connection hconn
    obtain ⟨state, pkt, hmem, hpkt⟩ := hverified
    exact ⟨state, pkt, List.mem_cons_of_mem _ hmem, hpkt⟩
  · obtain ⟨hlt, hframe⟩ := h.queue r hr
    have hsame : (ControllerCore.submit bytes completion origin s).requests r = s.requests r :=
      Function.update_of_ne (Nat.ne_of_lt hlt) ..
    rw [hsame]
    exact ⟨Nat.lt_succ_of_lt hlt, hframe⟩

/-- The front request is handed over: the state says what it may be. -/
theorem GateInv.handOver (h : GateInv p s) {request : Nat} {rest : List Nat} {port : SerialPort}
    (hqueue : s.txQueue = request :: rest) (hport : s.serialPort = some port) :
    GateInv p (handOver request port.id s) := by
  have hconnection : s.connection = some ⟨port.id, s.connectionGeneration⟩ := by
    rw [connection, hport]
    rfl
  obtain ⟨-, -, hwaiting⟩ := h.queue request (by rw [hqueue]; exact List.mem_cons_self)
  have hgated : Gated p (.writeStarted request ⟨port.id, s.connectionGeneration⟩
      (s.requests request).bytes) s.history := by
    rintro request' connection bytes heq
    obtain ⟨rfl, rfl, rfl⟩ := HistoryEvent.writeStarted.inj heq
    cases hstate : s.state with
    | waitingHandshake => exact .inl (hwaiting hstate)
    | running => exact .inr (h.verified hstate _ hconnection)
  refine ⟨⟨hgated, h.gated⟩, fun hrunning connection hconn => ?_, h.queue, h.closed, h.entries⟩
  obtain ⟨state, pkt, hmem, hpkt⟩ := h.verified hrunning connection hconn
  exact ⟨state, pkt, List.mem_cons_of_mem _ hmem, hpkt⟩

theorem GateInv.startsNext (hrequire : p.requireHandshake = true) (h : GateInv p s)
    (hnext : StartsNext p s s') : GateInv p s' := by
  cases hnext with
  | idle => exact h
  | gone => exact h.failTxQueue
  | begin hqueue _ _ hport =>
    have hover := h.handOver hqueue hport
    exact ⟨hover.gated, hover.verified, hover.queue, hover.closed, hover.entries⟩
  | fails hqueue _ _ hport => exact (h.handOver hqueue hport).reset hrequire

/-- The end of a write leaves the gate alone. -/
theorem GateInv.endWrite (h : GateInv p s) (write : PendingWrite) (result : IoResult) (index : Nat) :
    GateInv p (noteWrite write result (dropWrite index s)) := by
  have htx := noteWrite_txState (s := dropWrite index s) write result
  have hport := noteWrite_portState (s := dropWrite index s) write result
  refine h.congr (congrArg TxState.txQueue htx) (congrArg TxState.nextRequest htx) (fun r => ?_)
    hport ?_ ?_
  · exact congrArg (fun tx => (tx.requests r).bytes) htx
  · unfold noteWrite
    split_ifs <;> exact .refl
  · unfold noteWrite
    split_ifs
    · exact .cons trivial
    · exact .refl _

theorem GateInv.finishWrite (h : GateInv p s) (request : Nat) (success : Bool) :
    GateInv p (finishWrite request success s) := by
  refine GateInv.complete (s := { s with
    txWriteInProgress := false
    txQueue := if s.txQueue.head? = some request then s.txQueue.tail else s.txQueue }) ?_ request success
  refine ⟨h.gated, h.verified, fun r hr => h.queue r ?_, fun hconn => ?_, h.entries⟩
  · simp only at hr
    split_ifs at hr
    · exact List.mem_of_mem_tail hr
    · exact hr
  · simp only
    rw [h.closed hconn]
    rfl

/-- A handler of the reliable sender. -/
theorem GateInv.op {req : Option SendRequest} (h : GateInv p s) (hop : SenderOp p s core req) :
    GateInv p core ∧ ∀ r ∈ req, Framed p r.bytes := by
  obtain ⟨hchanges, hreq⟩ := hop.changes
  have htx := hop.txState
  have hcore : GateInv p core := by
    refine h.congr (congrArg TxState.txQueue htx) (congrArg TxState.nextRequest htx) (fun r => ?_)
      hop.portState hchanges ?_
    · exact congrArg (fun tx => (tx.requests r).bytes) htx
    · exact hop.gained.mono fun e he => by cases e <;> trivial
  refine ⟨hcore, fun r hr => ?_⟩
  obtain ⟨key, entry, rest, hq, -, rfl⟩ := hreq r hr
  exact hcore.entries key entry (by rw [hq]; exact List.mem_cons_self)

theorem GateInv.offer {bytes : List UInt8} {completion : Option SendCompletion}
    {origin : Option (UInt8 × Nat)} (h : GateInv p s)
    (hoffer : Offer p s core bytes completion origin) : GateInv p core ∧ Framed p bytes := by
  cases hoffer with
  | plain id data => exact ⟨h, id, data, pack_eq_frame p id data⟩
  | reliable hop =>
    obtain ⟨hcore, hframed⟩ := h.op hop
    exact ⟨hcore, hframed _ rfl⟩

/-- What passes the gate before the handshake is a Handshake frame. -/
theorem isHandshakeFrame_of_not_blocked (hrequire : p.requireHandshake = true)
    (hstate : s.state = .waitingHandshake) {bytes : List UInt8} (hframed : Framed p bytes)
    (hblocked : s.blockedBeforeHandshake p bytes = false) : IsHandshakeFrame p bytes := by
  obtain ⟨id, payload, rfl⟩ := hframed
  have hid : (frame p id payload)[2]? = some id := rfl
  unfold blockedBeforeHandshake at hblocked
  rw [hrequire, hstate, hid] at hblocked
  have hid : id = packetIdHandshake := by simpa using hblocked
  exact ⟨payload, by rw [hid]⟩

theorem GateInv.accept (hrequire : p.requireHandshake = true) (h : GateInv p s) {bytes : List UInt8}
    (hframed : Framed p bytes) (hconn : s.isConnected = true)
    (hblocked : s.blockedBeforeHandshake p bytes = false) (completion : Option SendCompletion)
    (origin : Option (UInt8 × Nat)) :
    GateInv p ((s.submit bytes completion origin).accept s.nextRequest) := by
  have hsubmit := h.submit bytes completion origin
  refine ⟨⟨?_, hsubmit.gated⟩, fun hrunning connection hconn => ?_, fun r hr => ?_, fun hgone => ?_,
    h.entries⟩
  · rintro request connection bytes ⟨⟩
  · obtain ⟨state, pkt, hmem, hpkt⟩ := hsubmit.verified hrunning connection hconn
    exact ⟨state, pkt, List.mem_cons_of_mem _ hmem, hpkt⟩
  · rcases List.mem_append.mp hr with hr | hr
    · exact hsubmit.queue r hr
    · obtain rfl := List.mem_singleton.mp hr
      have hself : ((s.submit bytes completion origin).accept s.nextRequest).requests s.nextRequest =
          ⟨bytes, completion, origin⟩ := Function.update_self ..
      rw [hself]
      exact ⟨Nat.lt_succ_self s.nextRequest, hframed,
        fun hstate => isHandshakeFrame_of_not_blocked hrequire hstate hframed hblocked⟩
  · have hgone : s.isConnected = false := hgone
    rw [hconn] at hgone
    cases hgone

/-- **Every move keeps the gate.** -/
theorem GateInv.move (hrequire : p.requireHandshake = true)
    (hignore : p.ignoreVersionMismatch = false) (h : GateInv p s) (hmove : CoreMove p ok s s') :
    GateInv p s' := by
  cases hmove with
  | same => exact h
  | note event hevent =>
    exact h.congr rfl rfl (fun _ => rfl) rfl .refl (.cons (noWrite_of_silent hevent))
  | @handshake pkt hstate hpkt =>
    have hhash : p.member 0 pkt = p.protocolHash := by
      by_contra hne
      have hclass := hpkt.hash
      unfold classifyHandshakeValidation at hclass
      rw [if_neg (Ne.symm hne), hignore] at hclass
      exact hclass rfl
    refine ⟨⟨?_, h.gated⟩, fun _ connection hconn => ?_, fun r hr => ?_, h.closed, h.entries⟩
    · rintro request connection bytes ⟨⟩
    · have hconn : s.connection = some connection := hconn
      refine ⟨s.state, pkt, ?_, hpkt, hhash⟩
      show HistoryEvent.received (some connection) s.state pkt ∈ .received s.connection s.state pkt :: _
      rw [hconn]
      exact List.mem_cons_self
    · obtain ⟨hlt, hframed, -⟩ := h.queue r hr
      exact ⟨hlt, hframed, by rintro ⟨⟩⟩
  | expire hexpire =>
    exact h.congr rfl rfl (fun _ => rfl) rfl (.single (change_expire hexpire)) (.refl _)
  | op hop => exact (h.op hop).1
  | @rejected core bytes completion origin hoffer =>
    have hsubmit := (h.offer hoffer).1.submit bytes completion origin
    refine GateInv.complete (s := note (.rejected core.nextRequest)
      (core.submit bytes completion origin)) ?_ core.nextRequest false
    exact hsubmit.congr rfl rfl (fun _ => rfl) rfl .refl (.cons trivial)
  | accepted hoffer hconn _ hblocked _ hnext =>
    obtain ⟨hcore, hframed⟩ := h.offer hoffer
    exact (hcore.accept hrequire hframed hconn hblocked _ _).startsNext hrequire hnext
  | writeStale _ _ result => exact h.endWrite _ result _
  | writeDone _ _ hnext => exact ((h.endWrite _ _ _).finishWrite _ _).startsNext hrequire hnext
  | @writeFails index write =>
    exact ((h.endWrite write .failure index).finishWrite write.request false).reset hrequire
  | @writeAborted index write =>
    exact (h.endWrite write .operationAborted index).finishWrite write.request false
  | reset => exact h.reset hrequire

theorem gate_invariant (hrequire : p.requireHandshake = true)
    (hignore : p.ignoreVersionMismatch = false) : CoreInvariant p ok (GateInv p) where
  initial := by
    refine ⟨trivial, fun hrunning => ?_, List.forall_mem_nil _, fun _ => rfl,
      fun _ => List.forall_mem_nil _⟩
    have hstate : (ControllerCore.new p).state = .waitingHandshake := if_pos hrequire
    rw [hstate] at hrunning
    cases hrunning
  move h hmove := h.move hrequire hignore hmove
  connect h hconn := h.connect hrequire hconn

end Gate

-- ---------------------------------------------------------------------------
-- New connections
-- ---------------------------------------------------------------------------

namespace Controller

variable {p} {throws : Nat → Bool} {s s' : Controller} {ok : Allowed}

/-- Nothing is queued, and no byte is left in the ring. -/
structure Fresh (s : Controller) : Prop where
  txQueue : s.txQueue = []
  ring : s.packetHandler.head = s.packetHandler.tail

/-- Moves keep the connection or close it. -/
theorem moves_connection (h : Moves p ok s s') :
    s'.connection = s.connection ∨ s'.connection = none := by
  induction h with
  | refl => exact .inl rfl
  | @tail s₁ s₂ _ hmove ih =>
    have hconnection : ∀ s : Controller, s.connection = s.portState.serialPort.map fun port =>
        ⟨port.id, s.portState.connectionGeneration⟩ := fun _ => rfl
    rw [hconnection s₂]
    rcases hmove.portState with ⟨hport, -⟩ | ⟨hport, -⟩ | ⟨-, -, -, -, hport, -⟩
    · rw [hport, ← hconnection]
      exact ih
    · rw [hport]
      exact .inr rfl
    · rw [hport]
      exact ih

/-- Any event but the connection check is a sequence of moves. -/
theorem step_moves {event : ControllerEvent} (hposted : ∀ task ∈ s.posted, task.Packed p)
    (hcheck : ∀ index now, event = .run index now → s.posted[index]? ≠ some .checkConnection)
    (hstep : step p throws s event = some s') : Moves p .all s s' := by
  cases event with
  | run index now =>
    simp only [step] at hstep
    split at hstep
    · next task htask =>
      obtain rfl := Option.some.inj hstep
      have hpacked : task.Packed p := hposted task (List.mem_of_getElem? htask)
      refine .head (.take index trivial) ?_
      cases task with
      | checkConnection => exact absurd htask (hcheck index now rfl)
      | heartbeatTimer => exact moves_handleHeartbeatTimer now _
      | asyncSend bytes =>
        obtain ⟨id, data, rfl⟩ := hpacked
        exact moves_plain id data
      | reliableSend id bytes =>
        obtain ⟨data, rfl⟩ := hpacked
        exact moves_senderSend id data
      | retryTimeout key seq => exact moves_senderRetryTimeout key seq
      | serialOpsDrained => exact .refl
    · cases hstep
  | connectionTimer =>
    obtain rfl := Option.some.inj hstep
    exact .single (.post _ trivial (by rintro ⟨⟩))
  | heartbeatTimer =>
    obtain rfl := Option.some.inj hstep
    exact .single (.post _ trivial (by rintro ⟨⟩))
  | sendPacket id data =>
    obtain rfl := Option.some.inj hstep
    exact moves_sendPacket id data
  | reliableSend id data =>
    obtain rfl := Option.some.inj hstep
    exact .single (.post _ ⟨data, rfl⟩ (by rintro ⟨⟩))
  | retryTimer key index =>
    simp only [step] at hstep
    split at hstep
    · next hexp =>
      obtain rfl := Option.some.inj hstep
      exact .single (.expire hexp trivial)
    · cases hstep
  | readDone index result data =>
    simp only [step] at hstep
    split at hstep
    · next read hread =>
      split_ifs at hstep
      obtain rfl := Option.some.inj hstep
      exact moves_handleReceive hread fun _ _ _ =>
        moves_ingestReceivedBytes (fun _ _ _ => trivial) data _
    · cases hstep
  | writeDone index result =>
    simp only [step] at hstep
    split at hstep
    · next hwrite =>
      obtain rfl := Option.some.inj hstep
      exact moves_handleWrite hwrite fun _ _ => trivial
    · cases hstep

theorem startReceive_fresh (h : Fresh s) : Fresh (startReceive p throws s) ∨
    (startReceive p throws s).connection = none := by
  unfold startReceive
  split
  · exact .inl h
  · split_ifs
    · exact .inl h
    · simp only [attempt]
      cases throws s.attempts with
      | true =>
        refine .inr ?_
        rw [resetSerial_core]
        rfl
      | false => exact .inl ⟨h.txQueue, h.ring⟩

theorem resetSerial_packetHandler : (resetSerial p s).packetHandler = s.packetHandler.reset := by
  unfold resetSerial notifySerialOpsDrained publishReady
  simp only
  split_ifs <;> rfl

theorem reconnect_fresh : Fresh (reconnect p s) := by
  constructor
  · rw [reconnect_core]
    rfl
  · have hhandler : (reconnect p s).packetHandler = (resetSerial p s).packetHandler := by
      unfold reconnect publishReady
      simp only
      split_ifs <;> rfl
    rw [hhandler, resetSerial_packetHandler]
    rfl

/-- What `check_connection_impl` opens is fresh. -/
theorem checkConnectionImpl_fresh :
    (checkConnectionImpl p throws s).connection = s.connection ∨
      (checkConnectionImpl p throws s).connection = none ∨ Fresh (checkConnectionImpl p throws s) := by
  have hreset : ∀ s : Controller, (resetSerial p s).connection = none := by
    intro s
    rw [resetSerial_core]
    rfl
  unfold checkConnectionImpl
  by_cases hconn : s.isConnected = true
  · rw [if_pos hconn]
    split_ifs
    · exact .inl rfl
    · exact .inr (.inl (hreset s))
  · rw [if_neg hconn, attempt, resetSerial_attempts]
    cases throws (resetSerial p s).attempts with
    | true => exact .inr (.inl (hreset _))
    | false =>
      set s₁ : Controller := { s with attempts := s.attempts + 1 }
      have hstart : Fresh (startReceive p throws (reconnect p s₁)) ∨
          (startReceive p throws (reconnect p s₁)).connection = none :=
        startReceive_fresh reconnect_fresh
      right
      show (if p.requireHandshake = true
        then sendPacket p packetIdHandshake (systemPayload p packetIdHandshake p.protocolHash)
          (startReceive p throws (reconnect p s₁))
        else startReceive p throws (reconnect p s₁)).connection = none ∨
          Fresh (if p.requireHandshake = true
            then sendPacket p packetIdHandshake (systemPayload p packetIdHandshake p.protocolHash)
              (startReceive p throws (reconnect p s₁))
            else startReceive p throws (reconnect p s₁))
      generalize startReceive p throws (reconnect p s₁) = s₂ at hstart
      have hpost : ∀ task, (postSerial task s₂).connection = s₂.connection ∧
          (Fresh s₂ → Fresh (postSerial task s₂)) := by
        intro task
        unfold postSerial
        split_ifs
        · exact ⟨rfl, id⟩
        · exact ⟨rfl, fun h => ⟨h.txQueue, h.ring⟩⟩
      split_ifs
      · exact hstart.symm.imp (fun h => (hpost _).1.trans h) (hpost _).2
      · exact hstart.symm

end Controller

-- ---------------------------------------------------------------------------
-- The result
-- ---------------------------------------------------------------------------

open Controller

variable {p} {throws : Nat → Bool} {s : Controller}

/-- **No unverified peer is ever sent a business frame.** What was written on a connection before a
matching Handshake packet was received on it is a Handshake frame, and so is everything queued in
`WAITING_HANDSHAKE`; a new connection starts with an empty queue and an empty ring. -/
theorem no_unverified_write (hrequire : p.requireHandshake = true)
    (hignore : p.ignoreVersionMismatch = false) (h : (controllerMachine p throws).Reachable s) :
    Recorded (Gated p) s.history ∧
    (s.state = .waitingHandshake → ∀ r ∈ s.txQueue, IsHandshakeFrame p (s.requests r).bytes) ∧
    ∀ event s', (controllerMachine p throws).step s event = some s' →
      s'.connection = s.connection ∨ s'.connection = none ∨ Fresh s' := by
  have hinvariant : CoreInvariant p .all (GateInv p) := gate_invariant hrequire hignore
  obtain ⟨hgate, hposted⟩ := hinvariant.controller.reachable (P := fun _ _ => True)
    (fun _ _ _ => permitted_all _ _) h
  refine ⟨hgate.gated, fun hstate r hr => (hgate.queue r hr).2.2 hstate, fun event s' hstep => ?_⟩
  by_cases hcheck : ∃ index now, event = .run index now ∧ s.posted[index]? = some .checkConnection
  · obtain ⟨index, now, rfl, htask⟩ := hcheck
    have hstep : step p throws s (.run index now) = some s' := hstep
    simp only [step, htask, Option.some.injEq] at hstep
    obtain rfl := hstep
    exact checkConnectionImpl_fresh
  · refine (moves_connection (step_moves hposted ?_ hstep)).imp_right .inl
    exact fun index now hevent htask => hcheck ⟨index, now, hevent, htask⟩

/-- A reconnect before anything was verified. -/
theorem no_unverified_write_demo : ∃ s, demoRun demoProtocol (reconnectedEvents demoProtocol) = some s ∧
    s.state = .waitingHandshake ∧ Recorded (Gated demoProtocol) s.history := by
  have hrun : (demoRun demoProtocol (reconnectedEvents demoProtocol)).map (·.state) =
      some .waitingHandshake := by decide +kernel
  obtain ⟨s, hs, hstate⟩ := Option.map_eq_some_iff.mp hrun
  exact ⟨s, hs, hstate, (no_unverified_write rfl rfl (reachable_of_demoRun hs)).1⟩

end AutoSerialBridge
