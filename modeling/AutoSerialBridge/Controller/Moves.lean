import AutoSerialBridge.Controller.Handlers
import Mathlib

/-!
# Auto Serial Bridge — what a task of the strand can do

Every handler of `SerialController` is a sequence of moves (`Move`): the changes of the state between
which its invariants hold. A move says what it changes and under which guards the source gets there.
Whatever every move keeps, every event keeps (`ControllerInvariant.step`).

A connection is taken up by `reconnect`, which is not a move: it always starts from a reset.

`Allowed` restricts the moves, for results about runs in which something does not happen (a Handshake
packet accepted in some states, a write of the current connection aborted), and for results about what
happens within one task.

## Results

* `moves_handleWrite`, `moves_handleReceive`, … — one lemma a handler.
* `step_moves` — **what an event does**.
-/

namespace AutoSerialBridge

open Lib Relation

variable (p : Protocol)

-- ---------------------------------------------------------------------------
-- Requests
-- ---------------------------------------------------------------------------

/-- A handler of the reliable sender, with the request it ends with. -/
inductive SenderOp (s : ControllerCore) : ControllerCore → Option SendRequest → Prop where
  | send (id : UInt8) (data : List UInt8) :
    SenderOp s (s.updateSender (ReliableSender.sendImpl p s.reliableSender id (pack p id data)))
      (ReliableSender.sendImpl p s.reliableSender id (pack p id data)).2
  | timeout (key seq : UInt8) :
    SenderOp s (s.updateSender (ReliableSender.handleRetryTimeout p s.reliableSender key seq))
      (ReliableSender.handleRetryTimeout p s.reliableSender key seq).2
  | ack (ackedId ackSeq : UInt8) :
    SenderOp s (s.updateAcked p ackedId ackSeq)
      (ReliableSender.onAckReceivedImpl p s.reliableSender ackedId ackSeq).2

/-- A call of `async_send_impl`: a plain frame, or the request of the reliable sender. -/
inductive Offer (s : ControllerCore) : ControllerCore → List UInt8 → Option SendCompletion →
    Option (UInt8 × Nat) → Prop where
  | plain (id : UInt8) (data : List UInt8) : Offer s s (pack p id data) none none
  | reliable {core : ControllerCore} {req : SendRequest} (h : SenderOp p s core (some req)) :
    Offer s core req.bytes (some req.completion) (some (req.completion.key, req.number))

/-- The frames of a posted task are packed. -/
def StrandTask.Packed : StrandTask → Prop
  | .asyncSend bytes => ∃ id data, bytes = pack p id data
  | .reliableSend id bytes => ∃ data, bytes = pack p id data
  | _ => True

namespace Controller

/-- A core in the place of the old one. -/
def withCore (core : ControllerCore) (s : Controller) : Controller :=
  { s with toControllerCore := core }

/-- `start_next_write`, case by case. -/
inductive StartNext (s : Controller) : Controller → Prop where
  | idle (h : s.txQueue = [] ∨ s.txWriteInProgress = true) : StartNext s s
  | gone (hqueue : s.txQueue ≠ [])
      (h : s.isConnected = false ∨ ∀ port, s.serialPort = some port → port.isOpen = false) :
    StartNext s (onCore ControllerCore.failTxQueue s)
  | begin (request : Nat) (rest : List Nat) (port : SerialPort) (hqueue : s.txQueue = request :: rest)
      (hidle : s.txWriteInProgress = false) (hconn : s.isConnected = true)
      (hport : s.serialPort = some port) (hopen : port.isOpen = true) :
    StartNext s (onCore (ControllerCore.beginWrite request port.id)
      { s with pendingSerialOps := s.pendingSerialOps + 1, attempts := s.attempts + 1 })
  | fails (request : Nat) (rest : List Nat) (port : SerialPort) (hqueue : s.txQueue = request :: rest)
      (hidle : s.txWriteInProgress = false) (hconn : s.isConnected = true)
      (hport : s.serialPort = some port) (hopen : port.isOpen = true) :
    StartNext s (resetSerial p (completeSerialOp (onCore (ControllerCore.handOver request port.id)
      { s with pendingSerialOps := s.pendingSerialOps + 1, attempts := s.attempts + 1 })))

/-- A write has ended: its handler is gone, and so is its operation. -/
def endWrite (index : Nat) (write : PendingWrite) (result : IoResult) (s : Controller) :
    Controller :=
  onCore (ControllerCore.noteWrite write result)
    (completeSerialOp { s with writes := s.writes.eraseIdx index })

/-- `tx_packet_count_++`. -/
def countSent (s : Controller) : Controller := { s with txPacketCount := s.txPacketCount + 1 }

/-- `process_handshake` accepts. -/
def acceptHandshake (s : Controller) : Controller :=
  publishReady true { s with
    state := .running
    heartbeatCount := 0
    lastHeartbeatTxCount := 0
    awaitingHeartbeatAck := false }

/-- The members of a new heartbeat. -/
def startHeartbeat (now : Int) (s : Controller) : Controller :=
  { onCore (ControllerCore.note (.heartbeatSent s.connection s.heartbeatCount now)) s with
    heartbeatCount := s.heartbeatCount + 1
    lastHeartbeatTxCount := s.heartbeatCount
    awaitingHeartbeatAck := true
    heartbeatAckWaitStartedAt := now }

/-- A Handshake packet that `process_handshake` accepts. -/
structure AcceptedHandshake (pkt : Packet) : Prop where
  id : pkt.id = packetIdHandshake
  size : pkt.payload.length = p.sizeofPacket packetIdHandshake
  hash : classifyHandshakeValidation p.protocolHash (p.member 0 pkt) p.ignoreVersionMismatch ≠
    .rejectedMismatch

/-- A Heartbeat packet with a count. -/
structure IsEcho (pkt : Packet) (count : UInt32) : Prop where
  id : pkt.id = packetIdHeartbeat
  size : pkt.payload.length = p.sizeofPacket packetIdHeartbeat
  count : p.member 0 pkt = count

/-- What may happen: the states in which a Handshake packet may be accepted, whether a write of the
current connection may be aborted, and whether a task may be taken and a timer may expire. -/
structure Allowed where
  handshake : Controller → Packet → Prop
  abort : Prop
  turn : Prop

def Allowed.all : Allowed := ⟨fun _ _ => True, True, True⟩

/-- A change of the state between two points at which the invariants hold. -/
inductive Move (ok : Allowed) (s : Controller) : Controller → Prop where
  /-- Work that decides nothing: parsing, dispatching, counting. -/
  | quiet (packetHandler : PacketHandler) (attempts : Nat) (dispatched : List (UInt8 × List UInt8)) :
    Move ok s { s with
      packetHandler := packetHandler, attempts := attempts, dispatched := dispatched }
  | post (task : StrandTask) (htask : task.Packed p) (hpost : task ≠ .serialOpsDrained) :
    Move ok s (postSerial task s)
  | take (index : Nat) (hok : ok.turn) : Move ok s { s with posted := s.posted.eraseIdx index }
  | expire {key seq : UInt8} {index : Nat} {sender : ReliableSender}
      (h : s.reliableSender.expire key index = some (sender, seq)) (hok : ok.turn) :
    Move ok s { s with
      reliableSender := sender, posted := s.posted ++ [.retryTimeout key seq] }
  -- packets
  | receive {pkt : Packet}
      (hecho : s.state = .running → ¬ IsEcho p pkt s.lastHeartbeatTxCount) :
    Move ok s (onCore (ControllerCore.receive pkt) s)
  | echo {pkt : Packet} (hstate : s.state = .running) (hecho : IsEcho p pkt s.lastHeartbeatTxCount) :
    Move ok s { onCore (ControllerCore.receive pkt) s with awaitingHeartbeatAck := false }
  | handshake {pkt : Packet} (hstate : s.state ≠ .running) (hpkt : AcceptedHandshake p pkt)
      (hok : ok.handshake s pkt) : Move ok s (acceptHandshake (onCore (ControllerCore.receive pkt) s))
  -- requests
  | op {core : ControllerCore} (h : SenderOp p s.toControllerCore core none) :
    Move ok s (withCore core s)
  | rejected {core : ControllerCore} {bytes : List UInt8} {completion : Option SendCompletion}
      {origin : Option (UInt8 × Nat)} (h : Offer p s.toControllerCore core bytes completion origin) :
    Move ok s (withCore ((core.submit bytes completion origin).reject core.nextRequest) s)
  | accepted {core : ControllerCore} {bytes : List UInt8} {completion : Option SendCompletion}
      {origin : Option (UInt8 × Nat)} {s' : Controller}
      (h : Offer p s.toControllerCore core bytes completion origin)
      (hconn : core.isConnected = true) (hopen : core.portOpen = true)
      (hblocked : core.blockedBeforeHandshake p bytes = false)
      (hroom : core.txQueue.length < maxTxQueueSize)
      (hnext : StartNext p
        (withCore ((core.submit bytes completion origin).accept core.nextRequest) s) s') :
    Move ok s s'
  -- operations
  | readEnds {index : Nat} (hindex : index < s.reads.length) :
    Move ok s (completeSerialOp { s with reads := s.reads.eraseIdx index })
  | readStarts (port : SerialPort) (hconn : s.isConnected = true) (hport : s.serialPort = some port)
      (hopen : port.isOpen = true) :
    Move ok s { s with
      pendingSerialOps := s.pendingSerialOps + 1
      attempts := s.attempts + 1
      reads := s.reads ++ [⟨port.id, s.connectionGeneration⟩] }
  | readFails (hconn : s.isConnected = true) :
    Move ok s (resetSerial p (completeSerialOp { s with
      pendingSerialOps := s.pendingSerialOps + 1, attempts := s.attempts + 1 }))
  | writeStale {index : Nat} {write : PendingWrite} (hwrite : s.writes[index]? = some write)
      (hstale : s.isCurrent write.port write.generation = false) (result : IoResult) :
    Move ok s (endWrite index write result s)
  | writeDone {index : Nat} {write : PendingWrite} {s' : Controller}
      (hwrite : s.writes[index]? = some write)
      (hcurrent : s.isCurrent write.port write.generation = true)
      (hnext : StartNext p (countSent (onCore (ControllerCore.finishWrite write.request true)
        (endWrite index write .success s))) s') :
    Move ok s s'
  | writeFails {index : Nat} {write : PendingWrite} (hwrite : s.writes[index]? = some write)
      (hcurrent : s.isCurrent write.port write.generation = true) :
    Move ok s (resetSerial p (onCore (ControllerCore.finishWrite write.request false)
      (endWrite index write .failure s)))
  | writeAborted {index : Nat} {write : PendingWrite} (hwrite : s.writes[index]? = some write)
      (hcurrent : s.isCurrent write.port write.generation = true) (hok : ok.abort) :
    Move ok s (onCore (ControllerCore.finishWrite write.request false)
      (endWrite index write .operationAborted s))
  -- connections and heartbeats
  | reset : Move ok s (resetSerial p s)
  | heartbeat (now : Int) (hconn : s.isConnected = true) (hstate : s.state = .running)
      (hwindow : p.heartbeatTimeoutMs ≤ 0 ∨ s.awaitingHeartbeatAck = false ∨
        p.strictHeartbeat = false ∧ p.heartbeatTimeoutMs < elapsedMs s.heartbeatAckWaitStartedAt now) :
    Move ok s (startHeartbeat now s)
  | resend (now : Int) (hconn : s.isConnected = true) (hstate : s.state = .running)
      (hawaiting : s.awaitingHeartbeatAck = true) :
    Move ok s
      (onCore (ControllerCore.note (.heartbeatResent s.connection s.lastHeartbeatTxCount now)) s)

/-- A sequence of moves. -/
def Moves (ok : Allowed) : Controller → Controller → Prop :=
  ReflTransGen (Move p ok)

/-- `check_connection_impl` opens the port: a reset, then the new connection. -/
def reconnect (s : Controller) : Controller :=
  let s := { onCore (ControllerCore.connect p) (resetSerial p s) with shutdownRequested := false }
  if p.requireHandshake then s else publishReady true s

-- ---------------------------------------------------------------------------
-- The handlers
-- ---------------------------------------------------------------------------

variable {p} {ok : Allowed} {throws : Nat → Bool} {s s' : Controller}

theorem startNextWrite_spec (s : Controller) : StartNext p s (startNextWrite p throws s) := by
  unfold startNextWrite
  split
  · next hqueue => exact .idle (.inl hqueue)
  · next request rest hqueue =>
    have hne : s.txQueue ≠ [] := by simp [hqueue]
    split_ifs with hprogress
    · exact .idle (.inr hprogress)
    · have hidle : s.txWriteInProgress = false := by simpa using hprogress
      split
      · next hport => exact .gone hne (.inr (by simp [hport]))
      · next port hport =>
        split_ifs with hgone
        · refine .gone hne (hgone.imp_right fun h port' hport' => ?_)
          obtain rfl := Option.some.inj (hport.symm.trans hport')
          exact h
        · rw [not_or, Bool.not_eq_false, Bool.not_eq_false] at hgone
          simp only [attempt]
          cases throws s.attempts with
          | true => exact .fails request rest port hqueue hidle hgone.1 hport hgone.2
          | false => exact .begin request rest port hqueue hidle hgone.1 hport hgone.2

/-- `async_send_impl`, called with an offer. -/
theorem moves_asyncSendImpl {core : ControllerCore} {bytes : List UInt8}
    {completion : Option SendCompletion} {origin : Option (UInt8 × Nat)}
    (h : Offer p s.toControllerCore core bytes completion origin) :
    Moves p ok s (asyncSendImpl p throws bytes completion origin (withCore core s)) := by
  have hrejected : Moves p ok s
      (withCore ((core.submit bytes completion origin).reject core.nextRequest) s) :=
    .single (.rejected h)
  unfold asyncSendImpl
  simp only
  split_ifs with hconn hopen hblocked hroom
  · exact hrejected
  · exact hrejected
  · exact hrejected
  · exact hrejected
  · simp only [attempt]
    cases throws (onCore (ControllerCore.submit bytes completion origin)
        (withCore core s)).attempts with
    | true =>
      exact (hrejected.tail (.quiet s.packetHandler (s.attempts + 1) s.dispatched)).tail .reset
    | false =>
      refine (ReflTransGen.single
        (.quiet s.packetHandler (s.attempts + 1) s.dispatched)).tail ?_
      rw [not_or] at hconn
      exact .accepted h ((Bool.not_eq_false _).mp hconn.1) ((Bool.not_eq_false _).mp hopen)
        ((Bool.not_eq_true _).mp hblocked) (Nat.lt_of_not_le hroom) (startNextWrite_spec _)

/-- The end of a handler of the reliable sender: the call of `send_callback_`, if it makes one. -/
theorem moves_sendCallback {core : ControllerCore} {req : Option SendRequest}
    (h : SenderOp p s.toControllerCore core req) :
    Moves p ok s (sendCallback p throws req (withCore core s)) := by
  cases req with
  | none => exact .single (.op h)
  | some req => exact moves_asyncSendImpl (.reliable h)

theorem moves_plain (id : UInt8) (data : List UInt8) :
    Moves p ok s (asyncSendImpl p throws (pack p id data) none none s) :=
  moves_asyncSendImpl (.plain id data)

theorem moves_senderSend (id : UInt8) (data : List UInt8) :
    Moves p ok s (senderSend p throws id (pack p id data) s) :=
  moves_sendCallback (.send id data)

theorem moves_senderRetryTimeout (key seq : UInt8) :
    Moves p ok s (senderRetryTimeout p throws key seq s) :=
  moves_sendCallback (.timeout key seq)

theorem moves_senderAckReceived (ackedId ackSeq : UInt8) :
    Moves p ok s (senderAckReceived p throws ackedId ackSeq s) :=
  moves_sendCallback (.ack ackedId ackSeq)

@[simp] theorem completeSerialOp_core :
    (completeSerialOp s).toControllerCore = s.toControllerCore := by
  unfold completeSerialOp notifySerialOpsDrained
  simp only
  split_ifs <;> rfl

/-- `handle_write`, entered when its write is no longer pending. -/
theorem moves_handleWrite {index : Nat} {write : PendingWrite} {result : IoResult}
    (hwrite : s.writes[index]? = some write)
    (habort : result = .operationAborted → s.isCurrent write.port write.generation = true →
      ok.abort) :
    Moves p ok s
      (handleWrite p throws write result { s with writes := s.writes.eraseIdx index }) := by
  have hcore : (endWrite index write result s).isCurrent write.port write.generation =
      s.isCurrent write.port write.generation := by
    unfold endWrite onCore ControllerCore.noteWrite
    simp only [completeSerialOp_core]
    split_ifs <;> rfl
  unfold handleWrite
  show Moves p ok s (if (endWrite index write result s).isCurrent write.port write.generation = false
    then endWrite index write result s else _)
  rw [hcore]
  split_ifs with hstale
  · exact .single (.writeStale hwrite hstale result)
  · rw [Bool.not_eq_false] at hstale
    cases result with
    | success => exact .single (.writeDone hwrite hstale (startNextWrite_spec _))
    | operationAborted => exact .single (.writeAborted hwrite hstale (habort rfl hstale))
    | failure => exact .single (.writeFails hwrite hstale)

theorem moves_startReceive : Moves p ok s (startReceive p throws s) := by
  unfold startReceive
  split
  · exact .refl
  · next port hport =>
    split_ifs with hgone
    · exact .refl
    · rw [not_or, Bool.not_eq_false, Bool.not_eq_false] at hgone
      simp only [attempt]
      cases throws s.attempts with
      | true => exact .single (.readFails hgone.1)
      | false => exact .single (.readStarts port hgone.1 hport hgone.2)

/-- What `handle_packet` does with a Handshake packet. -/
theorem handlePacket_handshake {pkt : Packet} (hid : pkt.id = packetIdHandshake) :
    handlePacket p throws pkt s = handleDispatch p pkt (onCore (ControllerCore.receive pkt) s) := by
  have hheartbeat : pkt.id ≠ packetIdHeartbeat := by rw [hid]; decide
  have hack : pkt.id ≠ packetIdAck := by rw [hid]; decide
  simp [handlePacket, handleHeartbeatAck, handleAck, hheartbeat, hack]

/-- A packet of another id is no heartbeat. -/
theorem moves_receive {pkt : Packet} (hid : pkt.id ≠ packetIdHeartbeat) :
    Moves p ok s (onCore (ControllerCore.receive pkt) s) :=
  .single (.receive fun _ hecho => hid hecho.id)

theorem moves_processHandshake {pkt : Packet} (hid : pkt.id = packetIdHandshake)
    (hstate : s.state ≠ .running) (hok : AcceptedHandshake p pkt → s.state ≠ .running → ok.handshake s pkt) :
    Moves p ok s (processHandshake p pkt (onCore (ControllerCore.receive pkt) s)) := by
  have hreceive : Moves p ok s (onCore (ControllerCore.receive pkt) s) :=
    moves_receive (by rw [hid]; decide)
  unfold processHandshake
  split_ifs with hlen
  · exact hreceive
  · rw [not_not] at hlen
    split
    · exact hreceive
    · next hclass =>
      have hpkt : AcceptedHandshake p pkt := ⟨hid, hlen, hclass⟩
      exact .single (.handshake hstate hpkt (hok hpkt hstate))

theorem moves_handlePacket (pkt : Packet) (s : Controller)
    (hok : AcceptedHandshake p pkt → s.state ≠ .running → ok.handshake s pkt) :
    Moves p ok s (handlePacket p throws pkt s) := by
  have hdispatch : ∀ (s : Controller) (id : UInt8) (payload : List UInt8),
      Moves p ok s (dispatchToProtocol id payload s) := fun s id payload =>
    .single (.quiet s.packetHandler s.attempts ((id, payload) :: s.dispatched))
  by_cases hid : pkt.id = packetIdHandshake
  · have hreceive : Moves p ok s (onCore (ControllerCore.receive pkt) s) :=
      moves_receive (by rw [hid]; decide)
    rw [handlePacket_handshake hid]
    unfold handleDispatch
    generalize (if p.isReliablePacket pkt.id then pkt.payload.dropLast else pkt.payload) = payload
    simp only [hid, true_and, if_true]
    split_ifs with hrequire hwaiting hrunning
    · have hstate : s.state ≠ .running := by
        have hwaiting : s.state = .waitingHandshake := hwaiting
        rw [hwaiting]
        decide
      exact (moves_processHandshake hid hstate hok).trans (hdispatch _ _ _)
    · exact hreceive.trans (hdispatch _ _ _)
    · have hstate : s.state ≠ .running := hrunning
      exact (moves_processHandshake hid hstate hok).trans (hdispatch _ _ _)
    · exact hreceive.trans (hdispatch _ _ _)
  · unfold handlePacket
    have hecho : Moves p ok s (handleHeartbeatAck p pkt (onCore (ControllerCore.receive pkt) s)) := by
      unfold handleHeartbeatAck
      split_ifs with h
      · exact .single (.echo h.2.1 ⟨h.1, h.2.2.1, h.2.2.2⟩)
      · exact .single (.receive fun hstate hecho => h ⟨hecho.id, hstate, hecho.size, hecho.count⟩)
    have hack : ∀ s, Moves p ok s (handleAck p throws pkt s) := by
      intro s
      unfold handleAck
      split_ifs
      · exact moves_senderAckReceived _ _
      · exact .refl
    have hrest : ∀ s, Moves p ok s (handleDispatch p pkt s) := by
      intro s
      unfold handleDispatch
      simp only [hid, false_and, if_false]
      split_ifs
      · exact hdispatch _ _ _
      · exact hdispatch _ _ _
      · exact .refl
      · exact hdispatch _ _ _
      · exact hdispatch _ _ _
    exact (hecho.trans (hack _)).trans (hrest _)

/-- `ingest_received_bytes`, when every Handshake packet is allowed. -/
theorem moves_ingestReceivedBytes (hok : ∀ s pkt, AcceptedHandshake p pkt → ok.handshake s pkt)
    (data : List UInt8) (s : Controller) :
    Moves p ok s (ingestReceivedBytes p throws data s) :=
  feedDataWithRecovery_rel (fun _ => .refl) (fun h h' => h.trans h')
    (fun h s => .single (.quiet h s.attempts s.dispatched))
    (fun pkt s => moves_handlePacket pkt s fun hpkt _ => hok s pkt hpkt) data s

/-- `ingest_received_bytes`, when the Handshake packets it comes upon are allowed. -/
theorem moves_ingestReceivedBytes_of_calls {data : List UInt8}
    (hok : ∀ c ∈ consumerCalls packetHandlerAccess p (handlePacket p throws) data s,
      AcceptedHandshake p c.1 → c.2.state ≠ .running → ok.handshake c.2 c.1) :
    Moves p ok s (ingestReceivedBytes p throws data s) :=
  feedDataWithRecovery_rel_of_calls (fun _ => .refl) (fun h h' => h.trans h')
    (fun h s => .single (.quiet h s.attempts s.dispatched))
    (fun c hc => moves_handlePacket c.1 c.2 (hok c hc))

/-- `handle_receive`, entered when its read is no longer pending. -/
theorem moves_handleReceive {index : Nat} {read : PendingRead} {result : IoResult}
    {data : List UInt8} (hread : s.reads[index]? = some read)
    (hingest : result = .success → s.isCurrent read.port read.generation = true → data ≠ [] →
      Moves p ok (completeSerialOp { s with reads := s.reads.eraseIdx index })
        (ingestReceivedBytes p throws data
          (completeSerialOp { s with reads := s.reads.eraseIdx index }))) :
    Moves p ok s
      (handleReceive p throws read result data { s with reads := s.reads.eraseIdx index }) := by
  have hindex : index < s.reads.length := (List.getElem?_eq_some_iff.mp hread).1
  refine (ReflTransGen.single (.readEnds hindex)).trans ?_
  have hcore : (completeSerialOp { s with reads := s.reads.eraseIdx index }).isCurrent read.port
      read.generation = s.isCurrent read.port read.generation := by
    rw [completeSerialOp_core]
  unfold handleReceive
  rw [← hcore] at hingest
  generalize completeSerialOp { s with reads := s.reads.eraseIdx index } = s₁ at hingest ⊢
  cases result with
  | operationAborted =>
    simp only
    split_ifs <;> exact .refl
  | failure =>
    simp only
    split_ifs
    · exact .refl
    · exact .single .reset
  | success =>
    simp only
    split_ifs with hstale _ hempty
    · exact .refl
    · exact .single .reset
    · exact moves_startReceive
    · rw [List.length_eq_zero_iff] at hempty
      exact (hingest rfl ((Bool.not_eq_false _).mp hstale) hempty).trans moves_startReceive

theorem moves_sendPacket (id : UInt8) (data : List UInt8) : Moves p ok s (sendPacket p id data s) :=
  .single (.post _ ⟨id, data, rfl⟩ nofun)

theorem moves_sendHeartbeat {now : Int} (hconn : s.isConnected = true) (hstate : s.state = .running)
    (hwindow : p.heartbeatTimeoutMs ≤ 0 ∨ s.awaitingHeartbeatAck = false ∨
      p.strictHeartbeat = false ∧
        p.heartbeatTimeoutMs < elapsedMs s.heartbeatAckWaitStartedAt now) :
    Moves p ok s (sendHeartbeat p now s) :=
  (ReflTransGen.single (.heartbeat now hconn hstate hwindow)).trans (moves_sendPacket _ _)

theorem moves_handleHeartbeatTimer (now : Int) (s : Controller) :
    Moves p ok s (handleHeartbeatTimer p now s) := by
  unfold handleHeartbeatTimer
  split_ifs with hconn hwaiting hstate hawaiting hwindow hstrict
  · exact .refl
  · exact moves_sendPacket _ _
  · exact .refl
  · rw [Bool.not_eq_false] at hconn
    rw [not_not] at hstate
    exact (ReflTransGen.single (.resend now hconn hstate hawaiting.2)).trans (moves_sendPacket _ _)
  · exact .single .reset
  · rw [Bool.not_eq_false] at hconn
    rw [not_not] at hstate
    have hwin : p.heartbeatTimeoutMs ≤ 0 ∨ s.awaitingHeartbeatAck = false ∨
        p.strictHeartbeat = false ∧
          p.heartbeatTimeoutMs < elapsedMs s.heartbeatAckWaitStartedAt now :=
      .inr (.inr ⟨by simpa using hstrict, Int.lt_of_not_ge hwindow⟩)
    exact moves_sendHeartbeat hconn hstate hwin
  · rw [Bool.not_eq_false] at hconn
    rw [not_not] at hstate
    refine moves_sendHeartbeat hconn hstate ?_
    rcases not_and_or.mp hawaiting with h | h
    · exact .inl (Int.not_lt.mp h)
    · exact .inr (.inl (by simpa using h))

-- ---------------------------------------------------------------------------
-- Events
-- ---------------------------------------------------------------------------

theorem resetSerial_attempts (s : Controller) :
    { resetSerial p s with attempts := (resetSerial p s).attempts + 1 } =
      resetSerial p { s with attempts := s.attempts + 1 } := by
  unfold resetSerial publishReady notifySerialOpsDrained onCore
  simp only
  split_ifs <;> rfl

/-- What a step does: moves, and perhaps a new connection among them. -/
def Reaches (p : Protocol) (ok : Allowed) (s s' : Controller) : Prop :=
  Moves p ok s s' ∨
    ∃ s₁, Moves p ok s s₁ ∧ s₁.isConnected = false ∧ Moves p ok (reconnect p s₁) s'

theorem reaches_checkConnectionImpl (s : Controller) :
    Reaches p ok s (checkConnectionImpl p throws s) := by
  unfold checkConnectionImpl
  by_cases hconn : s.isConnected = true
  · rw [if_pos hconn]
    split_ifs
    · exact .inl .refl
    · exact .inl (.single .reset)
  · rw [if_neg hconn, attempt, resetSerial_attempts]
    set s₁ : Controller := { s with attempts := s.attempts + 1 }
    have hquiet : Moves p ok s s₁ := .single (.quiet s.packetHandler (s.attempts + 1) s.dispatched)
    cases throws (resetSerial p s).attempts with
    | true => exact .inl (hquiet.tail .reset)
    | false =>
      refine .inr ⟨s₁, hquiet, by simpa [s₁] using hconn, ?_⟩
      show Moves p ok (reconnect p s₁) (if p.requireHandshake = true
        then sendPacket p packetIdHandshake (systemPayload p packetIdHandshake p.protocolHash)
          (startReceive p throws (reconnect p s₁))
        else startReceive p throws (reconnect p s₁))
      split_ifs
      · exact moves_startReceive.trans (moves_sendPacket _ _)
      · exact moves_startReceive

theorem reaches_runTask {task : StrandTask} (htask : task.Packed p) (now : Int) (s : Controller) :
    Reaches p ok s (runTask p throws task now s) := by
  cases task with
  | checkConnection => exact reaches_checkConnectionImpl s
  | heartbeatTimer => exact .inl (moves_handleHeartbeatTimer now s)
  | asyncSend bytes =>
    obtain ⟨id, data, rfl⟩ := htask
    exact .inl (moves_plain id data)
  | reliableSend id bytes =>
    obtain ⟨data, rfl⟩ := htask
    exact .inl (moves_senderSend id data)
  | retryTimeout key seq => exact .inl (moves_senderRetryTimeout key seq)
  | serialOpsDrained => exact .inl .refl

/-- The event takes a task of the strand, or is that a timer expires. -/
def isTurn : ControllerEvent → Bool
  | .run _ _ => true
  | .retryTimer _ _ => true
  | _ => false

/-- The event stays within what is allowed. -/
structure Permitted (p : Protocol) (throws : Nat → Bool) (ok : Allowed) (s : Controller)
    (event : ControllerEvent) : Prop where
  ingest : ∀ index read data, event = .readDone index .success data →
    s.reads[index]? = some read → s.isCurrent read.port read.generation = true → data ≠ [] →
    Moves p ok (completeSerialOp { s with reads := s.reads.eraseIdx index })
      (ingestReceivedBytes p throws data
        (completeSerialOp { s with reads := s.reads.eraseIdx index }))
  abort : ∀ index write, event = .writeDone index .operationAborted →
    s.writes[index]? = some write → s.isCurrent write.port write.generation = true → ok.abort
  turn : isTurn event = true → ok.turn

theorem permitted_all (s : Controller) (event : ControllerEvent) :
    Permitted p throws .all s event where
  ingest _ _ data _ _ _ _ := moves_ingestReceivedBytes (fun _ _ _ => trivial) data _
  abort _ _ _ _ _ := trivial
  turn _ := trivial

/-- **What an event does.** -/
theorem step_reaches {event : ControllerEvent} (hposted : ∀ task ∈ s.posted, task.Packed p)
    (hok : Permitted p throws ok s event) (hstep : step p throws s event = some s') :
    Reaches p ok s s' := by
  unfold step at hstep
  cases event with
  | connectionTimer =>
    obtain rfl := Option.some.inj hstep
    exact .inl (.single (.post _ trivial nofun))
  | heartbeatTimer =>
    obtain rfl := Option.some.inj hstep
    exact .inl (.single (.post _ trivial nofun))
  | sendPacket id data =>
    obtain rfl := Option.some.inj hstep
    exact .inl (moves_sendPacket id data)
  | reliableSend id data =>
    obtain rfl := Option.some.inj hstep
    exact .inl (.single (.post _ ⟨data, rfl⟩ nofun))
  | retryTimer key index =>
    simp only at hstep
    split at hstep
    · next sender seq hexp =>
      obtain rfl := Option.some.inj hstep
      exact .inl (.single (.expire hexp (hok.turn rfl)))
    · cases hstep
  | run index now =>
    simp only at hstep
    split at hstep
    · next task htask =>
      obtain rfl := Option.some.inj hstep
      have hpacked : task.Packed p := hposted task (List.mem_of_getElem? htask)
      have hrun : Reaches p ok { s with posted := s.posted.eraseIdx index }
          (runTask p throws task now { s with posted := s.posted.eraseIdx index }) :=
        reaches_runTask hpacked now _
      rcases hrun with h | ⟨s₁, h, hconn, h'⟩
      · exact .inl (.head (.take index (hok.turn rfl)) h)
      · exact .inr ⟨s₁, .head (.take index (hok.turn rfl)) h, hconn, h'⟩
    · cases hstep
  | readDone index result data =>
    simp only at hstep
    split at hstep
    · next read hread =>
      split_ifs at hstep
      obtain rfl := Option.some.inj hstep
      refine .inl (moves_handleReceive hread fun hresult hcurrent hdata => ?_)
      subst hresult
      exact hok.ingest index read data rfl hread hcurrent hdata
    · cases hstep
  | writeDone index result =>
    simp only at hstep
    split at hstep
    · next write hwrite =>
      obtain rfl := Option.some.inj hstep
      refine .inl (moves_handleWrite hwrite fun hresult hcurrent => ?_)
      subst hresult
      exact hok.abort index write rfl hwrite hcurrent
    · cases hstep

-- ---------------------------------------------------------------------------
-- Invariants
-- ---------------------------------------------------------------------------

/-- What every move and every new connection keeps. -/
structure ControllerInvariant (p : Protocol) (ok : Allowed) (I : Controller → Prop) : Prop where
  initial : ∀ h, PacketHandler.new p.bufferSize = some h → I (Controller.new p h)
  move : ∀ {s s'}, I s → Move p ok s s' → I s'
  reconnect : ∀ {s}, I s → s.isConnected = false → I (reconnect p s)

namespace ControllerInvariant

variable {I : Controller → Prop}

theorem moves (hI : ControllerInvariant p ok I) (hs : I s) (h : Moves p ok s s') : I s' := by
  induction h with
  | refl => exact hs
  | tail _ hmove ih => exact hI.move ih hmove

theorem reaches (hI : ControllerInvariant p ok I) (hs : I s) (h : Reaches p ok s s') : I s' := by
  rcases h with h | ⟨s₁, h, hconn, h'⟩
  · exact hI.moves hs h
  · exact hI.moves (hI.reconnect (hI.moves hs h) hconn) h'

end ControllerInvariant

end Controller

end AutoSerialBridge
