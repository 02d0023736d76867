import AutoSerialBridge.Controller.State

/-!
# Auto Serial Bridge — requests, writes and connections

What the handlers of `SerialController` do to `ControllerCore`: the pieces of `async_send_impl`,
`start_next_write`, `handle_write`, `reset_serial` and `check_connection_impl` that touch the queue,
the requests, the writes or the connection. `Controller/Handlers.lean` puts them together in the
order of the source.
-/

namespace AutoSerialBridge

namespace ControllerCore

variable (p : Protocol)

-- ---------------------------------------------------------------------------
-- Requests
-- ---------------------------------------------------------------------------

/-- `if (request->completion) { auto completion = std::move(…); completion(success); }`. On the
strand the reliable sender handles a completion at once. -/
def complete (request : Nat) (success : Bool) (s : ControllerCore) : ControllerCore :=
  match (s.requests request).completion with
  | some c =>
    { s with
      requests := Function.update s.requests request
        { s.requests request with completion := none }
      reliableSender := s.reliableSender.handleSendCompletion c success
      history := .completed request success :: s.history }
  | none => s

/-- The loops that give up the whole queue. -/
def failTxQueue (s : ControllerCore) : ControllerCore :=
  { s.txQueue.foldl (fun s request => complete request false s) s with
    txQueue := [], txWriteInProgress := false }

/-- The call of `async_send_impl`: its arguments, which a `TxRequest` takes over. -/
def submit (bytes : List UInt8) (completion : Option SendCompletion)
    (origin : Option (UInt8 × Nat)) (s : ControllerCore) : ControllerCore :=
  { s with
    requests := Function.update s.requests s.nextRequest ⟨bytes, completion, origin⟩
    nextRequest := s.nextRequest + 1
    history := .submitted s.nextRequest completion :: s.history }

/-- `if (completion) completion(false);`. -/
def reject (request : Nat) (s : ControllerCore) : ControllerCore :=
  complete request false { s with history := .rejected request :: s.history }

/-- `tx_queue_.push_back(request);`. -/
def accept (request : Nat) (s : ControllerCore) : ControllerCore :=
  { s with
    txQueue := s.txQueue ++ [request]
    history := .accepted request s.connection :: s.history }

/-- The frame may not be sent before the handshake. -/
def blockedBeforeHandshake (bytes : List UInt8) (s : ControllerCore) : Bool :=
  p.requireHandshake && s.state == .waitingHandshake &&
    match bytes[2]? with
    | some id => id != packetIdHandshake
    | none => false

-- ---------------------------------------------------------------------------
-- Writes
-- ---------------------------------------------------------------------------

/-- The request's bytes are handed to `asio::async_write`. -/
def handOver (request port : Nat) (s : ControllerCore) : ControllerCore :=
  { s with
    history := .writeStarted request ⟨port, s.connectionGeneration⟩ (s.requests request).bytes ::
      s.history
    wire := s.wire ++ [⟨(s.requests request).bytes, (s.requests request).origin⟩] }

/-- The write is started. -/
def beginWrite (request port : Nat) (s : ControllerCore) : ControllerCore :=
  { handOver request port s with
    txWriteInProgress := true
    writes := s.writes ++ [⟨port, s.connectionGeneration, request⟩] }

/-- A write has ended. -/
def noteWrite (write : PendingWrite) (result : IoResult) (s : ControllerCore) : ControllerCore :=
  if result = .success then
    { s with history := .written write.request ⟨write.port, write.generation⟩ :: s.history }
  else s

/-- The handler belongs to the current connection. -/
def isCurrent (port : Nat) (generation : UInt64) (s : ControllerCore) : Bool :=
  generation == s.connectionGeneration && s.serialPort.map (·.id) == some port

/-- The front request is done. -/
def finishWrite (request : Nat) (success : Bool) (s : ControllerCore) : ControllerCore :=
  complete request success { s with
    txWriteInProgress := false
    txQueue := if s.txQueue.head? = some request then s.txQueue.tail else s.txQueue }

-- ---------------------------------------------------------------------------
-- Connections
-- ---------------------------------------------------------------------------

/-- `reset_serial`. -/
def reset (s : ControllerCore) : ControllerCore :=
  let s := { s with
    isConnected := false
    connectionGeneration := s.connectionGeneration + 1
    reliableSender :=
      if s.shuttingDown then s.reliableSender.clearAllImpl else s.reliableSender }
  { failTxQueue s with
    serialPort := none
    state := if p.requireHandshake then .waitingHandshake else .running }

/-- A port is opened, and `check_connection_impl` takes the connection up. -/
def connect (s : ControllerCore) : ControllerCore :=
  { s with
    serialPort := some ⟨s.nextPort, true⟩
    nextPort := s.nextPort + 1
    isConnected := true
    state := if p.requireHandshake then .waitingHandshake else .running }

/-- A packet is handed to `handle_packet`. -/
def receive (pkt : Packet) (s : ControllerCore) : ControllerCore :=
  { s with history := .received s.connection s.state pkt :: s.history }

/-- An event is recorded. -/
def note (event : HistoryEvent) (s : ControllerCore) : ControllerCore :=
  { s with history := event :: s.history }

-- ---------------------------------------------------------------------------
-- The reliable sender
-- ---------------------------------------------------------------------------

/-- A handler of the reliable sender has run. -/
def updateSender (r : ReliableSender × Option SendRequest) (s : ControllerCore) : ControllerCore :=
  { s with
    reliableSender := r.1
    history := (r.2.map fun req =>
      HistoryEvent.transmitted req.completion.key req.number req.bytes).toList ++ s.history }

/-- `on_ack_received_impl` has run. -/
def updateAcked (ackedId ackSeq : UInt8) (s : ControllerCore) : ControllerCore :=
  let r := ReliableSender.onAckReceivedImpl p s.reliableSender ackedId ackSeq
  updateSender r
    (if r.1.acked ackedId = s.reliableSender.acked ackedId then s
    else { s with history := .acked ackedId (s.reliableSender.acked ackedId) :: s.history })

end ControllerCore

end AutoSerialBridge
