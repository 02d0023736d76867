import AutoSerialBridge.Controller.Core
import AutoSerialBridge.Lib.Machine

/-!
# Auto Serial Bridge — the handlers of `SerialController`

`serial_controller.cpp`, handler by handler. Everything here runs on the strand. Whether an operation
throws (opening the port, starting a read or a write, allocating a request) is up to `throws`: the
`n`-th such operation throws when `throws n` is true. Log output is left out.
-/

namespace AutoSerialBridge

/-- `MAX_TX_QUEUE_SIZE`. -/
def maxTxQueueSize : Nat := 1024

/-- The size of `rx_buffer_`. -/
def rxBufferSize : Nat := 2048

/-- `detail::HandshakeValidationResult`. -/
inductive HandshakeValidationResult where
  | matched
  | ignoredMismatch
  | rejectedMismatch
deriving DecidableEq, Repr

/-- `detail::classify_handshake_validation`. -/
def classifyHandshakeValidation (localHash remoteHash : UInt32) (ignoreVersionMismatch : Bool) :
    HandshakeValidationResult :=
  if localHash = remoteHash then .matched
  else if ignoreVersionMismatch then .ignoredMismatch
  else .rejectedMismatch

/-- `detail::ReceiveFollowUpAction`. -/
inductive ReceiveFollowUpAction where
  | continueReading
  | resetConnection
deriving DecidableEq, Repr

/-- `detail::classify_receive_result`. -/
def classifyReceiveResult (bytesRead : Nat) (portIsOpen : Bool) : ReceiveFollowUpAction :=
  if bytesRead = 0 ∧ portIsOpen = false then .resetConnection else .continueReading

/-- `pkt.as<Packet_<name>>().<member>`. -/
def Protocol.member (p : Protocol) (index : Nat) (pkt : Packet) : UInt32 :=
  match p.message? pkt.id with
  | some m => m.member index (pkt.as m.sizeofPacket)
  | none => 0

namespace Controller

variable (p : Protocol) (throws : Nat → Bool)

/-- An operation that can throw: whether it does. -/
def attempt (s : Controller) : Bool × Controller :=
  (throws s.attempts, { s with attempts := s.attempts + 1 })

/-- Work on the core only. -/
def onCore (f : ControllerCore → ControllerCore) (s : Controller) : Controller :=
  { s with toControllerCore := f s.toControllerCore }

/-- `post_serial`. -/
def postSerial (task : StrandTask) (s : Controller) : Controller :=
  if s.shuttingDown then s else { s with posted := s.posted ++ [task] }

/-- `send_packet`. -/
def sendPacket (id : UInt8) (data : List UInt8) (s : Controller) : Controller :=
  postSerial (.asyncSend (pack p id data)) s

/-- `reliable_send`. -/
def reliableSend (id : UInt8) (data : List UInt8) (s : Controller) : Controller :=
  postSerial (.reliableSend id (pack p id data)) s

/-- `publish_ready`. -/
def publishReady (ready : Bool) (s : Controller) : Controller :=
  if s.readyPublished && s.readyState == ready then s
  else { s with published := ready :: s.published, readyState := ready, readyPublished := true }

-- ---------------------------------------------------------------------------
-- Serial operations and resets
-- ---------------------------------------------------------------------------

/-- `notify_serial_ops_drained`. -/
def notifySerialOpsDrained (s : Controller) : Controller :=
  if s.pendingSerialDrainCallback then
    { s with pendingSerialDrainCallback := false, posted := s.posted ++ [.serialOpsDrained] }
  else s

/-- `complete_serial_op`. -/
def completeSerialOp (s : Controller) : Controller :=
  let s := if 0 < s.pendingSerialOps then
    { s with pendingSerialOps := s.pendingSerialOps - 1 } else s
  if s.shutdownRequested && s.pendingSerialOps == 0 && s.pendingSerialDrainCallback then
    notifySerialOpsDrained s
  else s

/-- `reset_serial`. Closing the port cancels its operations, whose handlers run later. -/
def resetSerial (s : Controller) : Controller :=
  let s := publishReady false s
  let s := { onCore (ControllerCore.reset p) s with
    shutdownRequested := true
    packetHandler := s.packetHandler.reset
    heartbeatCount := 0
    lastHeartbeatTxCount := 0
    awaitingHeartbeatAck := false }
  if s.pendingSerialOps == 0 && s.pendingSerialDrainCallback then notifySerialOpsDrained s else s

-- ---------------------------------------------------------------------------
-- Transmission
-- ---------------------------------------------------------------------------

/-- `start_next_write`. -/
def startNextWrite (s : Controller) : Controller :=
  match s.txQueue with
  | [] => s
  | request :: _ =>
    if s.txWriteInProgress then s
    else
      match s.serialPort with
      | none => onCore ControllerCore.failTxQueue s
      | some port =>
        if s.isConnected = false ∨ port.isOpen = false then onCore ControllerCore.failTxQueue s
        else
          let s := { s with pendingSerialOps := s.pendingSerialOps + 1 }
          match attempt throws s with
          | (true, s) =>
            resetSerial p (completeSerialOp (onCore (ControllerCore.handOver request port.id) s))
          | (false, s) => onCore (ControllerCore.beginWrite request port.id) s

/-- `async_send_impl`. -/
def asyncSendImpl (bytes : List UInt8) (completion : Option SendCompletion)
    (origin : Option (UInt8 × Nat)) (s : Controller) : Controller :=
  let request := s.nextRequest
  let s := onCore (ControllerCore.submit bytes completion origin) s
  if s.isConnected = false ∨ s.serialPort = none then onCore (ControllerCore.reject request) s
  else if s.portOpen = false then onCore (ControllerCore.reject request) s
  else if s.blockedBeforeHandshake p bytes then onCore (ControllerCore.reject request) s
  else if maxTxQueueSize ≤ s.txQueue.length then onCore (ControllerCore.reject request) s
  else
    match attempt throws s with
    | (true, s) => resetSerial p (onCore (ControllerCore.reject request) s)
    | (false, s) => startNextWrite p throws (onCore (ControllerCore.accept request) s)

/-- `send_callback_`, if a handler of the reliable sender calls it. -/
def sendCallback (req : Option SendRequest) (s : Controller) : Controller :=
  match req with
  | none => s
  | some req =>
    asyncSendImpl p throws req.bytes (some req.completion)
      (some (req.completion.key, req.number)) s

/-- `ReliableSender::send`. -/
def senderSend (id : UInt8) (packedBytes : List UInt8) (s : Controller) : Controller :=
  let r := ReliableSender.sendImpl p s.reliableSender id packedBytes
  sendCallback p throws r.2 (onCore (ControllerCore.updateSender r) s)

/-- `ReliableSender::handle_retry_timeout`. -/
def senderRetryTimeout (key seq : UInt8) (s : Controller) : Controller :=
  let r := ReliableSender.handleRetryTimeout p s.reliableSender key seq
  sendCallback p throws r.2 (onCore (ControllerCore.updateSender r) s)

/-- `ReliableSender::on_ack_received`. -/
def senderAckReceived (ackedId ackSeq : UInt8) (s : Controller) : Controller :=
  let r := ReliableSender.onAckReceivedImpl p s.reliableSender ackedId ackSeq
  sendCallback p throws r.2 (onCore (ControllerCore.updateAcked p ackedId ackSeq) s)

/-- `handle_write`. -/
def handleWrite (write : PendingWrite) (result : IoResult) (s : Controller) : Controller :=
  let s := completeSerialOp s
  let s := onCore (ControllerCore.noteWrite write result) s
  if s.isCurrent write.port write.generation = false then s
  else
    let s := onCore (ControllerCore.finishWrite write.request (result = .success)) s
    match result with
    | .success => startNextWrite p throws { s with txPacketCount := s.txPacketCount + 1 }
    | .operationAborted => s
    | .failure => resetSerial p s

-- ---------------------------------------------------------------------------
-- Reception
-- ---------------------------------------------------------------------------

/-- `start_receive`. -/
def startReceive (s : Controller) : Controller :=
  match s.serialPort with
  | none => s
  | some port =>
    if s.isConnected = false ∨ port.isOpen = false then s
    else
      let s := { s with pendingSerialOps := s.pendingSerialOps + 1 }
      match attempt throws s with
      | (true, s) => resetSerial p (completeSerialOp s)
      | (false, s) => { s with reads := s.reads ++ [⟨port.id, s.connectionGeneration⟩] }

/-- `process_handshake`. -/
def processHandshake (pkt : Packet) (s : Controller) : Controller :=
  if pkt.payload.length ≠ p.sizeofPacket packetIdHandshake then s
  else
    match classifyHandshakeValidation p.protocolHash (p.member 0 pkt) p.ignoreVersionMismatch with
    | .rejectedMismatch => s
    | _ =>
      publishReady true { s with
        state := .running
        heartbeatCount := 0
        lastHeartbeatTxCount := 0
        awaitingHeartbeatAck := false }

/-- `dispatch_to_protocol`. -/
def dispatchToProtocol (id : UInt8) (payload : List UInt8) (s : Controller) : Controller :=
  { s with dispatched := (id, payload) :: s.dispatched }

/-- The heartbeat part of `handle_packet`. -/
def handleHeartbeatAck (pkt : Packet) (s : Controller) : Controller :=
  if pkt.id = packetIdHeartbeat ∧ s.state = .running ∧
      pkt.payload.length = p.sizeofPacket packetIdHeartbeat ∧
      p.member 0 pkt = s.lastHeartbeatTxCount then
    { s with awaitingHeartbeatAck := false }
  else s

/-- The Ack part of `handle_packet`. -/
def handleAck (pkt : Packet) (s : Controller) : Controller :=
  if pkt.id = packetIdAck ∧ pkt.payload.length = p.sizeofPacket packetIdAck then
    senderAckReceived p throws (p.member 0 pkt).toUInt8 (p.member 1 pkt).toUInt8 s
  else s

/-- The rest of `handle_packet`. -/
def handleDispatch (pkt : Packet) (s : Controller) : Controller :=
  let dispatchPayload := if p.isReliablePacket pkt.id then pkt.payload.dropLast else pkt.payload
  if p.requireHandshake then
    if pkt.id = packetIdHandshake then
      let s := if s.state = .waitingHandshake then processHandshake p pkt s else s
      dispatchToProtocol pkt.id dispatchPayload s
    else if s.state = .running then dispatchToProtocol pkt.id dispatchPayload s
    else s
  else
    let s := if pkt.id = packetIdHandshake ∧ s.state ≠ .running then processHandshake p pkt s else s
    dispatchToProtocol pkt.id dispatchPayload s

/-- `handle_packet`. -/
def handlePacket (pkt : Packet) (s : Controller) : Controller :=
  let s := onCore (ControllerCore.receive pkt) s
  let s := handleHeartbeatAck p pkt s
  let s := handleAck p throws pkt s
  handleDispatch p pkt s

/-- `packet_handler_` in the state. -/
def packetHandlerAccess : RingAccess Controller where
  get s := s.packetHandler
  set h s := { s with packetHandler := h }

/-- `ingest_received_bytes`. The number of dropped bytes is only logged. -/
def ingestReceivedBytes (data : List UInt8) (s : Controller) : Controller :=
  (feedDataWithRecovery packetHandlerAccess p (handlePacket p throws) data s).2

/-- `handle_receive`. -/
def handleReceive (read : PendingRead) (result : IoResult) (data : List UInt8) (s : Controller) :
    Controller :=
  let s := completeSerialOp s
  if s.isCurrent read.port read.generation = false then s
  else
    match result with
    | .operationAborted => s
    | .failure => resetSerial p s
    | .success =>
      if classifyReceiveResult data.length s.portOpen = .resetConnection then resetSerial p s
      else if data.length = 0 then startReceive p throws s
      else startReceive p throws (ingestReceivedBytes p throws data s)

-- ---------------------------------------------------------------------------
-- Connections and heartbeats
-- ---------------------------------------------------------------------------

/-- The bytes of a system message with one `uint32_t` member. -/
def systemPayload (id : UInt8) (value : UInt32) : List UInt8 :=
  match p.message? id with
  | some m => m.image [value]
  | none => []

/-- `check_connection_impl`, with `try_open_serial_impl`. -/
def checkConnectionImpl (s : Controller) : Controller :=
  if s.isConnected then
    if s.portOpen then s else resetSerial p s
  else
    match attempt throws (resetSerial p s) with
    | (true, s) => s
    | (false, s) =>
      let s := { onCore (ControllerCore.connect p) s with shutdownRequested := false }
      let s := if p.requireHandshake then s else publishReady true s
      let s := startReceive p throws s
      if p.requireHandshake then
        sendPacket p packetIdHandshake (systemPayload p packetIdHandshake p.protocolHash) s
      else s

/-- `std::chrono::duration_cast<std::chrono::milliseconds>` of a difference in nanoseconds. -/
def elapsedMs (since now : Int) : Int := (now - since).tdiv 1000000

/-- A new heartbeat. -/
def sendHeartbeat (now : Int) (s : Controller) : Controller :=
  let count := s.heartbeatCount
  let s := onCore (ControllerCore.note (.heartbeatSent s.connection count now)) s
  sendPacket p packetIdHeartbeat (systemPayload p packetIdHeartbeat count) { s with
    heartbeatCount := count + 1
    lastHeartbeatTxCount := count
    awaitingHeartbeatAck := true
    heartbeatAckWaitStartedAt := now }

/-- The outstanding heartbeat once more. -/
def resendHeartbeat (now : Int) (s : Controller) : Controller :=
  sendPacket p packetIdHeartbeat (systemPayload p packetIdHeartbeat s.lastHeartbeatTxCount)
    (onCore (ControllerCore.note (.heartbeatResent s.connection s.lastHeartbeatTxCount now)) s)

/-- `handle_heartbeat_timer`. -/
def handleHeartbeatTimer (now : Int) (s : Controller) : Controller :=
  if s.isConnected = false then s
  else if p.requireHandshake ∧ s.state = .waitingHandshake then
    sendPacket p packetIdHandshake (systemPayload p packetIdHandshake p.protocolHash) s
  else if s.state ≠ .running then s
  else if 0 < p.heartbeatTimeoutMs ∧ s.awaitingHeartbeatAck = true then
    if elapsedMs s.heartbeatAckWaitStartedAt now ≤ p.heartbeatTimeoutMs then
      resendHeartbeat p now s
    else if p.strictHeartbeat then resetSerial p s
    else sendHeartbeat p now { s with awaitingHeartbeatAck := false }
  else sendHeartbeat p now s

/-- A task of the strand. -/
def runTask (task : StrandTask) (now : Int) (s : Controller) : Controller :=
  match task with
  | .checkConnection => checkConnectionImpl p throws s
  | .heartbeatTimer => handleHeartbeatTimer p now s
  | .asyncSend bytes => asyncSendImpl p throws bytes none none s
  | .reliableSend id bytes => senderSend p throws id bytes s
  | .retryTimeout key seq => senderRetryTimeout p throws key seq s
  | .serialOpsDrained => s

end Controller

-- ---------------------------------------------------------------------------
-- The machine
-- ---------------------------------------------------------------------------

/-- What can happen: a wall timer or a caller posts a task, a retry timer expires, the strand runs a
task or the handler of a read or a write. The destructor is left out. -/
inductive ControllerEvent where
  | connectionTimer
  | heartbeatTimer
  | sendPacket (id : UInt8) (data : List UInt8)
  | reliableSend (id : UInt8) (data : List UInt8)
  | retryTimer (key : UInt8) (index : Nat)
  | run (index : Nat) (now : Int)
  | readDone (index : Nat) (result : IoResult) (data : List UInt8)
  | writeDone (index : Nat) (result : IoResult)

namespace Controller

variable (p : Protocol) (throws : Nat → Bool)

/-- One event. -/
def step (s : Controller) (event : ControllerEvent) : Option Controller :=
  match event with
  | .connectionTimer => some (postSerial .checkConnection s)
  | .heartbeatTimer => some (postSerial .heartbeatTimer s)
  | .sendPacket id data => some (sendPacket p id data s)
  | .reliableSend id data => some (reliableSend p id data s)
  | .retryTimer key index =>
    match s.reliableSender.expire key index with
    | some (sender, seq) =>
      some { s with reliableSender := sender, posted := s.posted ++ [.retryTimeout key seq] }
    | none => none
  | .run index now =>
    match s.posted[index]? with
    | some task => some (runTask p throws task now { s with posted := s.posted.eraseIdx index })
    | none => none
  | .readDone index result data =>
    match s.reads[index]? with
    | some read =>
      if data.length ≤ rxBufferSize then
        some (handleReceive p throws read result data
          { s with reads := s.reads.eraseIdx index })
      else none
    | none => none
  | .writeDone index result =>
    match s.writes[index]? with
    | some write =>
      some (handleWrite p throws write result { s with writes := s.writes.eraseIdx index })
    | none => none

end Controller

open Lib in
/-- `SerialController` as a machine. -/
def controllerMachine (p : Protocol) (throws : Nat → Bool) : Machine Controller ControllerEvent where
  initial s := ∃ h, PacketHandler.new p.bufferSize = some h ∧ s = Controller.new p h
  step := Controller.step p throws

end AutoSerialBridge
