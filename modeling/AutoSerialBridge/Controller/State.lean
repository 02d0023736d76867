import AutoSerialBridge.Reliable.Sender
import AutoSerialBridge.Wire.PacketHandler

/-!
# Auto Serial Bridge — the state of `SerialController`

The members of `SerialController`, and its surroundings: the posted strand tasks, the asynchronous
reads and writes that have been started and whose handlers have not run, and the objects that are
held by shared pointers. A `TxRequest` is known by the number of the `async_send_impl` call it stems
from, a serial port by the order of opening.

`ControllerCore` is the part that decides what is transmitted: the connection, the queue, the
requests, the writes and the reliable sender. `history` is a record of what happened, newest first;
no handler reads it. The same holds of the numbers in `TxRequest.origin`.
-/

namespace AutoSerialBridge

/-- `SerialController::State`. -/
inductive ControllerState where
  | waitingHandshake
  | running
deriving DecidableEq, Repr

/-- An `asio::serial_port` that was opened. -/
structure SerialPort where
  id : Nat
  isOpen : Bool
deriving DecidableEq, Repr

/-- A connection: the port, and `connection_generation_` since it was opened. -/
structure Connection where
  port : Nat
  generation : UInt64
deriving DecidableEq, Repr

/-- `SerialController::TxRequest`. The completion is `none` when it is empty or moved from. `origin`
is the id and the number of the reliable message, if it is one. -/
structure TxRequest where
  bytes : List UInt8
  completion : Option SendCompletion
  origin : Option (UInt8 × Nat)
deriving DecidableEq, Repr

/-- An `async_write` whose handler has not run. -/
structure PendingWrite where
  port : Nat
  generation : UInt64
  request : Nat
deriving DecidableEq, Repr

/-- An `async_read_some` whose handler has not run. -/
structure PendingRead where
  port : Nat
  generation : UInt64
deriving DecidableEq, Repr

/-- The `asio::error_code` of a handler. -/
inductive IoResult where
  | success
  | operationAborted
  | failure
deriving DecidableEq, Repr

/-- The tasks posted to the strand. -/
inductive StrandTask where
  | checkConnection
  | heartbeatTimer
  | asyncSend (bytes : List UInt8)
  | reliableSend (id : UInt8) (bytes : List UInt8)
  | retryTimeout (key seq : UInt8)
  /-- The callback of `notify_serial_ops_drained`. -/
  | serialOpsDrained
deriving DecidableEq, Repr

/-- What happened. A request is known by the number of its `async_send_impl` call. -/
inductive HistoryEvent where
  /-- `attempt_send` called `send_callback_`. -/
  | transmitted (id : UInt8) (number : Nat) (bytes : List UInt8)
  /-- `on_ack_received_impl` removed an entry. -/
  | acked (id : UInt8) (number : Nat)
  /-- `async_send_impl` was called. -/
  | submitted (request : Nat) (completion : Option SendCompletion)
  | rejected (request : Nat)
  | accepted (request : Nat) (connection : Option Connection)
  /-- A completion was invoked. -/
  | completed (request : Nat) (success : Bool)
  /-- A frame was handed to `asio::async_write`. -/
  | writeStarted (request : Nat) (connection : Connection) (bytes : List UInt8)
  /-- An `async_write` ended without an error. -/
  | written (request : Nat) (connection : Connection)
  /-- A packet was handed to `handle_packet`. -/
  | received (connection : Option Connection) (state : ControllerState) (pkt : Packet)
  /-- `handle_heartbeat_timer` sent a new count at a time. -/
  | heartbeatSent (connection : Option Connection) (count : UInt32) (now : Int)
  /-- `handle_heartbeat_timer` sent a count again. -/
  | heartbeatResent (connection : Option Connection) (count : UInt32) (now : Int)
deriving DecidableEq, Repr

/-- A frame on its way to the MCU, from the moment it is handed to `asio::async_write`. -/
structure WireFrame where
  bytes : List UInt8
  origin : Option (UInt8 × Nat)
deriving DecidableEq, Repr

/-- What decides about transmissions. -/
structure ControllerCore where
  isConnected : Bool
  serialPort : Option SerialPort
  connectionGeneration : UInt64
  state : ControllerState
  txQueue : List Nat
  txWriteInProgress : Bool
  shuttingDown : Bool
  reliableSender : ReliableSender
  requests : Nat → TxRequest
  nextRequest : Nat
  nextPort : Nat
  writes : List PendingWrite
  wire : List WireFrame
  history : List HistoryEvent

/-- `SerialController` and its surroundings. `attempts` counts the operations that can throw. -/
structure Controller extends ControllerCore where
  pendingSerialOps : Nat
  shutdownRequested : Bool
  pendingSerialDrainCallback : Bool
  packetHandler : PacketHandler
  readyPublished : Bool
  readyState : Bool
  heartbeatCount : UInt32
  lastHeartbeatTxCount : UInt32
  heartbeatAckWaitStartedAt : Int
  awaitingHeartbeatAck : Bool
  txPacketCount : UInt32
  reads : List PendingRead
  posted : List StrandTask
  attempts : Nat
  /-- The messages of `ready_publisher_`, newest first. -/
  published : List Bool
  /-- The calls of `dispatch_to_protocol`, newest first. -/
  dispatched : List (UInt8 × List UInt8)

namespace ControllerCore

/-- The current connection: the port, if there is one, and the generation. -/
def connection (s : ControllerCore) : Option Connection :=
  s.serialPort.map fun port => ⟨port.id, s.connectionGeneration⟩

/-- `serial_port_ && serial_port_->is_open()`. -/
def portOpen (s : ControllerCore) : Bool :=
  match s.serialPort with
  | some port => port.isOpen
  | none => false

end ControllerCore

/-- The constructor, once the packet handler is built. -/
def Controller.new (p : Protocol) (packetHandler : PacketHandler) : Controller where
  isConnected := false
  serialPort := none
  connectionGeneration := 0
  state := if p.requireHandshake then .waitingHandshake else .running
  txQueue := []
  txWriteInProgress := false
  shuttingDown := false
  reliableSender := ReliableSender.initial
  requests _ := ⟨[], none, none⟩
  nextRequest := 0
  nextPort := 0
  writes := []
  wire := []
  history := []
  pendingSerialOps := 0
  shutdownRequested := false
  pendingSerialDrainCallback := false
  packetHandler := packetHandler
  readyPublished := true
  readyState := false
  heartbeatCount := 0
  lastHeartbeatTxCount := 0
  heartbeatAckWaitStartedAt := 0
  awaitingHeartbeatAck := false
  txPacketCount := 0
  reads := []
  posted := []
  attempts := 0
  published := [false]
  dispatched := []

end AutoSerialBridge
