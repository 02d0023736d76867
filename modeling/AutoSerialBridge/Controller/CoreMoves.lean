import AutoSerialBridge.Controller.Frame
import AutoSerialBridge.Reliable.Changes

/-!
# Auto Serial Bridge — the moves of the core

What a move does to the part of the controller that decides about transmissions (`CoreMove`). Most
moves do nothing there, or only add to the history; what is left are the ends of `async_send_impl`
and `handle_write`, the handlers of the reliable sender, and the reset. The invariants about
requests, writes and the queue are proved of these.

## Results

* `Move.core` — **what a move does to the core**.
* `CoreInvariant.reachable` — the rule of invariants of the core.
-/

namespace AutoSerialBridge

namespace ControllerCore

variable (p : Protocol)

/-- `start_next_write`, case by case. -/
inductive StartsNext (s : ControllerCore) : ControllerCore → Prop where
  | idle (h : s.txQueue = [] ∨ s.txWriteInProgress = true) : StartsNext s s
  | gone (hqueue : s.txQueue ≠ [])
      (h : s.isConnected = false ∨ ∀ port, s.serialPort = some port → port.isOpen = false) :
    StartsNext s (failTxQueue s)
  | begin {request : Nat} {rest : List Nat} {port : SerialPort}
      (hqueue : s.txQueue = request :: rest) (hidle : s.txWriteInProgress = false)
      (hconn : s.isConnected = true) (hport : s.serialPort = some port)
      (hopen : port.isOpen = true) :
    StartsNext s (beginWrite request port.id s)
  | fails {request : Nat} {rest : List Nat} {port : SerialPort}
      (hqueue : s.txQueue = request :: rest) (hidle : s.txWriteInProgress = false)
      (hconn : s.isConnected = true) (hport : s.serialPort = some port)
      (hopen : port.isOpen = true) :
    StartsNext s (reset p (handOver request port.id s))

/-- The write is no longer pending. -/
def dropWrite (index : Nat) (s : ControllerCore) : ControllerCore :=
  { s with writes := s.writes.eraseIdx index }

/-- The event is about a packet or a heartbeat. -/
def Noted : HistoryEvent → Prop
  | .received _ _ _ => True
  | .heartbeatSent _ _ _ => True
  | .heartbeatResent _ _ _ => True
  | _ => False

/-- A change of the core between two points at which its invariants hold. -/
inductive CoreMove (ok : Controller.Allowed) (s : ControllerCore) : ControllerCore → Prop where
  | same : CoreMove ok s s
  | note (event : HistoryEvent) (hevent : Noted event) : CoreMove ok s (note event s)
  | handshake {pkt : Packet} (hstate : s.state ≠ .running)
      (hpkt : Controller.AcceptedHandshake p pkt) :
    CoreMove ok s { receive pkt s with state := .running }
  | expire {key seq : UInt8} {index : Nat} {sender : ReliableSender}
      (h : s.reliableSender.expire key index = some (sender, seq)) (hok : ok.turn) :
    CoreMove ok s { s with reliableSender := sender }
  | op {core : ControllerCore} (h : SenderOp p s core none) : CoreMove ok s core
  | rejected {core : ControllerCore} {bytes : List UInt8} {completion : Option SendCompletion}
      {origin : Option (UInt8 × Nat)} (h : Offer p s core bytes completion origin) :
    CoreMove ok s ((core.submit bytes completion origin).reject core.nextRequest)
  | accepted {core : ControllerCore} {bytes : List UInt8} {completion : Option SendCompletion}
      {origin : Option (UInt8 × Nat)} {s' : ControllerCore}
      (h : Offer p s core bytes completion origin)
      (hconn : core.isConnected = true) (hopen : core.portOpen = true)
      (hblocked : core.blockedBeforeHandshake p bytes = false)
      (hroom : core.txQueue.length < maxTxQueueSize)
      (hnext : StartsNext p ((core.submit bytes completion origin).accept core.nextRequest) s') :
    CoreMove ok s s'
  | writeStale {index : Nat} {write : PendingWrite} (hwrite : s.writes[index]? = some write)
      (hstale : s.isCurrent write.port write.generation = false) (result : IoResult) :
    CoreMove ok s (noteWrite write result (dropWrite index s))
  | writeDone {index : Nat} {write : PendingWrite} {s' : ControllerCore}
      (hwrite : s.writes[index]? = some write)
      (hcurrent : s.isCurrent write.port write.generation = true)
      (hnext : StartsNext p
        (finishWrite write.request true (noteWrite write .success (dropWrite index s))) s') :
    CoreMove ok s s'
  | writeFails {index : Nat} {write : PendingWrite} (hwrite : s.writes[index]? = some write)
      (hcurrent : s.isCurrent write.port write.generation = true) :
    CoreMove ok s (reset p (finishWrite write.request false (dropWrite index s)))
  | writeAborted {index : Nat} {write : PendingWrite} (hwrite : s.writes[index]? = some write)
      (hcurrent : s.isCurrent write.port write.generation = true) (hok : ok.abort) :
    CoreMove ok s (finishWrite write.request false (dropWrite index s))
  | reset : CoreMove ok s (reset p s)

end ControllerCore

namespace Controller

open ControllerCore

variable {p : Protocol} {ok : Allowed} {s s' : Controller}

theorem StartNext.core (h : StartNext p s s') :
    StartsNext p s.toControllerCore s'.toControllerCore := by
  cases h with
  | idle h => exact .idle h
  | gone hqueue h => exact .gone hqueue h
  | begin request rest port hqueue hidle hconn hport hopen =>
    exact .begin hqueue hidle hconn hport hopen
  | fails request rest port hqueue hidle hconn hport hopen =>
    rw [resetSerial_core, completeSerialOp_core, onCore_core]
    exact .fails hqueue hidle hconn hport hopen

/-- **What a move does to the core.** -/
theorem Move.core (h : Move p ok s s') : CoreMove p ok s.toControllerCore s'.toControllerCore := by
  cases h with
  | quiet => exact .same
  | post =>
    rw [postSerial_core]
    exact .same
  | take => exact .same
  | expire h hok => exact .expire h hok
  | receive => exact .note _ trivial
  | echo => exact .note _ trivial
  | handshake hstate hpkt =>
    rw [acceptHandshake, publishReady_core]
    exact .handshake hstate hpkt
  | op h => exact .op h
  | rejected h => exact .rejected h
  | accepted h hconn hopen hblocked hroom hnext =>
    exact .accepted h hconn hopen hblocked hroom hnext.core
  | readEnds =>
    rw [completeSerialOp_core]
    exact .same
  | readStarts => exact .same
  | readFails =>
    rw [resetSerial_core, completeSerialOp_core]
    exact .reset
  | writeStale hwrite hstale result =>
    rw [endWrite_core]
    exact .writeStale hwrite hstale result
  | writeDone hwrite hcurrent hnext =>
    have hcore := hnext.core
    rw [countSent_core, onCore_core, endWrite_core] at hcore
    exact .writeDone hwrite hcurrent hcore
  | writeFails hwrite hcurrent =>
    rw [resetSerial_core, onCore_core, endWrite_core]
    exact .writeFails hwrite hcurrent
  | writeAborted hwrite hcurrent hok =>
    rw [onCore_core, endWrite_core]
    exact .writeAborted hwrite hcurrent hok
  | reset =>
    rw [resetSerial_core]
    exact .reset
  | heartbeat => exact .note _ trivial
  | resend => exact .note _ trivial

end Controller

/-- What a handler of the reliable sender does to the sender. -/
theorem SenderOp.changes {p : Protocol} {s core : ControllerCore} {req : Option SendRequest}
    (h : SenderOp p s core req) : ReliableSender.Changes p s.reliableSender core.reliableSender ∧
      ReliableSender.Requested core.reliableSender req := by
  cases h with
  | send id data => exact ReliableSender.changes_sendImpl s.reliableSender id data
  | timeout key seq => exact ReliableSender.changes_handleRetryTimeout s.reliableSender key seq
  | ack ackedId ackSeq => exact ReliableSender.changes_onAckReceivedImpl s.reliableSender ackedId ackSeq

/-- The sender after a completion. -/
theorem ControllerCore.complete_changes (p : Protocol) (request : Nat) (success : Bool)
    (s : ControllerCore) :
    ReliableSender.Changes p s.reliableSender (complete request success s).reliableSender := by
  unfold complete
  split
  · exact ReliableSender.changes_handleSendCompletion _ _ _
  · exact .refl

-- ---------------------------------------------------------------------------
-- Invariants
-- ---------------------------------------------------------------------------

/-- The core of a new controller. -/
def ControllerCore.new (p : Protocol) : ControllerCore where
  isConnected := false
  serialPort := none
  connectionGeneration := 0
  state := if p.requireHandshake then .waitingHandshake else .running
  txQueue := []
  txWriteInProgress := false
  shuttingDown := false
  reliableSender := ReliableSender.initial
  requests _ := ⟨[], none, none⟩
  nextRequest := 0
  nextPort := 0
  writes := []
  wire := []
  history := []

theorem Controller.new_core (p : Protocol) (handler : PacketHandler) :
    (Controller.new p handler).toControllerCore = ControllerCore.new p := rfl

/-- What every move of the core and every new connection keeps. -/
structure CoreInvariant (p : Protocol) (ok : Controller.Allowed) (I : ControllerCore → Prop) :
    Prop where
  initial : I (ControllerCore.new p)
  move : ∀ {s s'}, I s → ControllerCore.CoreMove p ok s s' → I s'
  connect : ∀ {s}, I s → s.isConnected = false → I (ControllerCore.connect p s)

namespace CoreInvariant

open Controller

variable {p : Protocol} {ok : Allowed} {I : ControllerCore → Prop}

theorem controller (hI : CoreInvariant p ok I) :
    ControllerInvariant p ok fun s => I s.toControllerCore where
  initial _ _ := hI.initial
  move hs hmove := hI.move hs hmove.core
  reconnect {s} hs _ := by
    rw [reconnect_core]
    refine hI.connect (hI.move hs .reset) ?_
    show (ControllerCore.reset p s.toControllerCore).portState.isConnected = false
    rw [ControllerCore.reset_portState]
    rfl

/-- **The rule of invariants** for the core. -/
theorem reachable (hI : CoreInvariant p ok I) {throws : Nat → Bool}
    {P : Controller → ControllerEvent → Prop} {s : Controller}
    (hP : ∀ s event, P s event → Permitted p throws ok s event)
    (h : (controllerMachine p throws).ReachableBy P s) : I s.toControllerCore :=
  (hI.controller.reachable hP h).1

end CoreInvariant

end AutoSerialBridge
