import AutoSerialBridge.Wire.Frame

/-!
# Auto Serial Bridge — the generated MCU code

`protocol.c` as `generate_mcu_source` writes it: the static parser variables, the byte-driven
state machine `protocol_fsm_feed`, and the `send_<Msg>` functions. What the code does to its
surroundings (a callback, a `serial_write`) is returned as a list of actions in program order.

The callbacks are the weak default hooks: they observe, and send nothing themselves.
-/

namespace AutoSerialBridge

/-- `State` of `protocol.c`. -/
inductive RxState where
  | waitHeader1
  | waitHeader2
  | waitId
  | waitLen
  | waitData
  | waitCrc
deriving DecidableEq, Repr

/-- The static variables of `protocol.c`. -/
structure Mcu where
  rxState : RxState
  rxBuffer : List UInt8
  rxCnt : Nat
  rxDataLen : UInt8
  rxId : UInt8
  rxChecksum : UInt8
  gLastReliableSeq : UInt8
deriving DecidableEq, Repr

/-- What the generated code does to its surroundings. -/
inductive McuAction where
  /-- `on_receive_<Msg>` of the message with this id, with the bytes of its struct. -/
  | onReceive (id : UInt8) (pkt : List UInt8)
  | serialWrite (data : List UInt8)
deriving DecidableEq, Repr

namespace Mcu

variable (p : Protocol)

/-- The variables at reset: `static uint8_t rx_buffer[max_wire_payload]` and zeros. -/
def initial : Mcu where
  rxState := .waitHeader1
  rxBuffer := List.replicate p.maxPacketPayloadSize 0
  rxCnt := 0
  rxDataLen := 0
  rxId := 0
  rxChecksum := 0
  gLastReliableSeq := 0

/-- `checksum_update` of `protocol.c`: the generator writes the body for the chosen algorithm. -/
def checksumUpdate (current byte : UInt8) : UInt8 :=
  match p.checksumAlgo with
  | .crc8 => UInt8.ofNat (generateCrc8Table.getD (current ^^^ byte).toNat 0)
  | .sum8 => current + byte
  | .xor8 => current ^^^ byte
  | .none => 0

/-- `calculate_checksum` of `protocol.c`. -/
def calculateChecksum (data : List UInt8) : UInt8 := data.foldl (checksumUpdate p) 0

/-- `send_<Msg>`: the buffer handed to `serial_write`. -/
def send (m : Message) (pkt : List UInt8) : List UInt8 :=
  let buffer := [p.frameHeader1, p.frameHeader2, m.id, UInt8.ofNat m.sizeofPacket]
  let buffer := buffer ++ pkt
  buffer ++ [calculateChecksum p (buffer.drop 2)]

/-- `send_reliable_ack`. -/
def sendReliableAck (s : Mcu) (id : UInt8) : List McuAction :=
  match p.message? packetIdAck with
  | some ack =>
    [.serialWrite (send p ack (ack.image [id.toUInt32, s.gLastReliableSeq.toUInt32]))]
  | none => []

/-- The `case` of a reliable message. -/
def dispatchReliable (s : Mcu) (m : Message) : Mcu × List McuAction :=
  if s.rxDataLen.toNat = m.sizeofPacket + 1 then
    let callback := .onReceive m.id (s.rxBuffer.take m.sizeofPacket)
    let s := { s with gLastReliableSeq := s.rxBuffer.getD m.sizeofPacket 0 }
    (s, callback :: sendReliableAck p s m.id)
  else (s, [])

/-- The `case` of any other message, with the built-in replies of Heartbeat and Handshake. -/
def dispatchPlain (s : Mcu) (m : Message) : List McuAction :=
  if s.rxDataLen.toNat = m.sizeofPacket then
    let pkt := s.rxBuffer.take m.sizeofPacket
    (if m.name = "Heartbeat" then [.serialWrite (send p m pkt)] else []) ++
    (if m.name = "Handshake" ∧ p.requireHandshake = true then
      [.serialWrite (send p m (m.image [p.protocolHash]))] else []) ++
    [.onReceive m.id pkt]
  else []

/-- `switch (rx_id)`. -/
def dispatch (s : Mcu) : Mcu × List McuAction :=
  match p.message? s.rxId with
  | some m => if m.reliable then dispatchReliable p s m else (s, dispatchPlain p s m)
  | none => (s, [])

/-- `crc_check_expr`. -/
def crcCheck (s : Mcu) (byte : UInt8) : Bool :=
  match p.checksumAlgo with
  | .none => true
  | _ => byte == s.rxChecksum

/-- The body of `protocol_fsm_feed`, with its self-call as a parameter. -/
def protocolFsmFeedBody (self : Mcu → UInt8 → Mcu × List McuAction) (s : Mcu) (byte : UInt8) :
    Mcu × List McuAction :=
  match s.rxState with
  | .waitHeader1 =>
    if byte = p.frameHeader1 then ({ s with rxState := .waitHeader2 }, []) else (s, [])
  | .waitHeader2 =>
    if byte = p.frameHeader2 then ({ s with rxState := .waitId }, [])
    else if byte ≠ p.frameHeader1 then ({ s with rxState := .waitHeader1 }, [])
    else (s, [])
  | .waitId =>
    ({ s with rxId := byte, rxChecksum := checksumUpdate p 0 byte, rxState := .waitLen }, [])
  | .waitLen =>
    if byte.toNat > s.rxBuffer.length then
      -- over-long: give up the candidate and look at this byte again
      self { s with rxState := .waitHeader1 } byte
    else
      ({ s with
          rxDataLen := byte
          rxChecksum := checksumUpdate p s.rxChecksum byte
          rxCnt := 0
          rxState := if byte > 0 then .waitData else .waitCrc }, [])
  | .waitData =>
    ({ s with
        rxBuffer := s.rxBuffer.set s.rxCnt byte
        rxCnt := s.rxCnt + 1
        rxChecksum := checksumUpdate p s.rxChecksum byte
        rxState := if s.rxCnt + 1 ≥ s.rxDataLen.toNat then .waitCrc else .waitData }, [])
  | .waitCrc =>
    if crcCheck p s byte then
      let (s, actions) := dispatch p s
      ({ s with rxState := .waitHeader1 }, actions)
    else ({ s with rxState := .waitHeader1 }, [])

/-- `protocol_fsm_feed` with at most `depth` nested self-calls. -/
def protocolFsmFeedRec : Nat → Mcu → UInt8 → Mcu × List McuAction
  | 0 => protocolFsmFeedBody p fun s _ => (s, [])
  | depth + 1 => protocolFsmFeedBody p (protocolFsmFeedRec depth)

/-- `protocol_fsm_feed`. The self-call is made in `STATE_WAIT_HEADER1`, where there is no other
(`protocolFsmFeedRec_eq`). -/
def protocolFsmFeed (s : Mcu) (byte : UInt8) : Mcu × List McuAction :=
  protocolFsmFeedRec p 1 s byte

/-- Outside `STATE_WAIT_LEN` the body does not call itself. -/
theorem protocolFsmFeedBody_congr (self self' : Mcu → UInt8 → Mcu × List McuAction) {s : Mcu}
    (hs : s.rxState ≠ .waitLen) (byte : UInt8) :
    protocolFsmFeedBody p self s byte = protocolFsmFeedBody p self' s byte := by
  unfold protocolFsmFeedBody
  cases h : s.rxState with
  | waitLen => exact absurd h hs
  | _ => rfl

/-- More nesting than one self-call changes nothing. -/
theorem protocolFsmFeedRec_eq (depth : Nat) (s : Mcu) (byte : UInt8) :
    protocolFsmFeedRec p (depth + 1) s byte = protocolFsmFeed p s byte := by
  have hheader : ∀ self self' : Mcu → UInt8 → Mcu × List McuAction,
      protocolFsmFeedBody p self { s with rxState := .waitHeader1 } byte =
        protocolFsmFeedBody p self' { s with rxState := .waitHeader1 } byte :=
    fun self self' => protocolFsmFeedBody_congr p self self' (by simp) byte
  rw [protocolFsmFeed, protocolFsmFeedRec, protocolFsmFeedRec]
  unfold protocolFsmFeedBody
  cases s.rxState with
  | waitLen =>
    simp only
    rw [protocolFsmFeedRec]
    cases depth with
    | zero => rfl
    | succ depth => rw [protocolFsmFeedRec, hheader _ fun s _ => (s, [])]
  | _ => rfl

/-- Feeding a byte string, with the actions in order. -/
def feedAll : Mcu → List UInt8 → Mcu × List McuAction
  | s, [] => (s, [])
  | s, byte :: bytes =>
    let (s, actions) := protocolFsmFeed p s byte
    let (s, actions') := feedAll s bytes
    (s, actions ++ actions')

end Mcu

end AutoSerialBridge
