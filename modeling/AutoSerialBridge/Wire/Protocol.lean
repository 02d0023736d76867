import Mathlib

/-!
# Auto Serial Bridge — the compiled protocol

What the two ends know of a protocol once the generated files are compiled: the header bytes,
the checksum algorithm, the flags, and for every message (business and system) its id, its
`reliable` flag and the packed struct `Packet_<name>`. `Codegen/Generate.lean` builds a `Protocol`
from a configuration; everything on the wire is a function of it.

A `CType` is what the compiler makes of a type name in a generated struct: its `sizeof`, and how a
32-bit value is stored into and read back from a member of that type. The five types the generator
supports are fixed; every other name is the compiler's business and is a parameter (`CTarget`).

`Protocol.WellFormed` is what every generated protocol satisfies. It says nothing about the sizes
of the structs against `MAX_PACKET_PAYLOAD_SIZE`: that is `Protocol.Fits`, and it can fail, because
the generator computes the constant from its own table of sizes.
-/

namespace AutoSerialBridge

-- ---------------------------------------------------------------------------
-- Checksums
-- ---------------------------------------------------------------------------

/-- `config::ChecksumAlgo`. -/
inductive ChecksumAlgo where
  | none
  | sum8
  | xor8
  | crc8
deriving DecidableEq, Repr

/-- One of the eight inner iterations of `generate_crc8_table`. Python integers are unbounded, so
the register is not masked here, only when the entry is stored. -/
def crc8Shift (crc : Nat) : Nat :=
  if crc &&& 0x80 ≠ 0 then (crc <<< 1) ^^^ 0x31 else crc <<< 1

/-- `generate_crc8_table`: the lookup table of polynomial `0x31`. -/
def generateCrc8Table : List Nat :=
  (List.range 256).map fun i => crc8Shift^[8] i &&& 0xFF

/-- `PacketHandler::checksum_update`. -/
def checksumUpdate (algo : ChecksumAlgo) (current byte : UInt8) : UInt8 :=
  match algo with
  | .none => 0x00
  | .sum8 => current + byte
  | .xor8 => current ^^^ byte
  | .crc8 => UInt8.ofNat (generateCrc8Table.getD (current ^^^ byte).toNat 0)

/-- `PacketHandler::calculate_checksum`. -/
def calculateChecksum (algo : ChecksumAlgo) (data : List UInt8) : UInt8 :=
  data.foldl (checksumUpdate algo) 0

-- ---------------------------------------------------------------------------
-- C types
-- ---------------------------------------------------------------------------

/-- The `n` low bytes of `v`, least significant first. -/
def leBytes : Nat → Nat → List UInt8
  | 0, _ => []
  | n + 1, v => UInt8.ofNat v :: leBytes n (v / 256)

/-- The value of a little-endian byte string. -/
def leNat : List UInt8 → Nat
  | [] => 0
  | b :: rest => b.toNat + 256 * leNat rest

@[simp] theorem leBytes_length (n v : Nat) : (leBytes n v).length = n := by
  induction n generalizing v with
  | zero => rfl
  | succ n ih => simp [leBytes, ih]

theorem leNat_leBytes (n v : Nat) : leNat (leBytes n v) = v % 256 ^ n := by
  induction n generalizing v with
  | zero => simp [leBytes, leNat, Nat.mod_one]
  | succ n ih =>
    rw [leBytes, leNat, ih, UInt8.toNat_ofNat', Nat.pow_succ 256 n, Nat.mul_comm (256 ^ n) 256,
      Nat.mod_mul]

/-- A C type as the compiler sees it in a generated struct: `load` is the member's value converted
to `uint32_t`, `store` the bytes after assigning a `uint32_t` value to the member. -/
structure CType where
  name : String
  size : Nat
  load : List UInt8 → UInt32
  store : UInt32 → List UInt8

/-- The fixed-width integer types. Conversion to `uint32_t` and back is modulo `2 ^ 32`, so
`int32_t` has the same images as `uint32_t`. -/
def CType.integer (name : String) (size : Nat) : CType where
  name := name
  size := size
  load bytes := UInt32.ofNat (leNat bytes)
  store v := leBytes size v.toNat

/-- The C implementation both ends are compiled with. `typeOf` gives the arithmetic types it knows
(the generated code and `serial_controller.cpp` use every member as a number): the five supported
ones as the README fixes them (packed, little-endian), every other name as it likes. No arithmetic
type of C is larger than `long double _Complex`. -/
structure CTarget where
  typeOf : String → Option CType
  size_pos : ∀ {s : String} {t : CType}, typeOf s = some t → 0 < t.size
  size_le : ∀ {s : String} {t : CType}, typeOf s = some t → t.size ≤ 32
  store_length : ∀ {s : String} {t : CType}, typeOf s = some t →
    ∀ v, (t.store v).length = t.size
  uint8_t : typeOf "uint8_t" = some (.integer "uint8_t" 1)
  uint16_t : typeOf "uint16_t" = some (.integer "uint16_t" 2)
  uint32_t : typeOf "uint32_t" = some (.integer "uint32_t" 4)
  int32_t : typeOf "int32_t" = some (.integer "int32_t" 4)
  -- an IEEE-754 single holds every integer below 2 ^ 24 exactly
  float : ∃ t, typeOf "float" = some t ∧ t.size = 4 ∧
    ∀ v : UInt32, v.toNat < 2 ^ 24 → t.load (t.store v) = v

-- ---------------------------------------------------------------------------
-- Messages and protocols
-- ---------------------------------------------------------------------------

/-- A member of a generated struct. -/
structure Field where
  cType : CType
  proto : String

/-- A message with its struct `Packet_<name>`. -/
structure Message where
  name : String
  id : UInt8
  reliable : Bool
  fields : List Field

namespace Message

/-- `sizeof(Packet_<name>)` under `#pragma pack(1)`. -/
def sizeofPacket (m : Message) : Nat := (m.fields.map (·.cType.size)).sum

/-- The payload length on the wire: a reliable message carries one sequence byte more. -/
def wireSize (m : Message) : Nat := m.sizeofPacket + if m.reliable then 1 else 0

/-- The bytes of a struct whose members are assigned the given values. -/
def image (m : Message) (values : List UInt32) : List UInt8 :=
  (m.fields.zip values).flatMap fun (field, v) => field.cType.store v

/-- A member of a struct, converted to `uint32_t`. -/
def member (m : Message) (index : Nat) (bytes : List UInt8) : UInt32 :=
  match m.fields[index]? with
  | some field =>
    let offset := ((m.fields.take index).map (·.cType.size)).sum
    field.cType.load ((bytes.drop offset).take field.cType.size)
  | none => 0

theorem sizeofPacket_le_wireSize (m : Message) : m.sizeofPacket ≤ m.wireSize :=
  Nat.le_add_right _ _

theorem wireSize_of_plain {m : Message} (h : m.reliable = false) :
    m.wireSize = m.sizeofPacket := by
  simp [wireSize, h]

theorem wireSize_of_reliable {m : Message} (h : m.reliable = true) :
    m.wireSize = m.sizeofPacket + 1 := by
  simp [wireSize, h]

end Message

/-- `PACKET_ID_ACK`, `PACKET_ID_HEARTBEAT` and `PACKET_ID_HANDSHAKE`. -/
def packetIdAck : UInt8 := 0xFD
@[inherit_doc packetIdAck] def packetIdHeartbeat : UInt8 := 0xFE
@[inherit_doc packetIdAck] def packetIdHandshake : UInt8 := 0xFF

/-- The compiled contents of `protocol.h`, `protocol.c` and `generated_config.hpp`. -/
structure Protocol where
  frameHeader1 : UInt8
  frameHeader2 : UInt8
  checksumAlgo : ChecksumAlgo
  requireHandshake : Bool
  ignoreVersionMismatch : Bool
  strictHeartbeat : Bool
  heartbeatTimeoutMs : Int
  reliableMaxRetries : Int
  bufferSize : UInt64
  /-- `MAX_PACKET_PAYLOAD_SIZE` on the ROS side, `sizeof(rx_buffer)` on the MCU side: the generator
  writes the same number into both files. -/
  maxPacketPayloadSize : Nat
  messages : List Message
  protocolHash : UInt32

namespace Protocol

variable (p : Protocol)

/-- The `case` of a generated `switch (id)`. -/
def message? (id : UInt8) : Option Message := p.messages.find? fun m => m.id == id

/-- `config::expected_payload_size`. -/
def expectedPayloadSize (id : UInt8) : Nat :=
  match p.message? id with
  | some m => m.wireSize
  | none => 0

/-- `config::is_reliable_packet`. -/
def isReliablePacket (id : UInt8) : Bool :=
  match p.message? id with
  | some m => m.reliable
  | none => false

/-- `sizeof(Packet_<name>)` of the message with the given id. -/
def sizeofPacket (id : UInt8) : Nat :=
  match p.message? id with
  | some m => m.sizeofPacket
  | none => 0

/-- What the generator guarantees of every protocol it emits. -/
structure WellFormed : Prop where
  ids_nodup : (p.messages.map (·.id)).Nodup
  names_nodup : (p.messages.map (·.name)).Nodup
  size_pos : ∀ m ∈ p.messages, 0 < m.sizeofPacket
  store_length : ∀ m ∈ p.messages, ∀ f ∈ m.fields, ∀ v, (f.cType.store v).length = f.cType.size
  wireSize_le : ∀ m ∈ p.messages, m.wireSize ≤ 255
  fits_reliable : ∀ m ∈ p.messages, m.reliable = true → m.wireSize ≤ p.maxPacketPayloadSize
  max_pos : 2 ≤ p.maxPacketPayloadSize
  max_le : p.maxPacketPayloadSize ≤ 255
  buffer_le : p.maxPacketPayloadSize + 5 ≤ p.bufferSize.toNat
  ack : ∃ m ∈ p.messages, m.id = packetIdAck ∧ m.name = "Ack" ∧ m.reliable = false ∧
    m.fields.length = 2
  heartbeat : ∃ m ∈ p.messages, m.id = packetIdHeartbeat ∧ m.name = "Heartbeat" ∧
    m.reliable = false ∧ m.fields.length = 1
  handshake : ∃ m ∈ p.messages, m.id = packetIdHandshake ∧ m.name = "Handshake" ∧
    m.reliable = false ∧ m.fields.length = 1

/-- Every message's wire payload is within the payload limit compiled into both ends. -/
def Fits : Prop := ∀ m ∈ p.messages, m.wireSize ≤ p.maxPacketPayloadSize

instance : Decidable p.Fits := inferInstanceAs (Decidable (∀ m ∈ p.messages, _))

variable {p}

/-- The `switch` reaches exactly the message with that id. -/
theorem WellFormed.message?_eq (hwf : p.WellFormed) {m : Message} (hm : m ∈ p.messages) :
    p.message? m.id = some m := by
  obtain ⟨m', hm'⟩ : ∃ m', p.message? m.id = some m' := by
    rw [← Option.isSome_iff_exists, message?, List.find?_isSome]
    exact ⟨m, hm, by simp⟩
  have hmem : m' ∈ p.messages := List.mem_of_find?_eq_some hm'
  have hid : m'.id = m.id := by simpa using List.find?_some hm'
  rw [hm', List.inj_on_of_nodup_map hwf.ids_nodup hmem hm hid]

theorem WellFormed.eq_of_id (hwf : p.WellFormed) {m m' : Message} (hm : m ∈ p.messages)
    (hm' : m' ∈ p.messages) (h : m.id = m'.id) : m = m' :=
  List.inj_on_of_nodup_map hwf.ids_nodup hm hm' h

theorem WellFormed.eq_of_name (hwf : p.WellFormed) {m m' : Message} (hm : m ∈ p.messages)
    (hm' : m' ∈ p.messages) (h : m.name = m'.name) : m = m' :=
  List.inj_on_of_nodup_map hwf.names_nodup hm hm' h

theorem message?_mem {id : UInt8} {m : Message} (h : p.message? id = some m) :
    m ∈ p.messages ∧ m.id = id :=
  ⟨List.mem_of_find?_eq_some h, by simpa using List.find?_some h⟩

theorem WellFormed.expectedPayloadSize_eq (hwf : p.WellFormed) {m : Message}
    (hm : m ∈ p.messages) : p.expectedPayloadSize m.id = m.wireSize := by
  rw [expectedPayloadSize, hwf.message?_eq hm]

/-- A nonzero expected size names a message of the protocol. -/
theorem expectedPayloadSize_ne_zero {id : UInt8} (h : p.expectedPayloadSize id ≠ 0) :
    ∃ m ∈ p.messages, m.id = id ∧ p.expectedPayloadSize id = m.wireSize := by
  rw [expectedPayloadSize] at h ⊢
  cases hm : p.message? id with
  | none => simp [hm] at h
  | some m => exact ⟨m, (message?_mem hm).1, (message?_mem hm).2, rfl⟩

theorem Fits.expectedPayloadSize_le (hfits : p.Fits) (id : UInt8) :
    p.expectedPayloadSize id ≤ p.maxPacketPayloadSize := by
  by_cases h : p.expectedPayloadSize id = 0
  · omega
  · obtain ⟨m, hm, -, heq⟩ := expectedPayloadSize_ne_zero h
    rw [heq]
    exact hfits m hm

theorem WellFormed.wireSize_pos (hwf : p.WellFormed) {m : Message} (hm : m ∈ p.messages) :
    0 < m.wireSize :=
  Nat.lt_of_lt_of_le (hwf.size_pos m hm) m.sizeofPacket_le_wireSize

end Protocol

end AutoSerialBridge
