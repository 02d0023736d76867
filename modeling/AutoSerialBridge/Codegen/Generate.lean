import AutoSerialBridge.Codegen.Validate
import AutoSerialBridge.Wire.Protocol

/-!
# Auto Serial Bridge — the generators

`_protocol_hash_input`, and what `generate_mcu_header`, `generate_mcu_source` and
`generate_cpp_config` write into the generated files as far as the wire protocol depends on it
(`Generated`): the texts of the constants and of the struct members. `compile` is what the compiler
of the target makes of these files.

`Deployed t hash raw p` says that `p` is the protocol compiled for the target `t` from a YAML value
`raw` which `validate_protocol` accepts. The digest of the hash input is a parameter.
-/

namespace AutoSerialBridge

-- ---------------------------------------------------------------------------
-- The protocol hash
-- ---------------------------------------------------------------------------

/-- An entry of `messages` in the hash input. -/
structure HashedMessage where
  id : Yaml
  direction : Yaml
  reliable : Bool
  fieldTypes : List Yaml

/-- The dictionary `_protocol_hash_input` returns. -/
structure ProtocolHashInput where
  headByte1 : Yaml
  headByte2 : Yaml
  checksum : String
  requireHandshake : Bool
  messages : List HashedMessage

section

variable {ε : Type}

/-- The value of `config_data.get('type_mappings', {})` as the dictionary `get_c_type` looks into. -/
def typeMappingsOf (v : Yaml) : Except (PyError ε) PyDict :=
  match v with
  | .map entries => .ok entries
  | _ => .error .attributeError

def hashedMessage (typeMappings : PyDict) (message : Yaml) :
    Except (PyError ε) HashedMessage := do
  let id ← pyIndex message "id"
  let direction ← pyIndex message "direction"
  let reliable ← messageReliable message
  let fields ← pyIter ((← pyGet? message "fields").getD (.list []))
  let fieldTypes ← fields.mapM fun field => do getCType (← pyIndex field "type") typeMappings
  return { id := id, direction := direction, reliable := reliable, fieldTypes := fieldTypes }

/-- `_protocol_hash_input`. -/
def protocolHashInput (configData : Yaml) : Except (PyError ε) ProtocolHashInput := do
  let cfg := (← pyGet? configData "config").getD (.map [])
  let typeMappings ← typeMappingsOf ((← pyGet? configData "type_mappings").getD (.map []))
  let merged ← mergeMessages ((← pyGet? configData "messages").getD (.list []))
  let messages ← merged.mapM (hashedMessage typeMappings)
  return {
    headByte1 := ← pyIndex cfg "head_byte_1"
    headByte2 := ← pyIndex cfg "head_byte_2"
    checksum := pyUpper (pyStr ((← pyGet? cfg "checksum").getD (.str "CRC8")))
    requireHandshake := ((← pyGet? cfg "require_handshake").getD (.bool true)).truthy
    messages := messages }

end

-- ---------------------------------------------------------------------------
-- The generated files
-- ---------------------------------------------------------------------------

/-- A member of a generated struct: `{c_type} {proto};`. -/
structure GeneratedField where
  cType : String
  proto : String

/-- What the generators write about a message. -/
structure GeneratedMessage where
  name : String
  id : Yaml
  reliable : Bool
  fields : List GeneratedField
  wirePayloadSize : Nat

/-- The constants in the generated files. -/
structure Generated where
  headByte1 : Yaml
  headByte2 : Yaml
  checksum : String
  requireHandshake : Bool
  ignoreVersionMismatch : Bool
  strictHeartbeat : Bool
  heartbeatTimeoutMs : Yaml
  reliableMaxRetries : Yaml
  bufferSize : Yaml
  /-- `MAX_PACKET_PAYLOAD_SIZE`, and the size of `rx_buffer`. -/
  maxPayloadSize : Nat
  messages : List GeneratedMessage
  protocolHash : UInt32

section

variable {ε : Type}

def generateField (typeMappings : PyDict) (field : Yaml) : Except (PyError ε) GeneratedField := do
  let cType ← getCType (← pyIndex field "type") typeMappings
  return { cType := pyStr cType, proto := pyStr (← pyIndex field "proto") }

/-- The generated text of one message; its name is used through `name.upper()`. -/
def generateMessage (typeMappings : PyDict) (message : Yaml) :
    Except (PyError ε) GeneratedMessage := do
  match ← pyIndex message "name" with
  | .scalar (.str name) =>
    return {
      name := name
      id := ← pyIndex message "id"
      reliable := ← messageReliable message
      fields := ← (← pyIter (← pyIndex message "fields")).mapM (generateField typeMappings)
      wirePayloadSize := ← messageWirePayloadSize message typeMappings }
  | _ => throw .attributeError

/-- The files of one configuration, as `main` writes them. -/
def generate (hash : ProtocolHashInput → UInt32) (configData : Yaml) :
    Except (PyError ε) Generated := do
  let config ← pyIndex configData "config"
  let typeMappings := (← pyGet? configData "type_mappings").getD (.map [])
  let typeMappings ← typeMappingsOf (if typeMappings.truthy then typeMappings else .map [])
  let merged ← mergeMessages ((← pyGet? configData "messages").getD (.list []))
  let hashInput ← protocolHashInput configData
  let messages ← merged.mapM (generateMessage typeMappings)
  return {
    headByte1 := ← pyIndex config "head_byte_1"
    headByte2 := ← pyIndex config "head_byte_2"
    checksum := pyUpper (pyStr ((← pyGet? config "checksum").getD (.str "CRC8")))
    requireHandshake := ((← pyGet? config "require_handshake").getD (.bool true)).truthy
    ignoreVersionMismatch :=
      ((← pyGet? config "ignore_version_mismatch").getD (.bool false)).truthy
    strictHeartbeat := ((← pyGet? config "strict_heartbeat").getD (.bool true)).truthy
    heartbeatTimeoutMs := (← pyGet? config "heartbeat_timeout_ms").getD (.int 3000)
    reliableMaxRetries := (← pyGet? config "reliable_max_retries").getD (.int 3)
    bufferSize := ← pyIndex config "buffer_size"
    maxPayloadSize := pyMax (messages.map (·.wirePayloadSize))
    messages := messages
    protocolHash := hash hashInput }

end

-- ---------------------------------------------------------------------------
-- Compilation
-- ---------------------------------------------------------------------------

/-- An integer literal that is a byte: a header byte or a packet id. -/
def byteLiteral? (v : Yaml) : Option UInt8 :=
  match v.asInt? with
  | some n => if 0 ≤ n ∧ n ≤ 255 then some (UInt8.ofNat n.toNat) else none
  | none => none

/-- An integer literal as a `size_t`. A literal that no `size_t` holds is rejected. -/
def sizeLiteral? (v : Yaml) : Option UInt64 :=
  match v.asInt? with
  | some n => if 0 ≤ n ∧ n < 2 ^ 64 then some (UInt64.ofNat n.toNat) else none
  | none => none

/-- An integer literal as an `int` of 32 bits. -/
def intLiteral? (v : Yaml) : Option Int := v.asInt?.map fun n => n.bmod (2 ^ 32)

/-- The enumerators of `ChecksumAlgo`. -/
def checksumAlgo? (name : String) : Option ChecksumAlgo :=
  match name with
  | "NONE" => some .none
  | "SUM8" => some .sum8
  | "XOR8" => some .xor8
  | "CRC8" => some .crc8
  | _ => none

variable (t : CTarget)

def compileField (field : GeneratedField) : Option Field :=
  (t.typeOf field.cType).map fun cType => { cType := cType, proto := field.proto }

def compileMessage (m : GeneratedMessage) : Option Message := do
  return {
    name := m.name
    id := ← byteLiteral? m.id
    reliable := m.reliable
    fields := ← m.fields.mapM (compileField t) }

/-- The compiled protocol, or nothing when the generated files do not compile. -/
def compile (g : Generated) : Option Protocol := do
  return {
    frameHeader1 := ← byteLiteral? g.headByte1
    frameHeader2 := ← byteLiteral? g.headByte2
    checksumAlgo := ← checksumAlgo? g.checksum
    requireHandshake := g.requireHandshake
    ignoreVersionMismatch := g.ignoreVersionMismatch
    strictHeartbeat := g.strictHeartbeat
    heartbeatTimeoutMs := ← intLiteral? g.heartbeatTimeoutMs
    reliableMaxRetries := ← intLiteral? g.reliableMaxRetries
    bufferSize := ← sizeLiteral? g.bufferSize
    maxPacketPayloadSize := g.maxPayloadSize
    messages := ← g.messages.mapM (compileMessage t)
    protocolHash := g.protocolHash }

/-- `p` is compiled from the accepted configuration `raw`. -/
def Deployed (hash : ProtocolHashInput → UInt32) (raw : Yaml) (p : Protocol) : Prop :=
  ∃ configData g, validateProtocol raw = .ok configData ∧
    (generate hash configData : Check Generated) = .ok g ∧ compile t g = some p

end AutoSerialBridge
