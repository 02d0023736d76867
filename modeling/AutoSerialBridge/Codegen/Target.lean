import AutoSerialBridge.Codegen.Deploy

/-!
# Auto Serial Bridge — a concrete target and two configurations

A C implementation with the fixed-width types and IEEE-754 single precision (`lp64`), the
configuration of `config/protocol.yaml` with its three sample messages (`demoConfig`), and the same
configuration without messages but with a line `uint32_t: "uint64_t"` among its type aliases
(`remappedConfig`). Both are accepted; the second shows that the validator never looks at the types
of the injected system messages.
-/

namespace AutoSerialBridge

-- ---------------------------------------------------------------------------
-- The target
-- ---------------------------------------------------------------------------

/-- The bits of the IEEE-754 single nearest to a natural number below `2 ^ 32`, ties to even. -/
def singleBits (v : Nat) : Nat :=
  if v = 0 then 0
  else
    let e := v.log2
    if e ≤ 23 then (e + 127) * 2 ^ 23 + (v * 2 ^ (23 - e) - 2 ^ 23)
    else
      let d := e - 23
      let q := v / 2 ^ d
      let r := v % 2 ^ d
      let up := 2 ^ (d - 1) < r ∨ (r = 2 ^ (d - 1) ∧ q % 2 = 1)
      -- a carry out of the mantissa increments the exponent
      (e + 127) * 2 ^ 23 + ((if up then q + 1 else q) - 2 ^ 23)

/-- The integer part of a nonnegative IEEE-754 single. -/
def singleToNat (bits : Nat) : Nat :=
  let e := bits / 2 ^ 23 % 256
  let m := bits % 2 ^ 23 + 2 ^ 23
  if e < 127 then 0 else if e ≤ 150 then m / 2 ^ (150 - e) else m * 2 ^ (e - 150)

/-- `float`. -/
def CType.single : CType where
  name := "float"
  size := 4
  load bytes := UInt32.ofNat (singleToNat (leNat bytes))
  store v := leBytes 4 (singleBits v.toNat)

/-- A single holds every integer below `2 ^ 24`. -/
theorem singleToNat_singleBits {v : Nat} (hv : v < 2 ^ 24) :
    singleBits v < 2 ^ 32 ∧ singleToNat (singleBits v) = v := by
  by_cases h0 : v = 0
  · subst h0
    decide
  · have hlog : v.log2 ≤ 23 := by
      have := (Nat.log2_lt h0).mpr hv
      omega
    have hlo : 2 ^ v.log2 ≤ v := Nat.log2_self_le h0
    have hhi : v < 2 ^ (v.log2 + 1) := Nat.lt_log2_self
    rw [singleBits, if_neg h0]
    simp only [if_pos hlog]
    generalize v.log2 = e at hlog hlo hhi ⊢
    -- the scaled mantissa has exactly 24 bits
    have hpos : 0 < 2 ^ (23 - e) := Nat.two_pow_pos _
    have hsplit : 2 ^ e * 2 ^ (23 - e) = 2 ^ 23 := by rw [← Nat.pow_add]; congr 1; omega
    have hsplit' : 2 ^ (e + 1) * 2 ^ (23 - e) = 2 ^ 24 := by rw [← Nat.pow_add]; congr 1; omega
    have hmlo : 2 ^ 23 ≤ v * 2 ^ (23 - e) := hsplit ▸ Nat.mul_le_mul_right _ hlo
    have hmhi : v * 2 ^ (23 - e) < 2 ^ 24 := hsplit' ▸ Nat.mul_lt_mul_of_pos_right hhi hpos
    generalize hM : v * 2 ^ (23 - e) = M at hmlo hmhi ⊢
    have he : ((e + 127) * 2 ^ 23 + (M - 2 ^ 23)) / 2 ^ 23 % 256 = e + 127 := by omega
    have hm : ((e + 127) * 2 ^ 23 + (M - 2 ^ 23)) % 2 ^ 23 + 2 ^ 23 = M := by omega
    refine ⟨by omega, ?_⟩
    rw [singleToNat]
    simp only [he, hm]
    rw [if_neg (by omega), if_pos (by omega), show 150 - (e + 127) = 23 - e by omega, ← hM,
      Nat.mul_div_cancel _ hpos]

theorem CType.single_load_store {v : UInt32} (hv : v.toNat < 2 ^ 24) :
    CType.single.load (CType.single.store v) = v := by
  obtain ⟨hlt, heq⟩ := singleToNat_singleBits hv
  show UInt32.ofNat (singleToNat (leNat (leBytes 4 (singleBits v.toNat)))) = v
  rw [leNat_leBytes, show 256 ^ 4 = 2 ^ 32 by rfl, Nat.mod_eq_of_lt hlt, heq, UInt32.ofNat_toNat]

/-- The types `lp64` knows. -/
def lp64Types : List CType :=
  [.integer "uint8_t" 1, .integer "uint16_t" 2, .integer "uint32_t" 4, .integer "int32_t" 4,
    .integer "uint64_t" 8, .single]

theorem lp64Types_spec {t : CType} (ht : t ∈ lp64Types) :
    0 < t.size ∧ t.size ≤ 32 ∧ ∀ v, (t.store v).length = t.size := by
  simp only [lp64Types, List.mem_cons, List.not_mem_nil, or_false] at ht
  rcases ht with rfl | rfl | rfl | rfl | rfl | rfl <;>
    exact ⟨by decide, by decide, fun v => leBytes_length _ _⟩

/-- A C implementation with the fixed-width types and IEEE-754 floats. -/
def lp64 : CTarget where
  typeOf name := lp64Types.find? fun t => t.name == name
  size_pos h := (lp64Types_spec (List.mem_of_find?_eq_some h)).1
  size_le h := (lp64Types_spec (List.mem_of_find?_eq_some h)).2.1
  store_length h := (lp64Types_spec (List.mem_of_find?_eq_some h)).2.2
  uint8_t := rfl
  uint16_t := rfl
  uint32_t := rfl
  int32_t := rfl
  float := ⟨.single, rfl, rfl, fun _ => CType.single_load_store⟩

-- ---------------------------------------------------------------------------
-- The configurations
-- ---------------------------------------------------------------------------

/-- `serial_controller` of `config/protocol.yaml`. -/
def demoSerialController : Yaml :=
  .map [(.str "ros__parameters", .map [(.str "port", .str "/dev/ttyACM0"),
    (.str "baudrate", .int 115200), (.str "debug_raw_frame", .bool false)])]

/-- `config` of `config/protocol.yaml`, with the given receive buffer. -/
def demoSettings (bufferSize : Int) : Yaml :=
  .map [(.str "buffer_size", .int bufferSize), (.str "head_byte_1", .int 0x5A),
    (.str "head_byte_2", .int 0xA5), (.str "checksum", .str "CRC8"),
    (.str "require_handshake", .bool true), (.str "ignore_version_mismatch", .bool false),
    (.str "strict_heartbeat", .bool true), (.str "heartbeat_interval_ms", .int 1000),
    (.str "heartbeat_timeout_ms", .int 3000), (.str "reliable_retry_interval_ms", .int 100),
    (.str "reliable_max_retries", .int 3), (.str "qos_depth", .int 10)]

/-- `type_mappings` of `config/protocol.yaml`, after the given entries. -/
def demoTypeMappings (extra : PyDict) : Yaml :=
  .map (extra ++ [(.str "f32", .str "float"), (.str "i32", .str "int32_t"),
    (.str "u8", .str "uint8_t"), (.str "u16", .str "uint16_t"), (.str "u32", .str "uint32_t")])

/-- A sample message with one field. -/
def demoMessage (name : String) (id : Int) (direction : String) (extra : PyDict)
    (topicKey topic rosMsg type : String) : Yaml :=
  .map ([(.str "name", .str name), (.str "id", .int id), (.str "direction", .str direction)] ++
    extra ++ [(.str topicKey, .str topic), (.str "ros_msg", .str rosMsg),
      (.str "fields", .list [.map [(.str "proto", .str "value"), (.str "type", .str type),
        (.str "ros", .str "data")]])])

/-- `config/protocol.yaml` with its sample messages. -/
def demoConfig : Yaml :=
  .map [(.str "serial_controller", demoSerialController), (.str "config", demoSettings 1024),
    (.str "type_mappings", demoTypeMappings []),
    (.str "messages", .list [
      demoMessage "DemoCommand" 1 "tx" [] "sub_topic" "demo/command" "std_msgs/msg/UInt32" "u32",
      demoMessage "DemoReliableCommand" 2 "tx" [(.str "reliable", .bool true)] "sub_topic"
        "demo/reliable_command" "std_msgs/msg/UInt32" "u32",
      demoMessage "DemoTelemetry" 3 "rx" [] "pub_topic" "demo/telemetry" "std_msgs/msg/Float32"
        "f32"])]

/-- `config/protocol.yaml` with a further type alias, for the type of `Heartbeat.count` and
`Handshake.protocol_hash`. -/
def remappedConfig : Yaml :=
  .map [(.str "serial_controller", demoSerialController), (.str "config", demoSettings 1024),
    (.str "type_mappings", demoTypeMappings [(.str "uint32_t", .str "uint64_t")]),
    (.str "messages", .list [])]

/-- `demoConfig` with the same wire data: the messages in another order and under other names, a
further alias for `uint32_t`, and a larger buffer. -/
def renamedConfig : Yaml :=
  .map [(.str "serial_controller", demoSerialController), (.str "config", demoSettings 2048),
    (.str "type_mappings", demoTypeMappings [(.str "word", .str "uint32_t")]),
    (.str "messages", .list [
      demoMessage "Telemetry" 3 "rx" [] "pub_topic" "telemetry" "std_msgs/msg/Float32" "f32",
      demoMessage "ReliableCommand" 2 "tx" [(.str "reliable", .bool true)] "sub_topic"
        "reliable_command" "std_msgs/msg/UInt32" "word",
      demoMessage "Command" 1 "tx" [] "sub_topic" "command" "std_msgs/msg/UInt32" "word"])]

/-- `demoConfig` with a `buffer_size` for which the ring's size wraps. -/
def wrappedConfig : Yaml :=
  .map [(.str "serial_controller", demoSerialController),
    (.str "config", demoSettings 0xFFFFFFFFFFFFFFFF), (.str "type_mappings", demoTypeMappings []),
    (.str "messages", .list [])]

/-- A protocol with the constants of `config/protocol.yaml`. -/
def demoProtocolOf (bufferSize : UInt64) (maxPacketPayloadSize : Nat) (messages : List Message)
    (hash : UInt32) : Protocol where
  frameHeader1 := 0x5A
  frameHeader2 := 0xA5
  checksumAlgo := .crc8
  requireHandshake := true
  ignoreVersionMismatch := false
  strictHeartbeat := true
  heartbeatTimeoutMs := 3000
  reliableMaxRetries := 3
  bufferSize := bufferSize
  maxPacketPayloadSize := maxPacketPayloadSize
  messages := messages
  protocolHash := hash

/-- The compiled system messages. -/
def demoSystemMessages (u8 u32 : CType) : List Message :=
  [⟨"Ack", 0xFD, false, [⟨u8, "acked_id"⟩, ⟨u8, "ack_seq"⟩]⟩,
    ⟨"Heartbeat", 0xFE, false, [⟨u32, "count"⟩]⟩,
    ⟨"Handshake", 0xFF, false, [⟨u32, "protocol_hash"⟩]⟩]

/-- The compiled sample messages, under the given names, and the system messages. -/
def demoMessages (command reliableCommand telemetry : String) : List Message :=
  ⟨command, 1, false, [⟨.integer "uint32_t" 4, "value"⟩]⟩ ::
    ⟨reliableCommand, 2, true, [⟨.integer "uint32_t" 4, "value"⟩]⟩ ::
    ⟨telemetry, 3, false, [⟨.single, "value"⟩]⟩ ::
    demoSystemMessages (.integer "uint8_t" 1) (.integer "uint32_t" 4)

def demoProtocol : Protocol :=
  demoProtocolOf 1024 5 (demoMessages "DemoCommand" "DemoReliableCommand" "DemoTelemetry")
    0xDC27492C

def renamedProtocol : Protocol :=
  demoProtocolOf 2048 5 (demoMessages "Command" "ReliableCommand" "Telemetry") 0xDC27492C

def wrappedProtocol : Protocol :=
  demoProtocolOf 0xFFFFFFFFFFFFFFFF 4
    (demoSystemMessages (.integer "uint8_t" 1) (.integer "uint32_t" 4)) 0x8A582110

def remappedProtocol : Protocol :=
  demoProtocolOf 1024 2 (demoSystemMessages (.integer "uint8_t" 1) (.integer "uint64_t" 8)) 0x8A582110

theorem deployed_demo : Deployed lp64 (fun _ => 0xDC27492C) demoConfig demoProtocol :=
  ⟨_, _, rfl, rfl, rfl⟩

theorem deployed_renamed : Deployed lp64 (fun _ => 0xDC27492C) renamedConfig renamedProtocol :=
  ⟨_, _, rfl, rfl, rfl⟩

theorem deployed_wrapped : Deployed lp64 (fun _ => 0x8A582110) wrappedConfig wrappedProtocol :=
  ⟨_, _, rfl, rfl, rfl⟩

theorem deployed_remapped : Deployed lp64 (fun _ => 0x8A582110) remappedConfig remappedProtocol :=
  ⟨_, _, rfl, rfl, rfl⟩

theorem demo_fits : demoProtocol.Fits := by decide

/-- The generator counts one byte for a type it does not know: `MAX_PACKET_PAYLOAD_SIZE` is 2, a
`Heartbeat` has 8 bytes. -/
theorem remapped_not_fits : ¬ remappedProtocol.Fits := by decide

end AutoSerialBridge
