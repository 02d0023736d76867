import AutoSerialBridge.Codegen.Files

/-!
# Auto Serial Bridge — the text of protocol.h and protocol.c

`generate_mcu_header` and `generate_mcu_source` line by line, and the regular expression that finds the
USER CODE blocks of a generated file again. A line is a sequence of parts, so that the identifiers the
generator declares at file scope, the values of its enumerators and the labels of the dispatching
`switch` can be read off the text. What `Files.lean` has of the two generators is what can raise.

`\w` of a character that is not ASCII is a parameter (`WordClass`).
-/

namespace AutoSerialBridge

-- ---------------------------------------------------------------------------
-- Lines
-- ---------------------------------------------------------------------------

/-- A part of a line. Where a function of the header is defined in the source, its name is text. -/
inductive Part where
  | text (s : String)
  | declared (identifier : String)
  | constant (identifier value : String)
  | label (identifier : String)

/-- A line of a generated file, or a USER CODE block. -/
inductive Line where
  | code (parts : List Part)
  | block (key : String)

/-- A line without a declaration. -/
def plain (s : String) : Line := .code [.text s]

/-- The USER CODE blocks of a file, in the order of assignment: the last one of a key counts. -/
abbrev UserBlocks := List (List Char × List Char)

/-- `blocks.get(key)`. -/
def UserBlocks.get? (blocks : UserBlocks) (key : List Char) : Option (List Char) :=
  blocks.reverse.lookup key

/-- `/* USER CODE BEGIN {key} */`. -/
def beginMarker (key : List Char) : List Char :=
  "/* USER CODE BEGIN ".toList ++ key ++ " */".toList

/-- `/* USER CODE END {key} */`. -/
def endMarker (key : List Char) : List Char := "/* USER CODE END ".toList ++ key ++ " */".toList

/-- `render_block`, the line end apart. -/
def renderBlock (blocks : UserBlocks) (key : List Char) : List Char :=
  beginMarker key ++ (blocks.get? key).getD ['\n'] ++ endMarker key

def Part.render : Part → List Char
  | text s => s.toList
  | declared identifier => identifier.toList
  | constant identifier value => identifier.toList ++ " = ".toList ++ value.toList
  | label identifier => identifier.toList

def Line.render (blocks : UserBlocks) : Line → List Char
  | code parts => parts.flatMap Part.render ++ ['\n']
  | block key => renderBlock blocks key.toList ++ ['\n']

/-- The content of a generated file. -/
def renderFile (lines : List Line) (blocks : UserBlocks) : List Char :=
  lines.flatMap (Line.render blocks)

/-- The keys of the USER CODE blocks. -/
def blockKeys (lines : List Line) : List String :=
  lines.filterMap fun
    | .block key => some key
    | .code _ => none

/-- The parts outside the blocks. -/
def codeParts (lines : List Line) : List Part :=
  lines.flatMap fun
    | .code parts => parts
    | .block _ => []

-- ---------------------------------------------------------------------------
-- generate_mcu_header
-- ---------------------------------------------------------------------------

/-- `MCU_FILE_BANNER`. -/
def mcuFileBanner : List Line :=
  ["// Auto-generated by scripts/codegen.py from config/protocol.yaml.",
    "//",
    "// 警告：本文件生成在 build 目录中，清理构建目录（rm -rf build、",
    "// colcon build --cmake-clean-first 等）会连同 USER CODE 块中的手写代码一起丢失。",
    "// 长期维护的 MCU 业务代码请保存在你的 MCU 工程里，本文件只做集成拷贝。"].map plain

/-- `{1 if v else 0}`. -/
def bit (v : Yaml) : String := if v.truthy then "1" else "0"

/-- A hexadecimal number with capital letters. -/
def upperHex : Nat → Nat → String
  | 0, _ => ""
  | width + 1, n =>
    upperHex width (n / 16) ++ String.singleton ("0123456789ABCDEF".toList.getD (n % 16) '0')

/-- `PACKET_ID_{msg['name'].upper()}`. -/
def packetIdName (msg : Yaml) : Check String := do return "PACKET_ID_" ++ (← upperName msg)

def enumeratorLine (msg : Yaml) : Check Line := do
  return .code [.text "    ", .constant (← packetIdName msg) (← shownIndex msg "id"), .text ","]

def structLines (typeMappings : PyDict) (msg : Yaml) : Check (List Line) := do
  let fields ← (← fieldsOf msg).mapM fun field => do
    let cType ← getCType (← pyIndex field "type") typeMappings
    return plain ("    " ++ (← strOf cType) ++ " " ++ (← shownIndex field "proto") ++ ";")
  let name ← shownIndex msg "name"
  return plain "typedef struct \x7b" :: fields ++
    [.code [.text "\x7d ", .declared ("Packet_" ++ name), .text ";"], plain ""]

def declarationLines (msg : Yaml) : Check (List Line) := do
  let name ← shownIndex msg "name"
  let parameter := .text ("(const Packet_" ++ name ++ "* pkt);")
  return [.code [.text "void ", .declared ("on_receive_" ++ name), parameter],
    .code [.text "void ", .declared ("send_" ++ name), parameter]]

/-- `generate_mcu_header`. -/
def mcuHeaderLines (config : Yaml) (messages : List Yaml) (typeMappings : PyDict)
    (protocolHash : UInt32) : Check (List Line) := do
  let checksumAlgo ← checksumAlgoOf config
  let requireHandshake ← configGet config "require_handshake" (.bool true)
  let ignoreVersionMismatch ← configGet config "ignore_version_mismatch" (.bool false)
  let strictHeartbeat ← configGet config "strict_heartbeat" (.bool true)
  let number key dflt : Check String := do strOf (← configGet config key (.int dflt))
  let heartbeatIntervalMs ← number "heartbeat_interval_ms" 1000
  let heartbeatTimeoutMs ← number "heartbeat_timeout_ms" 3000
  let reliableRetryIntervalMs ← number "reliable_retry_interval_ms" 100
  let reliableMaxRetries ← number "reliable_max_retries" 3
  let headByte1 ← shownIndex config "head_byte_1"
  let headByte2 ← shownIndex config "head_byte_2"
  let enumerators ← messages.mapM enumeratorLine
  let structs ← messages.mapM (structLines typeMappings)
  let declarations ← messages.mapM declarationLines
  return mcuFileBanner ++ [plain "#pragma once", plain "#include <stdint.h>",
      plain "#include <stddef.h>", plain "", .block "Includes", plain "",
      plain "// 协议哈希校验码", plain ("#define PROTOCOL_HASH 0x" ++ upperHex 8 protocolHash.toNat),
      plain "", plain ("// 校验算法: " ++ checksumAlgo),
      plain ("#define CHECKSUM_ALGO_" ++ checksumAlgo ++ " 1"), plain "", plain "// 握手配置",
      plain ("#define CFG_REQUIRE_HANDSHAKE " ++ bit requireHandshake),
      plain ("#define CFG_IGNORE_VERSION_MISMATCH " ++ bit ignoreVersionMismatch), plain "",
      plain "// 心跳配置（心跳始终开启，由 ROS 端周期发起，MCU 端由协议层自动回包）",
      plain ("#define CFG_STRICT_HEARTBEAT " ++ bit strictHeartbeat),
      plain ("#define CFG_HEARTBEAT_INTERVAL_MS " ++ heartbeatIntervalMs),
      plain ("#define CFG_HEARTBEAT_TIMEOUT_MS " ++ heartbeatTimeoutMs), plain "",
      plain "// 可靠传输配置：MAX_RETRIES 是重复告警阈值，消息在收到 ACK 前持续重试",
      plain ("#define CFG_RELIABLE_RETRY_INTERVAL_MS " ++ reliableRetryIntervalMs),
      plain ("#define CFG_RELIABLE_MAX_RETRIES " ++ reliableMaxRetries), plain "",
      .block "Private_Defines", plain "", plain "// 帧头定义",
      plain ("#define FRAME_HEADER1 " ++ headByte1), plain ("#define FRAME_HEADER2 " ++ headByte2),
      plain "", plain "// 数据包ID定义", plain "typedef enum \x7b"] ++ enumerators ++
    [.code [.text "\x7d ", .declared "PacketID", .text ";"], plain "", plain "#pragma pack(1)"] ++
    structs.flatten ++
    [plain "#pragma pack()", plain "", plain "// 协议辅助函数声明",
      .code [.text "uint8_t ", .declared "calculate_checksum",
        .text "(const uint8_t* data, size_t len);"],
      .code [.text "void ", .declared "protocol_fsm_feed", .text "(uint8_t byte);"], plain "",
      plain "// 用户可覆盖的接收回调与自动生成的发送函数声明"] ++ declarations.flatten ++
    [plain "", .block "User_Types"]

-- ---------------------------------------------------------------------------
-- generate_mcu_source
-- ---------------------------------------------------------------------------

/-- `_crc8_table_lines("    ")`. -/
def crc8TableLines : List Line :=
  (List.range 16).map fun row =>
    plain ("    " ++ ", ".intercalate
      (((generateCrc8Table.drop (16 * row)).take 16).map fun value => "0x" ++ upperHex 2 value) ++ ",")

/-- The types and variables of the state machine. -/
def stateLines (maxStructPayload maxWirePayload : Nat) : List Line :=
  let static (type identifier rest : String) : Line :=
    .code [.text ("static " ++ type ++ " "), .declared identifier, .text rest]
  [plain "", plain "// 解析器状态定义", plain "typedef enum \x7b",
    .code [.text "    ", .declared "STATE_WAIT_HEADER1", .text ","],
    .code [.text "    ", .declared "STATE_WAIT_HEADER2", .text ","],
    .code [.text "    ", .declared "STATE_WAIT_ID", .text ","],
    .code [.text "    ", .declared "STATE_WAIT_LEN", .text ","],
    .code [.text "    ", .declared "STATE_WAIT_DATA", .text ","],
    .code [.text "    ", .declared "STATE_WAIT_CRC"],
    .code [.text "\x7d ", .declared "State", .text ";"], plain "",
    plain ("// 单包 payload 解析缓冲区 (最大结构体 payload=" ++ toString maxStructPayload ++
      ", 最大 wire payload=" ++ toString maxWirePayload ++ ")"),
    static "State" "rx_state" " = STATE_WAIT_HEADER1;",
    static "uint8_t" "rx_buffer" ("[" ++ toString maxWirePayload ++ "];"),
    static "uint16_t" "rx_cnt" " = 0;", static "uint8_t" "rx_data_len" " = 0;",
    static "uint8_t" "rx_id" " = 0;", static "uint8_t" "rx_checksum" " = 0;", plain ""]

/-- The definition of `checksum_update`. -/
def checksumLines (checksumAlgo : String) : List Line :=
  let update (body : List String) : List Line :=
    .code [.text "static uint8_t ", .declared "checksum_update",
      .text "(uint8_t current, uint8_t byte) \x7b"] :: body.map plain ++ [plain "\x7d"]
  if checksumAlgo = "CRC8" then
    [plain "// CRC8 查找表 (多项式 0x31)",
      .code [.text "static const uint8_t ", .declared "CRC8_TABLE", .text "[256] = \x7b"]] ++
    crc8TableLines ++ [plain "\x7d;", plain "", plain "// CRC8 校验函数 (查表法, 多项式 0x31)"] ++
    update ["    return CRC8_TABLE[current ^ byte];"]
  else if checksumAlgo = "SUM8" then
    plain "// SUM8 校验函数 (累加和)" :: update ["    return (uint8_t)(current + byte);"]
  else if checksumAlgo = "XOR8" then
    plain "// XOR8 校验函数 (异或)" :: update ["    return current ^ byte;"]
  else plain "// 无校验" :: update ["    (void)current; (void)byte;", "    return 0;"]

def calculateChecksumLines : List Line :=
  ["", "uint8_t calculate_checksum(const uint8_t* data, size_t len) \x7b", "    uint8_t cs = 0;",
    "    for (size_t i = 0; i < len; i++) \x7b", "        cs = checksum_update(cs, data[i]);",
    "    \x7d", "    return cs;", "\x7d"].map plain

/-- The helper for reliable messages, if there is one. -/
def reliableLines (hasReliable : Bool) : List Line :=
  if hasReliable then
    [plain "// 可靠传输序列号：ROS 端在 reliable 包 payload 末尾追加 1 字节 seq，",
      plain "// MCU 收到后存入此变量，ACK 回传时携带该 seq 以区分同 ID 的不同版本。",
      .code [.text "static uint8_t ", .declared "g_last_reliable_seq", .text " = 0;"], plain "",
      .code [.text "static inline void ", .declared "send_reliable_ack", .text "(PacketID id) \x7b"],
      plain "    Packet_Ack ack;", plain "    ack.acked_id = (uint8_t)id;",
      plain "    ack.ack_seq = g_last_reliable_seq;", plain "    send_Ack(&ack);", plain "\x7d",
      plain ""]
  else []

def hookLines (msg : Yaml) : Check (List Line) := do
  let name ← shownIndex msg "name"
  return [plain ("__attribute__((weak)) void on_receive_" ++ name ++ "(const Packet_" ++ name ++
      "* pkt) \x7b"),
    plain "    (void)pkt;", .block ("on_receive_" ++ name), plain "\x7d"]

/-- `protocol_fsm_feed` up to the `switch (rx_id)`. -/
def fsmLines (crcCheckExpr : String) : List Line :=
  ["", "/**", " * @brief 协议解析状态机，在串口中断或轮询中调用此函数处理每个接收到的字节",
    " * @param byte 接收到的单个字节", " */", "void protocol_fsm_feed(uint8_t byte) \x7b",
    "    switch (rx_state) \x7b", "        case STATE_WAIT_HEADER1:",
    "            if (byte == FRAME_HEADER1) \x7b", "                rx_state = STATE_WAIT_HEADER2;",
    "            \x7d", "            break;", "", "        case STATE_WAIT_HEADER2:",
    "            if (byte == FRAME_HEADER2) \x7b", "                rx_state = STATE_WAIT_ID;",
    "            \x7d else if (byte != FRAME_HEADER1) \x7b",
    "                // 若该字节是新的 HEADER1，则停留在本状态继续等待 HEADER2",
    "                rx_state = STATE_WAIT_HEADER1;", "            \x7d", "            break;", "",
    "        case STATE_WAIT_ID:", "            rx_id = byte;",
    "            rx_checksum = checksum_update(0, rx_id); // 校验包含 ID",
    "            rx_state = STATE_WAIT_LEN;", "            break;", "",
    "        case STATE_WAIT_LEN:", "            if (byte > sizeof(rx_buffer)) \x7b",
    "                // 超出协议内最大 payload，直接放弃当前候选帧并重新解析该字节",
    "                rx_state = STATE_WAIT_HEADER1;", "                protocol_fsm_feed(byte);",
    "                return;", "            \x7d", "            rx_data_len = byte;",
    "            rx_checksum = checksum_update(rx_checksum, rx_data_len); // 校验包含 Len",
    "            rx_cnt = 0;",
    "            rx_state = (rx_data_len > 0) ? STATE_WAIT_DATA : STATE_WAIT_CRC;",
    "            break;", "", "        case STATE_WAIT_DATA:", "            rx_buffer[rx_cnt++] = byte;",
    "            rx_checksum = checksum_update(rx_checksum, byte);",
    "            if (rx_cnt >= rx_data_len) \x7b", "                rx_state = STATE_WAIT_CRC;",
    "            \x7d", "            break;", "", "        case STATE_WAIT_CRC:",
    "            if (" ++ crcCheckExpr ++ ") \x7b", "                // 校验通过，分发数据",
    "                switch (rx_id) \x7b"].map plain

/-- A `case` of the `switch (rx_id)`. -/
def caseLines (requireHandshake : Bool) (msg : Yaml) : Check (List Line) := do
  let packetId ← packetIdName msg
  let reliable ← messageReliable msg
  let name ← shownIndex msg "name"
  let body :=
    if reliable then
      ["                        if (rx_data_len == sizeof(Packet_" ++ name ++ ") + 1) \x7b",
        "                            on_receive_" ++ name ++ "((Packet_" ++ name ++ "*)rx_buffer);",
        "                            g_last_reliable_seq = rx_buffer[sizeof(Packet_" ++ name ++ ")];",
        "                            send_reliable_ack(" ++ packetId ++ ");",
        "                        \x7d"]
    else
      ["                        if (rx_data_len == sizeof(Packet_" ++ name ++ ")) \x7b"] ++
      (if name = "Heartbeat" then
        ["                            // 框架内置：原样回传心跳包作为 ACK",
          "                            send_Heartbeat((const Packet_Heartbeat*)rx_buffer);"]
      else []) ++
      (if name = "Handshake" ∧ requireHandshake then
        ["                            // 框架内置：回传本机协议哈希，由 ROS 端校验是否匹配",
          "                            \x7b",
          "                                Packet_Handshake handshake_reply;",
          "                                handshake_reply.protocol_hash = PROTOCOL_HASH;",
          "                                send_Handshake(&handshake_reply);",
          "                            \x7d"]
      else []) ++
      ["                            on_receive_" ++ name ++ "((Packet_" ++ name ++ "*)rx_buffer);",
        "                        \x7d"]
  return .code [.text "                    case ", .label packetId, .text ":"] :: body.map plain ++
    [plain "                        break;"]

/-- The rest of `protocol_fsm_feed`. -/
def fsmEndLines : List Line :=
  ["", "                    default:", "                        break;", "                \x7d",
    "            \x7d", "            rx_state = STATE_WAIT_HEADER1;", "            break;", "",
    "        default:", "            rx_state = STATE_WAIT_HEADER1;", "            break;", "    \x7d",
    "\x7d"].map plain

def sendLines (msg : Yaml) : Check (List Line) := do
  let name ← shownIndex msg "name"
  let packetId ← packetIdName msg
  return ["void send_" ++ name ++ "(const Packet_" ++ name ++ "* pkt) \x7b",
    "    uint8_t buffer[4 + sizeof(Packet_" ++ name ++ ") + 1];", "    uint16_t idx = 0;", "    ",
    "    buffer[idx++] = FRAME_HEADER1;", "    buffer[idx++] = FRAME_HEADER2;",
    "    buffer[idx++] = " ++ packetId ++ ";", "    buffer[idx++] = sizeof(Packet_" ++ name ++ ");",
    "    ", "    memcpy(&buffer[idx], pkt, sizeof(Packet_" ++ name ++ "));",
    "    idx += sizeof(Packet_" ++ name ++ ");", "    ",
    "    buffer[idx] = calculate_checksum(&buffer[2], idx - 2);", "    idx++;", "    ",
    "    serial_write(buffer, idx);", "\x7d"].map plain

/-- `generate_mcu_source`. -/
def mcuSourceLines (config : Yaml) (messages : List Yaml) (typeMappings : PyDict) :
    Check (List Line) := do
  let checksumAlgo ← checksumAlgoOf config
  let requireHandshake ← configGet config "require_handshake" (.bool true)
  let structPayloads ← messages.mapM fun msg => messagePayloadSize msg typeMappings
  let wirePayloads ← messages.mapM fun msg => messageWirePayloadSize msg typeMappings
  let reliable ← messages.mapM fun msg => messageReliable msg
  let hooks ← messages.mapM hookLines
  let cases ← messages.mapM (caseLines requireHandshake.truthy)
  let sends ← messages.mapM sendLines
  return mcuFileBanner ++ [plain "#include \"protocol.h\"", plain "#include <string.h>", plain "",
      .block "Includes", plain ""] ++ stateLines (pyMax structPayloads) (pyMax wirePayloads) ++
    checksumLines checksumAlgo ++ calculateChecksumLines ++
    reliableLines (reliable.any id) ++ [plain "", .block "Private_Variables", plain "", plain "",
      plain "// 用户可选实现的回调钩子。",
      plain "// 系统消息 (Ack/Heartbeat/Handshake) 的协议行为已由 FSM 内置，",
      plain "// 覆盖这些钩子只用于观察，不需要也不应该在其中回包。"] ++ hooks.flatten ++
    [plain "", .block "Code_0", plain ""] ++
    fsmLines (if checksumAlgo = "NONE" then "1" else "byte == rx_checksum") ++ cases.flatten ++
    fsmEndLines ++ [plain "", plain "// --- 发送函数 ---",
      plain "// 外部依赖：用户必须实现 void serial_write(const uint8_t* data, uint16_t len);",
      plain "// 注意：协议层会在 protocol_fsm_feed() 的调用上下文中发送回包（心跳/握手/ACK）。",
      plain "// 若 protocol_fsm_feed() 在中断中调用，而业务代码也在主循环调用 send_xxx()，",
      plain "// 则 serial_write() 必须自行保证可重入/并发安全（如关中断或使用发送队列）。",
      .code [.text "extern void ", .declared "serial_write",
        .text "(const uint8_t* data, uint16_t len);"], plain ""] ++ sends.flatten ++
    [plain "", .block "Code_1", plain "",
      plain "// 心跳由 ROS 端周期发起 (间隔 CFG_HEARTBEAT_INTERVAL_MS)，",
      plain "// 协议层收到后自动原样回包，MCU 侧无需主动发送心跳。", plain ""]

-- ---------------------------------------------------------------------------
-- The files of a configuration
-- ---------------------------------------------------------------------------

/-- The lines of `protocol.h` and `protocol.c`, as `main` generates them behind `validate_protocol`. -/
def mcuFiles (hash : ProtocolHashInput → UInt32) (configData : Yaml) :
    Check (List Line × List Line) := do
  let config ← pyIndex configData "config"
  let typeMappings := (← pyGet? configData "type_mappings").getD (.map [])
  let typeMappings ← typeMappingsOf (if typeMappings.truthy then typeMappings else .map [])
  let messages ← mergeMessages ((← pyGet? configData "messages").getD (.list []))
  let phash ← calculateProtocolHash hash configData
  let header ← mcuHeaderLines config messages typeMappings phash
  let source ← mcuSourceLines config messages typeMappings
  return (header, source)

end AutoSerialBridge
