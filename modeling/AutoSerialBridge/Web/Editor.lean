import AutoSerialBridge.Codegen.Validate

/-!
# Auto Serial Bridge — the protocol editor

`normalizeProtocol`, `validateProtocol` and `serializeProtocol` of the web editor. A protocol object is
any JavaScript value; the normal form has the editor's own types. `serializeProtocol` returns the
document it dumps, as the YAML value that a reader gets back.

Left out are objects with a `toString` of their own, strings with a lone surrogate, and functions,
symbols and big integers. The entries of an object stand in the order of insertion, integer keys
included. How `Number` reads a text and how a number is written is a parameter (`NumberText`).
-/

namespace AutoSerialBridge.Web

-- ---------------------------------------------------------------------------
-- JavaScript values
-- ---------------------------------------------------------------------------

/-- A number. The two zeros are one value. -/
inductive JsNumber where
  | finite (value : ℚ)
  | infinite
  | nan

/-- A value. A date is known by its text. -/
inductive JsValue where
  | undefined
  | null
  | bool (value : Bool)
  | number (value : JsNumber)
  | str (value : String)
  | date (text : String)
  | array (items : List JsValue)
  | object (entries : List (String × JsValue))

/-- The conversions between numbers and texts: `Number(text)`, `Number.parseInt(text, 16)` and
`String(number)`. -/
structure NumberText where
  ofText : String → JsNumber
  ofHex : String → JsNumber
  toText : JsNumber → String

/-- A value counts as true. -/
def JsValue.truthy : JsValue → Bool
  | undefined | null => false
  | bool b => b
  | number (.finite q) => q ≠ 0
  | number .infinite => true
  | number .nan => false
  | str s => s ≠ ""
  | date _ | array _ | object _ => true

/-- `v?.key`. -/
def JsValue.prop (v : JsValue) (key : String) : JsValue :=
  match v with
  | object entries => (entries.lookup key).getD .undefined
  | _ => .undefined

/-- `v || default`. -/
def JsValue.orElse (v default : JsValue) : JsValue := if v.truthy then v else default

/-- `Array.isArray(v) ? v : []`. -/
def JsValue.arrayItems : JsValue → List JsValue
  | array items => items
  | _ => []

/-- `Object.entries(v)`. -/
def JsValue.ownEntries : JsValue → List (String × JsValue)
  | object entries => entries
  | array items => items.zipIdx.map fun e => (toString e.2, e.1)
  | str s => s.toList.zipIdx.map fun e => (toString e.2, .str (String.singleton e.1))
  | _ => []

/-- `object[key] = value`. -/
def objectSet {α : Type} : List (String × α) → String → α → List (String × α)
  | [], key, value => [(key, value)]
  | (k, v) :: rest, key, value =>
    if k = key then (k, value) :: rest else (k, v) :: objectSet rest key value

/-- `{ ...object, ...entries }`. -/
def objectSpread {α : Type} (object entries : List (String × α)) : List (String × α) :=
  entries.foldl (fun object e => objectSet object e.1 e.2) object

/-- White space and line ends, which `trim` removes. -/
def isJsSpace (c : Char) : Bool :=
  let n := c.toNat
  (9 ≤ n && n ≤ 13) || n == 0x20 || n == 0xA0 || n == 0x1680 || (0x2000 ≤ n && n ≤ 0x200A) ||
    n == 0x2028 || n == 0x2029 || n == 0x202F || n == 0x205F || n == 0x3000 || n == 0xFEFF

/-- `trim()`. -/
def jsTrim (s : String) : String :=
  String.ofList (((s.toList.dropWhile isJsSpace).reverse.dropWhile isJsSpace).reverse)

/-- `toLowerCase()`, where the result can be an ASCII text. -/
def toLowerCase (s : String) : String :=
  String.ofList (s.toList.map fun c => if c = '\u212A' then 'k' else c.toLower)

/-- `toUpperCase()`, where the result can be one of the options, or the name an identifier. -/
def toUpperCase (s : String) : String := pyUpper s

section Conversions

variable (text : NumberText)

mutual

/-- `String(v)`. -/
def JsValue.toText : JsValue → String
  | undefined => "undefined"
  | null => "null"
  | bool b => if b then "true" else "false"
  | number x => text.toText x
  | str s => s
  | date s => s
  | array items => ",".intercalate (JsValue.itemTexts items)
  | object _ => "[object Object]"

/-- The items of an array in its text. -/
def JsValue.itemTexts : List JsValue → List String
  | [] => []
  | .undefined :: rest => "" :: JsValue.itemTexts rest
  | .null :: rest => "" :: JsValue.itemTexts rest
  | v :: rest => JsValue.toText v :: JsValue.itemTexts rest

end

/-- `/^0x[0-9a-f]+$/i`. -/
def isHexText (s : String) : Bool :=
  match s.toList with
  | '0' :: x :: c :: rest =>
    (x = 'x' || x = 'X') &&
      (c :: rest).all fun c => c.isDigit || ('a' ≤ c && c ≤ 'f') || ('A' ≤ c && c ≤ 'F')
  | _ => false

def toNumber : JsValue → JsNumber
  | .number (.finite q) => .finite q
  | .str s =>
    let trimmed := jsTrim s
    if trimmed = "" then .nan
    else if isHexText trimmed then text.ofHex trimmed
    else text.ofText trimmed
  | _ => .nan

/-- `toInteger`: `Math.trunc` of a finite number. -/
def toInteger (value : JsValue) (fallback : Int) : Int :=
  match toNumber text value with
  | .finite q => q.num.tdiv q.den
  | _ => fallback

def normalizeString : JsValue → String
  | .str s => s
  | .undefined | .null => ""
  | v => v.toText text

def normalizeBoolean (value : JsValue) (fallback : Bool) : Bool :=
  match value with
  | .bool b => b
  | .str s =>
    let normalized := toLowerCase (jsTrim s)
    if normalized = "true" then true
    else if normalized = "false" then false
    else fallback
  | _ => fallback

end Conversions

-- ---------------------------------------------------------------------------
-- The normal form
-- ---------------------------------------------------------------------------

structure EditorField where
  proto : String
  type : String
  ros : String
deriving DecidableEq

structure EditorMessage where
  name : String
  id : Int
  direction : String
  debugLogMode : String
  reliable : Bool
  subTopic : String
  pubTopic : String
  rosMsg : String
  notes : String
  fields : List EditorField
deriving DecidableEq

structure EditorConfig where
  bufferSize : Int
  headByte1 : Int
  headByte2 : Int
  checksum : String
  requireHandshake : Bool
  ignoreVersionMismatch : Bool
  reliableRetryIntervalMs : Int
  reliableMaxRetries : Int
  strictHeartbeat : Bool
  qosDepth : Int
  heartbeatIntervalMs : Int
  heartbeatTimeoutMs : Int
deriving DecidableEq

structure EditorProtocol where
  port : String
  baudrate : Int
  debugRawFrame : Bool
  config : EditorConfig
  typeMappings : List (String × String)
  messages : List EditorMessage
deriving DecidableEq

/-- `DIRECTION_OPTIONS`. -/
def directionOptions : List String := ["tx", "rx", "both"]

/-- `DEBUG_LOG_MODE_OPTIONS`. -/
def debugLogModeOptions : List String := ["on", "off"]

/-- `CHECKSUM_OPTIONS`. -/
def checksumOptions : List String := ["NONE", "SUM8", "XOR8", "CRC8"]

/-- `RESERVED_NAMES`. -/
def reservedNames : List String := ["Ack", "Heartbeat", "Handshake"]

/-- `DEFAULT_PROTOCOL`. -/
def defaultProtocol : EditorProtocol where
  port := "/dev/ttyACM0"
  baudrate := 115200
  debugRawFrame := false
  config :=
    { bufferSize := 1024, headByte1 := 0x5A, headByte2 := 0xA5, checksum := "CRC8",
      requireHandshake := true, ignoreVersionMismatch := false, reliableRetryIntervalMs := 100,
      reliableMaxRetries := 3, strictHeartbeat := true, qosDepth := 10, heartbeatIntervalMs := 1000,
      heartbeatTimeoutMs := 3000 }
  typeMappings :=
    [("f32", "float"), ("i32", "int32_t"), ("u8", "uint8_t"), ("u16", "uint16_t"),
      ("u32", "uint32_t")]
  messages := []

def createDefaultField : EditorField where
  proto := "value"
  type := "u8"
  ros := "data"

section Normalize

variable (text : NumberText)

def normalizeField (field : JsValue) : EditorField where
  proto := normalizeString text (field.prop "proto")
  type := normalizeString text (field.prop "type")
  ros := normalizeString text (field.prop "ros")

def normalizeMessage (message : JsValue) (index : Nat) : EditorMessage :=
  let direction := toLowerCase (normalizeString text ((message.prop "direction").orElse (.str "tx")))
  let debugLogMode :=
    toLowerCase (normalizeString text ((message.prop "debug_log_mode").orElse (.str "on")))
  let fields := (message.prop "fields").arrayItems.map (normalizeField text)
  { name := normalizeString text
      ((message.prop "name").orElse (.str ("Message" ++ toString (index + 1))))
    id := toInteger text (message.prop "id") index
    direction :=
      if directionOptions.contains direction then direction
      else if direction ≠ "" then direction
      else "tx"
    debugLogMode := if debugLogModeOptions.contains debugLogMode then debugLogMode else "on"
    reliable := normalizeBoolean (message.prop "reliable") false
    subTopic := normalizeString text (message.prop "sub_topic")
    pubTopic := normalizeString text (message.prop "pub_topic")
    rosMsg := normalizeString text (message.prop "ros_msg")
    notes := normalizeString text (message.prop "notes")
    fields := if fields.length > 0 then fields else [createDefaultField] }

/-- A system message written out in an old file. -/
def isLegacySystemMessage (message : EditorMessage) : Bool :=
  match reservedIds.lookup message.id with
  | some reservedName => toLowerCase (jsTrim message.name) == toLowerCase reservedName
  | none => false

def normalizeConfig (config : JsValue) : EditorConfig :=
  let defaults := defaultProtocol.config
  { bufferSize := toInteger text (config.prop "buffer_size") defaults.bufferSize
    headByte1 := toInteger text (config.prop "head_byte_1") defaults.headByte1
    headByte2 := toInteger text (config.prop "head_byte_2") defaults.headByte2
    checksum := toUpperCase
      (normalizeString text ((config.prop "checksum").orElse (.str defaults.checksum)))
    requireHandshake := normalizeBoolean (config.prop "require_handshake") defaults.requireHandshake
    ignoreVersionMismatch :=
      normalizeBoolean (config.prop "ignore_version_mismatch") defaults.ignoreVersionMismatch
    reliableRetryIntervalMs :=
      toInteger text (config.prop "reliable_retry_interval_ms") defaults.reliableRetryIntervalMs
    reliableMaxRetries :=
      toInteger text (config.prop "reliable_max_retries") defaults.reliableMaxRetries
    strictHeartbeat := normalizeBoolean (config.prop "strict_heartbeat") defaults.strictHeartbeat
    qosDepth := toInteger text (config.prop "qos_depth") defaults.qosDepth
    heartbeatIntervalMs :=
      toInteger text (config.prop "heartbeat_interval_ms") defaults.heartbeatIntervalMs
    heartbeatTimeoutMs :=
      toInteger text (config.prop "heartbeat_timeout_ms") defaults.heartbeatTimeoutMs }

/-- `normalizeProtocol`. A property of `undefined`, `null` or `{}` is `undefined`. -/
def normalizeProtocol (rawData : JsValue) : EditorProtocol :=
  let serialParameters := (rawData.prop "serial_controller").prop "ros__parameters"
  let mappings := objectSpread (defaultProtocol.typeMappings.map fun e => (e.1, JsValue.str e.2))
    (rawData.prop "type_mappings").ownEntries
  let messages := (rawData.prop "messages").arrayItems
  { port := normalizeString text
      ((serialParameters.prop "port").orElse (.str defaultProtocol.port))
    baudrate := toInteger text (serialParameters.prop "baudrate") defaultProtocol.baudrate
    debugRawFrame :=
      normalizeBoolean (serialParameters.prop "debug_raw_frame") defaultProtocol.debugRawFrame
    config := normalizeConfig text (rawData.prop "config")
    typeMappings := mappings.map fun e => (e.1, normalizeString text e.2)
    messages := (messages.zipIdx.map fun e => normalizeMessage text e.1 e.2).filter
      fun message => !isLegacySystemMessage message }

end Normalize

-- ---------------------------------------------------------------------------
-- validateProtocol
-- ---------------------------------------------------------------------------

/-- `SYSTEM_MAX_WIRE_PAYLOAD`. -/
def systemMaxWirePayload : Nat := 4

/-- `ROS_PATH_SEGMENT_RE`. -/
def isRosPathSegment (segment : List Char) : Bool :=
  isIdentifier (segment.takeWhile isWordChar) &&
  match segment.dropWhile isWordChar with
  | [] => true
  | '[' :: rest =>
    rest.getLast? == some ']' && !rest.dropLast.isEmpty && rest.dropLast.all Char.isDigit
  | _ => false

def validateRosPath (path : String) : Bool := (splitChars '.' path.toList).all isRosPathSegment

def resolveCType (type : String) (typeMappings : List (String × String)) : String :=
  (typeMappings.lookup type).getD type

/-- `fieldSize`. A name that `C_TYPE_SIZES` inherits is an error of its own. -/
def fieldSize (field : EditorField) (typeMappings : List (String × String)) : Nat :=
  (cTypeSizes.lookup (resolveCType field.type typeMappings)).getD 1

def wirePayloadSize (message : EditorMessage) (typeMappings : List (String × String)) : Nat :=
  let base := (message.fields.map fun field => fieldSize field typeMappings).sum
  if message.reliable then base + 1 else base

/-- What the loop over the messages remembers. -/
structure EditorSeen where
  ids : List (Int × String)
  names : List String
  generatedSymbols : List (String × String)
  subTopics : List (String × String)
  pubTopics : List (String × String)

/-- The collections before the loop. -/
def EditorSeen.initial : EditorSeen where
  ids := []
  names := []
  generatedSymbols := reservedNames.map fun name => (toUpperCase name, name)
  subTopics := []
  pubTopics := []

/-- `hexByte` of a byte. -/
def hexText (value : Int) : String :=
  let digit (n : Nat) : Char := "0123456789ABCDEF".toList.getD n '0'
  String.ofList ['0', 'x', digit (value.toNat / 16), digit (value.toNat % 16)]

/-- The error list `[e]` if the check fails. -/
def errorIf (failed : Bool) (e : String) : List String := if failed then [e] else []

def isByteValue (n : Int) : Bool := 0 ≤ n && n ≤ 255

/-- The checks on `config` and `serial_controller`. -/
def configErrors (protocol : EditorProtocol) : List String :=
  let cfg := protocol.config
  errorIf (!checksumOptions.contains cfg.checksum)
    ("不支持的校验算法 '" ++ cfg.checksum ++ "'，可选：" ++ ", ".intercalate checksumOptions ++ "。") ++
  [("head_byte_1", cfg.headByte1), ("head_byte_2", cfg.headByte2)].flatMap (fun e =>
    errorIf (!isByteValue e.2) ("config." ++ e.1 ++ " 必须是 0x00-0xFF 范围内的整数。")) ++
  [("buffer_size", cfg.bufferSize), ("reliable_retry_interval_ms", cfg.reliableRetryIntervalMs),
    ("reliable_max_retries", cfg.reliableMaxRetries), ("qos_depth", cfg.qosDepth),
    ("heartbeat_interval_ms", cfg.heartbeatIntervalMs),
    ("heartbeat_timeout_ms", cfg.heartbeatTimeoutMs)].flatMap (fun e =>
    errorIf (e.2 ≤ 0) ("config." ++ e.1 ++ " 必须是正整数。")) ++
  errorIf (cfg.heartbeatIntervalMs > 0 && cfg.heartbeatTimeoutMs > 0 &&
      cfg.heartbeatTimeoutMs < cfg.heartbeatIntervalMs)
    "config.heartbeat_timeout_ms 必须 >= heartbeat_interval_ms。" ++
  errorIf (jsTrim protocol.port = "") "serial_controller.ros__parameters.port 不能为空。" ++
  errorIf (protocol.baudrate ≤ 0) "serial_controller.ros__parameters.baudrate 必须是正整数。"

/-- The checks on the name. -/
def nameErrors (label : String) (message : EditorMessage) (names : List String)
    (symbols : List (String × String)) : List String × List (String × String) × List String :=
  if !isIdentifier message.name.toList then
    (names, symbols, ["消息 '" ++ label ++ "' 的 name 必须是合法 C 标识符。"])
  else if reservedNames.contains message.name then
    (names, symbols, ["消息名 '" ++ message.name ++
      "' 是框架内置系统消息，会由生成器自动注入，请改用其他名称。"])
  else if names.contains message.name then
    (names, symbols, ["消息名 '" ++ message.name ++ "' 重复。"])
  else
    let generatedSymbol := toUpperCase message.name
    match symbols.lookup generatedSymbol with
    | some other =>
      (names ++ [message.name], symbols, ["消息 '" ++ label ++ "' 生成的符号 PACKET_ID_" ++
        generatedSymbol ++ " 与 '" ++ other ++ "' 冲突。"])
    | none => (names ++ [message.name], symbols ++ [(generatedSymbol, message.name)], [])

/-- The checks on the id. -/
def idErrors (label : String) (message : EditorMessage) (ids : List (Int × String)) :
    List (Int × String) × List String :=
  if !isByteValue message.id then
    (ids, ["消息 '" ++ label ++ "' 的 id 必须是 0x00-0xFF 范围内的整数。"])
  else
    match reservedIds.lookup message.id with
    | some name =>
      (ids, ["消息 '" ++ label ++ "' 使用了保留 ID " ++ hexText message.id ++ "（框架内置 " ++ name ++
        "），请使用 0x00-0xFC。"])
    | none =>
      match ids.lookup message.id with
      | some other =>
        (ids, ["消息 '" ++ label ++ "' 的 ID " ++ hexText message.id ++ " 与 '" ++ other ++ "' 冲突。"])
      | none => (ids ++ [(message.id, label)], [])

/-- The checks on a topic that the direction needs. -/
def topicErrors (label topicKey topic : String) (seen : List (String × String)) :
    List (String × String) × List String :=
  if !isTopic topic then
    (seen, ["消息 '" ++ label ++ "' 的 " ++ topicKey ++ " '" ++ topic ++
      "' 无效，请使用不带前导 / 的相对话题。"])
  else
    match seen.lookup topic with
    | some other =>
      (seen, ["消息 '" ++ label ++ "' 的 " ++ topicKey ++ " '" ++ topic ++ "' 与 '" ++ other ++ "' 重复。"])
    | none => (seen ++ [(topic, label)], [])

/-- The checks on the rest of a message, `fields` apart. -/
def messageErrors (label : String) (message : EditorMessage) : List String :=
  errorIf (!directionOptions.contains message.direction)
    ("消息 '" ++ label ++ "' 的 direction '" ++ message.direction ++ "' 无效，可选：" ++
      ", ".intercalate directionOptions ++ "。") ++
  errorIf (!debugLogModeOptions.contains message.debugLogMode)
    ("消息 '" ++ label ++ "' 的 debug_log_mode '" ++ message.debugLogMode ++
      "' 无效，可选：on / off。") ++
  errorIf (message.reliable && message.direction != "tx")
    ("消息 '" ++ label ++ "' 启用了 reliable，但 direction 是 '" ++ message.direction ++
      "'。reliable 仅支持 tx (ROS → MCU)。") ++
  errorIf (!isRosMsg message.rosMsg)
    ("消息 '" ++ label ++ "' 的 ros_msg '" ++ message.rosMsg ++ "' 无效，格式应为 package/msg/Type。")

/-- The same topic in both directions. -/
def loopErrors (label : String) (message : EditorMessage) : List String :=
  errorIf (message.direction == "both" && message.subTopic != "" &&
      message.subTopic == message.pubTopic)
    ("消息 '" ++ label ++ "' 的 sub_topic 与 pub_topic 相同，会把 MCU 数据原样回环发回 MCU，" ++
      "请使用两个不同话题。")

/-- The checks on one field, and `seenFieldNames` after it. -/
def fieldErrors (label : String) (typeMappings : List (String × String)) (seenFieldNames : List String)
    (fieldIndex : Nat) (field : EditorField) : List String × List String :=
  let fieldLabel := "消息 '" ++ label ++ "' 的 field[" ++ toString fieldIndex ++ "]"
  let (seenFieldNames, protoErrors) :=
    if !isIdentifier field.proto.toList then
      (seenFieldNames, [fieldLabel ++ " 的 proto '" ++ field.proto ++ "' 必须是合法 C 标识符。"])
    else if isReservedCCppIdentifier field.proto then
      (seenFieldNames, [fieldLabel ++ " 的 proto '" ++ field.proto ++ "' 是 C/C++ 保留标识符。"])
    else if seenFieldNames.contains field.proto then
      (seenFieldNames, ["消息 '" ++ label ++ "' 的字段名 '" ++ field.proto ++ "' 重复。"])
    else (seenFieldNames ++ [field.proto], [])
  let typeErrors := errorIf (cTypeSizes.lookup (resolveCType field.type typeMappings)).isNone
    (fieldLabel ++ " 的 type '" ++ field.type ++ "' 未知，支持：" ++
      ", ".intercalate (cTypeSizes.map (·.1)) ++ " 或 type_mappings 中的别名。")
  let pathErrors :=
    if jsTrim field.ros = "" then [fieldLabel ++ " 的 ros 路径不能为空。"]
    else errorIf (!validateRosPath field.ros)
      (fieldLabel ++ " 的 ros 路径 '" ++ field.ros ++ "' 无效，支持形如 data、pose.x、data[0]。")
  (seenFieldNames, protoErrors ++ typeErrors ++ pathErrors)

def fieldListErrors (label : String) (typeMappings : List (String × String)) :
    List String → Nat → List EditorField → List String
  | _, _, [] => []
  | seenFieldNames, fieldIndex, field :: rest =>
    let (seenFieldNames, errors) := fieldErrors label typeMappings seenFieldNames fieldIndex field
    errors ++ fieldListErrors label typeMappings seenFieldNames (fieldIndex + 1) rest

/-- The body of the loop over the messages, with `largestWirePayload`. -/
def checkEditorMessage (typeMappings : List (String × String)) (seen : EditorSeen)
    (largestWirePayload messageIndex : Nat) (message : EditorMessage) :
    EditorSeen × Nat × List String :=
  let label :=
    if message.name ≠ "" then message.name else "messages[" ++ toString messageIndex ++ "]"
  let (names, symbols, nameErrors) := nameErrors label message seen.names seen.generatedSymbols
  let (ids, idErrors) := idErrors label message seen.ids
  let (subTopics, subErrors) :=
    if message.direction = "tx" ∨ message.direction = "both" then
      topicErrors label "sub_topic" message.subTopic seen.subTopics
    else (seen.subTopics, [])
  let (pubTopics, pubErrors) :=
    if message.direction = "rx" ∨ message.direction = "both" then
      topicErrors label "pub_topic" message.pubTopic seen.pubTopics
    else (seen.pubTopics, [])
  let errors := nameErrors ++ idErrors ++ messageErrors label message ++ subErrors ++ pubErrors ++
    loopErrors label message
  let seen : EditorSeen :=
    { ids := ids, names := names, generatedSymbols := symbols, subTopics := subTopics,
      pubTopics := pubTopics }
  if message.fields.isEmpty then
    (seen, largestWirePayload, errors ++ ["消息 '" ++ label ++ "' 至少需要一个 field。"])
  else
    let wireSize := wirePayloadSize message typeMappings
    (seen, max largestWirePayload wireSize,
      errors ++ fieldListErrors label typeMappings [] 0 message.fields ++
        errorIf (wireSize > 255) ("消息 '" ++ label ++ "' 的链路 payload 为 " ++ toString wireSize ++
          " 字节，超过 255 字节上限。"))

def checkEditorMessages (typeMappings : List (String × String)) :
    EditorSeen → Nat → Nat → List EditorMessage → Nat × List String
  | _, largestWirePayload, _, [] => (largestWirePayload, [])
  | seen, largestWirePayload, messageIndex, message :: rest =>
    let (seen, largestWirePayload, errors) :=
      checkEditorMessage typeMappings seen largestWirePayload messageIndex message
    let (largestWirePayload, restErrors) :=
      checkEditorMessages typeMappings seen largestWirePayload (messageIndex + 1) rest
    (largestWirePayload, errors ++ restErrors)

/-- `validateProtocol`: the errors of a protocol in normal form, which is valid when there is none. -/
def validateProtocol (protocol : EditorProtocol) : List String :=
  let (largestWirePayload, errors) :=
    checkEditorMessages protocol.typeMappings .initial systemMaxWirePayload 0 protocol.messages
  let largestFrame := largestWirePayload + 5
  let bufferSize := protocol.config.bufferSize
  configErrors protocol ++ errors ++
    errorIf (bufferSize > 0 && bufferSize < largestFrame) ("config.buffer_size=" ++
      toString bufferSize ++ " 无法容纳最大完整帧（" ++ toString largestFrame ++ " 字节）。")

-- ---------------------------------------------------------------------------
-- serializeProtocol
-- ---------------------------------------------------------------------------

def exportField (field : EditorField) : Yaml :=
  .map [(.str "proto", .str field.proto), (.str "type", .str field.type),
    (.str "ros", .str field.ros)]

/-- The entry, if it is exported. -/
def entryIf (exported : Bool) (key : String) (value : Yaml) : PyDict :=
  if exported then [(.str key, value)] else []

/-- `exportMessage`. -/
def exportEntries (message : EditorMessage) : PyDict :=
  [(.str "name", .str message.name), (.str "id", .int message.id),
    (.str "direction", .str message.direction)] ++
  entryIf message.reliable "reliable" (.bool true) ++
  entryIf (message.debugLogMode == "off") "debug_log_mode" (.str "off") ++
  entryIf (message.direction == "tx" || message.direction == "both") "sub_topic"
    (.str message.subTopic) ++
  entryIf (message.direction == "rx" || message.direction == "both") "pub_topic"
    (.str message.pubTopic) ++
  [(.str "ros_msg", .str message.rosMsg)] ++
  entryIf (jsTrim message.notes != "") "notes" (.str message.notes) ++
  [(.str "fields", .list (message.fields.map exportField))]

@[inherit_doc exportEntries]
def exportMessage (message : EditorMessage) : Yaml := .map (exportEntries message)

/-- `normalized.config` in the document. -/
def exportConfig (cfg : EditorConfig) : PyDict :=
  [(.str "buffer_size", .int cfg.bufferSize), (.str "head_byte_1", .int cfg.headByte1),
    (.str "head_byte_2", .int cfg.headByte2), (.str "checksum", .str cfg.checksum),
    (.str "require_handshake", .bool cfg.requireHandshake),
    (.str "ignore_version_mismatch", .bool cfg.ignoreVersionMismatch),
    (.str "reliable_retry_interval_ms", .int cfg.reliableRetryIntervalMs),
    (.str "reliable_max_retries", .int cfg.reliableMaxRetries),
    (.str "strict_heartbeat", .bool cfg.strictHeartbeat), (.str "qos_depth", .int cfg.qosDepth),
    (.str "heartbeat_interval_ms", .int cfg.heartbeatIntervalMs),
    (.str "heartbeat_timeout_ms", .int cfg.heartbeatTimeoutMs)]

/-- `normalized.serial_controller.ros__parameters` in the document. -/
def exportSerialParams (protocol : EditorProtocol) : PyDict :=
  [(.str "port", .str protocol.port), (.str "baudrate", .int protocol.baudrate),
    (.str "debug_raw_frame", .bool protocol.debugRawFrame)]

/-- `normalized.type_mappings` in the document. -/
def exportMappings (typeMappings : List (String × String)) : PyDict :=
  typeMappings.map fun e => (.str e.1, .str e.2)

/-- The document of a protocol in normal form. -/
def documentOf (normalized : EditorProtocol) : PyDict :=
  [(.str "serial_controller", .map [(.str "ros__parameters", .map (exportSerialParams normalized))]),
    (.str "config", .map (exportConfig normalized.config)),
    (.str "type_mappings", .map (exportMappings normalized.typeMappings)),
    (.str "messages", .list (normalized.messages.map exportMessage))]

/-- `serializeProtocol`, the dump apart. -/
def serializeProtocol (text : NumberText) (protocol : JsValue) : Yaml :=
  .map (documentOf (normalizeProtocol text protocol))

-- ---------------------------------------------------------------------------
-- A protocol in normal form as a value
-- ---------------------------------------------------------------------------

/-- An integer. -/
def JsValue.int (n : Int) : JsValue := .number (.finite n)

def EditorField.toJs (field : EditorField) : JsValue :=
  .object [("proto", .str field.proto), ("type", .str field.type), ("ros", .str field.ros)]

def EditorMessage.toJs (message : EditorMessage) : JsValue :=
  .object [("name", .str message.name), ("id", .int message.id),
    ("direction", .str message.direction), ("debug_log_mode", .str message.debugLogMode),
    ("reliable", .bool message.reliable), ("sub_topic", .str message.subTopic),
    ("pub_topic", .str message.pubTopic), ("ros_msg", .str message.rosMsg),
    ("notes", .str message.notes), ("fields", .array (message.fields.map EditorField.toJs))]

def EditorConfig.toJs (cfg : EditorConfig) : JsValue :=
  .object [("buffer_size", .int cfg.bufferSize), ("head_byte_1", .int cfg.headByte1),
    ("head_byte_2", .int cfg.headByte2), ("checksum", .str cfg.checksum),
    ("require_handshake", .bool cfg.requireHandshake),
    ("ignore_version_mismatch", .bool cfg.ignoreVersionMismatch),
    ("reliable_retry_interval_ms", .int cfg.reliableRetryIntervalMs),
    ("reliable_max_retries", .int cfg.reliableMaxRetries),
    ("strict_heartbeat", .bool cfg.strictHeartbeat), ("qos_depth", .int cfg.qosDepth),
    ("heartbeat_interval_ms", .int cfg.heartbeatIntervalMs),
    ("heartbeat_timeout_ms", .int cfg.heartbeatTimeoutMs)]

def EditorProtocol.toJs (protocol : EditorProtocol) : JsValue :=
  .object [
    ("serial_controller", .object [("ros__parameters", .object [("port", .str protocol.port),
      ("baudrate", .int protocol.baudrate), ("debug_raw_frame", .bool protocol.debugRawFrame)])]),
    ("config", protocol.config.toJs),
    ("type_mappings", .object (protocol.typeMappings.map fun e => (e.1, .str e.2))),
    ("messages", .array (protocol.messages.map EditorMessage.toJs))]

end AutoSerialBridge.Web
