import AutoSerialBridge.Codegen.Generate

/-!
# Auto Serial Bridge — the generated files

`main` behind `validate_protocol`: the merged messages, the protocol hash, and the five generators
with everything in them that can raise. A generator returns the values it writes into its text, in
the order in which it writes them; the text around them, the blocks of user code and the files
themselves are left out. `Generate.lean` has what the compiled protocol is made of.
-/

namespace AutoSerialBridge

-- ---------------------------------------------------------------------------
-- Values in a text
-- ---------------------------------------------------------------------------

/-- `config.get(key, default)`. -/
def configGet (config : Yaml) (key : String) (default : Yaml) : Check Yaml := do
  return (← pyGet? config key).getD default

/-- `str(config.get('checksum', 'CRC8')).upper()`. -/
def checksumAlgoOf (config : Yaml) : Check String := do
  return pyUpper (← strOf (← configGet config "checksum" (.str "CRC8")))

/-- `{v[key]}`. -/
def shownIndex (v : Yaml) (key : String) : Check String := do
  strOf (← pyIndex v key)

/-- `{v[key]:#04x}`. -/
def hexIndex (v : Yaml) (key : String) : Check String := do
  match ← pyIndex v key with
  | .scalar (.int n) => return hexByte n
  | _ => throw .typeError

/-- `{msg['name'].upper()}`. -/
def upperName (msg : Yaml) : Check String := do
  match ← pyIndex msg "name" with
  | .scalar (.str name) => return pyUpper name
  | _ => throw .attributeError

/-- `'true' if v else 'false'` and the like. -/
def flag (v : Yaml) : String := if v.truthy then "true" else "false"

/-- `for field in msg['fields']`. -/
def fieldsOf (msg : Yaml) : Check (List Yaml) := do
  pyIter (← pyIndex msg "fields")

/-- `msg['direction'] in (direction, 'both')`. -/
def hasDirection (msg : Yaml) (direction : String) : Check Bool := do
  return directionIs (← pyIndex msg "direction") direction

-- ---------------------------------------------------------------------------
-- The MCU side
-- ---------------------------------------------------------------------------

/-- `generate_mcu_header`. -/
def generateMcuHeader (config : Yaml) (messages : List Yaml) (typeMappings : PyDict)
    (protocolHash : UInt32) : Check (List String) := do
  let checksumAlgo ← checksumAlgoOf config
  let requireHandshake ← configGet config "require_handshake" (.bool true)
  let ignoreVersionMismatch ← configGet config "ignore_version_mismatch" (.bool false)
  let strictHeartbeat ← configGet config "strict_heartbeat" (.bool true)
  let numbers ← [("heartbeat_interval_ms", 1000), ("heartbeat_timeout_ms", 3000),
    ("reliable_retry_interval_ms", 100), ("reliable_max_retries", 3)].mapM
    fun key => do strOf (← configGet config key.1 (.int key.2))
  let headBytes ← ["head_byte_1", "head_byte_2"].mapM (shownIndex config)
  let ids ← messages.mapM fun msg => do return [← upperName msg, ← shownIndex msg "id"]
  let structs ← messages.mapM fun msg => do
    let fields ← (← fieldsOf msg).mapM fun field => do
      let cType ← getCType (← pyIndex field "type") typeMappings
      return [← strOf cType, ← shownIndex field "proto"]
    return fields.flatten ++ [← shownIndex msg "name"]
  let declarations ← messages.mapM fun msg => shownIndex msg "name"
  return [toString protocolHash.toNat, checksumAlgo, flag requireHandshake,
    flag ignoreVersionMismatch, flag strictHeartbeat] ++ numbers ++ headBytes ++ ids.flatten ++
    structs.flatten ++ declarations

/-- `generate_mcu_source`. -/
def generateMcuSource (config : Yaml) (messages : List Yaml) (typeMappings : PyDict) :
    Check (List String) := do
  let checksumAlgo ← checksumAlgoOf config
  let requireHandshake ← configGet config "require_handshake" (.bool true)
  let structPayloads ← messages.mapM fun msg => messagePayloadSize msg typeMappings
  let wirePayloads ← messages.mapM fun msg => messageWirePayloadSize msg typeMappings
  let reliable ← messages.mapM fun msg => messageReliable msg
  let hooks ← messages.mapM fun msg => shownIndex msg "name"
  let cases ← messages.mapM fun msg => do
    return [← upperName msg, flag (.bool (← messageReliable msg)), ← shownIndex msg "name"]
  let sends ← messages.mapM fun msg => do return [← shownIndex msg "name", ← upperName msg]
  return [checksumAlgo, flag requireHandshake, toString (pyMax structPayloads),
    toString (pyMax wirePayloads), flag (.bool (reliable.any id))] ++ hooks ++ cases.flatten ++
    sends.flatten

-- ---------------------------------------------------------------------------
-- The ROS side
-- ---------------------------------------------------------------------------

/-- `serial_params or {}`. -/
def serialParamsOr (serialParams : Yaml) : Yaml := if serialParams.truthy then serialParams else .map []

/-- `generate_cpp_config`. -/
def generateCppConfig (config : Yaml) (messages : List Yaml) (typeMappings : PyDict)
    (serialParams : Yaml) : Check (List String) := do
  let checksumAlgo ← checksumAlgoOf config
  let flags ← [("require_handshake", true), ("ignore_version_mismatch", false),
    ("strict_heartbeat", true)].mapM fun key => do
      return flag (← configGet config key.1 (.bool key.2))
  let port ← strOf (← configGet (serialParamsOr serialParams) "port" (.str "/dev/ttyACM0"))
  let baudrate ← strOf (← configGet (serialParamsOr serialParams) "baudrate" (.int 115200))
  let constants ← ["buffer_size", "head_byte_1", "head_byte_2"].mapM (shownIndex config)
  let numbers ← [("qos_depth", 10), ("heartbeat_interval_ms", 1000),
    ("heartbeat_timeout_ms", 3000), ("reliable_retry_interval_ms", 100),
    ("reliable_max_retries", 3)].mapM fun key => do strOf (← configGet config key.1 (.int key.2))
  let payloads ← messages.mapM fun msg => messageWirePayloadSize msg typeMappings
  let sizes ← messages.mapM fun msg => do
    return [flag (.bool (← messageReliable msg)), ← upperName msg, ← shownIndex msg "name"]
  let debugLogs ← messages.mapM fun msg => do
    let mode ← configGet msg "debug_log_mode" (.str "on")
    return [← upperName msg, flag (.bool (!mode.pyEq (.str "off")))]
  return [port, baudrate] ++ constants ++ [checksumAlgo] ++ flags ++ numbers ++
    [toString (pyMax payloads)] ++ sizes.flatten ++ debugLogs.flatten

/-- `pkg, sub, typ = ros_msg.split('/')`. -/
def rosMsgParts (rosMsg : Yaml) : Check (List String) :=
  match rosMsg with
  | .scalar (.str s) =>
    match splitChars '/' s.toList with
    | [pkg, sub, typ] => return [pkg, sub, typ].map String.ofList
    | _ => throw (.valueError "too many or not enough values to unpack (expected 3)")
  | _ => throw .attributeError

/-- The truthy value of a key, if there is one. -/
def truthyKey? (msg : Yaml) (key : String) : Check (Option Yaml) := do
  return (← pyGet? msg key).filter Yaml.truthy

/-- `sorted({msg['ros_msg'] for msg in messages if msg.get('ros_msg')})`, for strings: sorting other
values, or splitting them, raises. -/
def rosIncludes (messages : List Yaml) : Check (List Yaml) := do
  let rosMsgs ← messages.mapM fun msg => truthyKey? msg "ros_msg"
  let names ← rosMsgs.reduceOption.mapM fun rosMsg =>
    match rosMsg with
    | .scalar (.str s) => return s
    | _ => throw .typeError
  return (names.dedup.mergeSort fun a b => a ≤ b).map Yaml.str

/-- A field in a log text, by the first letter of its YAML type. -/
def fieldLogged (field : Yaml) : Check (List String) := do
  let name ← shownIndex field "proto"
  let type := pyLower (← strOf ((← pyGet? field "type").getD (.str "")))
  return [name, match type.toList with
    | 'f' :: _ => "double"
    | 'u' :: _ => "unsigned int"
    | _ => "int"]

/-- The access expressions of the fields, and the lengths they need: `_analyze_ros_path` over all
fields, with `_merge_vector_requirements`. -/
def fieldAccesses (pointer : Bool) : List (String × Nat) → List Yaml →
    Check (List (Yaml × String) × List (String × Nat))
  | requirements, [] => return ([], requirements)
  | requirements, field :: rest => do
    match ← pyIndex field "ros" with
    | .scalar (.str path) =>
      let (expr, updates) ← analyzeRosPath path "msg" pointer
      let requirements := updates.foldl (fun dest e => requireSize dest e.1 e.2) requirements
      let (accesses, requirements) ← fieldAccesses pointer requirements rest
      return ((field, expr) :: accesses, requirements)
    | _ => throw .attributeError

/-- The checks on the lengths, sorted by expression. -/
def shownRequirements (requirements : List (String × Nat)) : Check (List String) := do
  let sorted := requirements.mergeSort fun a b => a.1 ≤ b.1
  let texts ← sorted.mapM fun e => do return [e.1, ← strOf (.int e.2)]
  return texts.flatten

/-- The assignments to the struct. -/
def structAssignments (typeMappings : PyDict) (accesses : List (Yaml × String)) :
    Check (List String) := do
  let texts ← accesses.mapM fun access => do
    let cType ← getCType (← pyIndex access.1 "type") typeMappings
    return [← shownIndex access.1 "proto", ← strOf cType, access.2]
  return texts.flatten

/-- The assignments to the ROS message. -/
def messageAssignments (typeMappings : PyDict) (accesses : List (Yaml × String)) :
    Check (List String) := do
  let texts ← accesses.mapM fun access => do
    let cType ← getCType (← pyIndex access.1 "type") typeMappings
    return [access.2, flag (.bool (cType.pyEq (.str "uint8_t"))), ← shownIndex access.1 "proto"]
  return texts.flatten

/-- A message in `describe_packet`. -/
def packetDescription (msg : Yaml) : Check (List String) := do
  if ← hasDirection msg "tx" then
    let symbol ← upperName msg
    let name ← shownIndex msg "name"
    let fields ← (← fieldsOf msg).mapM fieldLogged
    let reliable ← messageReliable msg
    return [symbol, name] ++ fields.flatten ++ [flag (.bool reliable)]
  return []

/-- A message in `register_all`. -/
def subscription (typeMappings : PyDict) (qosDepth msg : Yaml) : Check (List String) := do
  match ← truthyKey? msg "sub_topic" with
  | some topic =>
    if ← hasDirection msg "tx" then
      let rosType ← rosMsgParts (← pyIndex msg "ros_msg")
      let name ← shownIndex msg "name"
      let topic ← strOf topic
      let qosDepth ← strOf qosDepth
      let (accesses, requirements) ← fieldAccesses true [] (← fieldsOf msg)
      let requirements ← shownRequirements requirements
      let assignments ← structAssignments typeMappings accesses
      let symbol ← upperName msg
      return [name] ++ rosType ++ [topic, qosDepth] ++ requirements ++ assignments ++
        [flag (.bool (← messageReliable msg)), symbol]
    return []
  | none => return []

/-- A message in `ProtocolPublishers`. -/
def publisher (qosDepth msg : Yaml) : Check (List String) := do
  match ← truthyKey? msg "pub_topic" with
  | some topic =>
    if ← hasDirection msg "rx" then
      let rosType ← rosMsgParts (← pyIndex msg "ros_msg")
      let name ← shownIndex msg "name"
      return rosType ++ [name, ← strOf topic, ← strOf qosDepth]
    return []
  | none => return []

/-- A message in `dispatch_packet`. -/
def dispatchCase (typeMappings : PyDict) (msg : Yaml) : Check (List String) := do
  match ← truthyKey? msg "pub_topic" with
  | some _ =>
    if ← hasDirection msg "rx" then
      let symbol ← upperName msg
      let name ← shownIndex msg "name"
      let rosType ← rosMsgParts (← pyIndex msg "ros_msg")
      let (accesses, requirements) ← fieldAccesses false [] (← fieldsOf msg)
      let requirements ← shownRequirements requirements
      let assignments ← messageAssignments typeMappings accesses
      let fields ← (← fieldsOf msg).mapM fieldLogged
      return [symbol, name] ++ rosType ++ requirements ++ assignments ++ fields.flatten
    return []
  | none => return []

/-- `generate_ros_bindings`. -/
def generateRosBindings (messages : List Yaml) (typeMappings : PyDict) (config : Yaml) :
    Check (List String) := do
  let qosDepth ← configGet config "qos_depth" (.int 10)
  let includes ← (← rosIncludes messages).mapM rosMsgParts
  let descriptions ← messages.mapM packetDescription
  let subscriptions ← messages.mapM (subscription typeMappings qosDepth)
  let publishers ← messages.mapM (publisher qosDepth)
  let cases ← messages.mapM (dispatchCase typeMappings)
  return (includes ++ descriptions ++ subscriptions ++ publishers ++ cases).flatten

-- ---------------------------------------------------------------------------
-- The documentation
-- ---------------------------------------------------------------------------

/-- `_field_table`. -/
def fieldTable (typeMappings : PyDict) (fields : List Yaml) : Check (List String) := do
  let rows ← fields.mapM fun field => do
    let cType ← getCType (← pyIndex field "type") typeMappings
    let size ← cTypeSize cType
    return [← shownIndex field "proto", ← strOf cType, toString size]
  return rows.flatten

/-- A message in `PROTOCOL_DOC.md`. -/
def messageDoc (typeMappings : PyDict) (topicKey : String) (msg : Yaml) : Check (List String) := do
  let size ← messageWirePayloadSize msg typeMappings
  let name ← shownIndex msg "name"
  let id ← hexIndex msg "id"
  let texts ← [topicKey, "ros_msg", "notes"].mapM fun key => do
    match ← truthyKey? msg key with
    | some v => return [← strOf v]
    | none => return []
  let table ← fieldTable typeMappings (← fieldsOf msg)
  return [name, id, toString size] ++ texts.flatten ++ table

/-- `generate_mcu_doc`. -/
def generateMcuDoc (config : Yaml) (messages : List Yaml) (typeMappings : PyDict)
    (protocolHash : UInt32) (serialParams : Yaml) : Check (List String) := do
  let headBytes ← ["head_byte_1", "head_byte_2"].mapM (hexIndex config)
  let baudrate ← configGet (serialParamsOr serialParams) "baudrate" (.int 115200)
  let checksum ← checksumAlgoOf config
  let requireHandshake ← configGet config "require_handshake" (.bool true)
  let rxMsgs ← messages.filterM fun m => hasDirection m "rx"
  let txMsgs ← messages.filterM fun m => hasDirection m "tx"
  let strictHeartbeat ← configGet config "strict_heartbeat" (.bool true)
  let numbers ← [("heartbeat_interval_ms", 1000), ("heartbeat_timeout_ms", 3000),
    ("reliable_retry_interval_ms", 100), ("reliable_max_retries", 3)].mapM
    fun key => do strOf (← configGet config key.1 (.int key.2))
  let baudrate ← strOf baudrate
  let rxDocs ← rxMsgs.mapM (messageDoc typeMappings "pub_topic")
  let txDocs ← txMsgs.mapM (messageDoc typeMappings "sub_topic")
  return [baudrate] ++ headBytes ++ [checksum, flag requireHandshake,
    toString protocolHash.toNat, flag strictHeartbeat] ++ numbers ++ rxDocs.flatten ++ txDocs.flatten

-- ---------------------------------------------------------------------------
-- main
-- ---------------------------------------------------------------------------

/-- What `yaml.safe_dump` writes of the hash input can be written. -/
def ProtocolHashInput.printable (input : ProtocolHashInput) : Bool :=
  input.headByte1.printable && input.headByte2.printable &&
    input.messages.all fun m => m.id.printable && m.direction.printable &&
      m.fieldTypes.all Yaml.printable

/-- `calculate_protocol_hash`. The digest of the dumped input is a parameter. -/
def calculateProtocolHash (hash : ProtocolHashInput → UInt32) (configData : Yaml) : Check UInt32 := do
  let input ← protocolHashInput configData
  if input.printable then return hash input else throw tooManyDigits

/-- `main` behind `validate_protocol`. -/
def generateFiles (hash : ProtocolHashInput → UInt32) (configData : Yaml) :
    Check (List (List String)) := do
  let config ← pyIndex configData "config"
  let typeMappings := (← pyGet? configData "type_mappings").getD (.map [])
  let typeMappings ← typeMappingsOf (if typeMappings.truthy then typeMappings else .map [])
  let serialController := (← pyGet? configData "serial_controller").getD (.map [])
  let serialParams := (← pyGet? serialController "ros__parameters").getD (.map [])
  let messages ← mergeMessages ((← pyGet? configData "messages").getD (.list []))
  let phash ← calculateProtocolHash hash configData
  let header ← generateMcuHeader config messages typeMappings phash
  let source ← generateMcuSource config messages typeMappings
  let cppConfig ← generateCppConfig config messages typeMappings serialParams
  let bindings ← generateRosBindings messages typeMappings config
  let doc ← generateMcuDoc config messages typeMappings phash serialParams
  return [header, source, cppConfig, bindings, doc]

end AutoSerialBridge
