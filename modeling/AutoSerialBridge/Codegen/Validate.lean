import AutoSerialBridge.Codegen.Messages

/-!
# Auto Serial Bridge — `validate_protocol`

The validator, block by block in the order of the source. Each block returns the errors it appends
to the list; a block that uses a value in a way that can raise runs in `Except PyError`. Two values
are assigned in place and so belong to the result: `config.checksum`, and `debug_log_mode` of every
message.
-/

namespace AutoSerialBridge

/-- A dictionary. -/
abbrev PyDict : Type := List (Scalar × Yaml)

-- ---------------------------------------------------------------------------
-- The errors
-- ---------------------------------------------------------------------------

/-- An entry of `errors`, with the values its text shows. -/
inductive ProtocolError where
  | configNotMapping
  | messagesNotList
  | typeMappingsNotMapping
  | serialParamsNotMapping
  | configBaudrate
  | baudrate
  | port
  | unsupportedChecksum (value : Yaml)
  | headByte (key : String)
  | bufferSize
  | enableHeartbeat
  | notBoolean (key : String)
  | notPositive (key : String)
  | heartbeatTimeout (timeout interval : Int)
  | messageNotMapping (index : Nat)
  | missingField (label : Yaml) (required : String)
  | invalidDirection (label direction : Yaml)
  | invalidDebugLogMode (label value : Yaml)
  | invalidReliable (label value : Yaml)
  | reliableDirection (label direction : Yaml)
  | idRange (label : Yaml)
  | reservedId (label : Yaml) (id : Int) (name : String)
  | duplicateId (label : Yaml) (id : Int) (other : Yaml)
  | nameNotIdentifier (name : Yaml)
  | nameReserved (name : String)
  | duplicateName (name : String)
  | symbolConflict (name symbol other : String)
  | invalidRosMsg (label rosMsg : Yaml)
  | missingTopic (label direction : Yaml) (topicKey : String)
  | invalidTopic (label : Yaml) (topicKey : String) (topic : Yaml)
  | sameTopic (label topic : Yaml)
  | reusedTopic (label : Yaml) (topicKey topic : String) (other : Yaml)
  | fieldsNotList (label : Yaml)
  | noFields (label : Yaml)
  | fieldNotMapping (label : Yaml)
  | fieldNotIdentifier (label name : Yaml)
  | fieldReserved (label : Yaml) (name : String)
  | duplicateField (label : Yaml) (name : String)
  | unknownType (label field type : Yaml)
  | missingRosPath (label field : Yaml)
  | badRosPath (label field : Yaml) (message : String)
  | wirePayload (label : Yaml) (size : Nat)
  | bufferTooSmall (bufferSize : Int) (largestFrame : Nat)

/-- `f"{mid:#04x}"` of a byte. -/
def hexByte (id : Int) : String :=
  let digit (n : Nat) : Char := "0123456789abcdef".toList.getD n '0'
  String.ofList ['0', 'x', digit (id.toNat / 16), digit (id.toNat % 16)]

/-- The text of an error. -/
def ProtocolError.text : ProtocolError → String
  | configNotMapping => "Top-level 'config' must be a mapping."
  | messagesNotList => "Top-level 'messages' must be a list."
  | typeMappingsNotMapping => "Top-level 'type_mappings' must be a mapping."
  | serialParamsNotMapping => "serial_controller.ros__parameters must be a mapping."
  | configBaudrate => "config.baudrate is not supported; use " ++
      "serial_controller.ros__parameters.baudrate only."
  | baudrate => "serial_controller.ros__parameters.baudrate must be a positive integer."
  | port => "serial_controller.ros__parameters.port must be a non-empty string."
  | unsupportedChecksum value => "Unsupported checksum '" ++ pyStr value ++
      "'. Supported: CRC8, NONE, SUM8, XOR8"
  | headByte key => "config." ++ key ++ " must be an integer in [0, 255]."
  | bufferSize => "config.buffer_size must be a positive integer."
  | enableHeartbeat => "config.enable_heartbeat is no longer supported; heartbeat is always " ++
      "enabled. Tune heartbeat_interval_ms / heartbeat_timeout_ms / strict_heartbeat instead."
  | notBoolean key => "config." ++ key ++ " must be boolean."
  | notPositive key => "config." ++ key ++ " must be a positive integer."
  | heartbeatTimeout timeout interval => "config.heartbeat_timeout_ms=" ++ toString timeout ++
      " must be >= heartbeat_interval_ms=" ++ toString interval ++ "."
  | messageNotMapping index => "messages[" ++ toString index ++ "] must be a mapping."
  | missingField label required => "Message '" ++ pyStr label ++ "' missing required field '" ++
      required ++ "'."
  | invalidDirection label direction => "Message '" ++ pyStr label ++
      "' has invalid direction '" ++ pyStr direction ++ "'. Must be one of: both, rx, tx"
  | invalidDebugLogMode label value => "Message '" ++ pyStr label ++
      "' has invalid debug_log_mode '" ++ pyStr value ++ "'. Must be one of: off, on."
  | invalidReliable label value => "Message '" ++ pyStr label ++ "' has invalid reliable='" ++
      pyStr value ++ "'. Must be boolean."
  | reliableDirection label direction => "Message '" ++ pyStr label ++
      "' sets reliable=true but direction is '" ++ pyStr direction ++
      "'. reliable is only supported for direction 'tx' (ROS -> MCU)."
  | idRange label => "Message '" ++ pyStr label ++ "' id must be an integer in [0, 255]."
  | reservedId label id name => "Message '" ++ pyStr label ++ "' uses reserved ID " ++
      hexByte id ++ ". IDs 0xFD-0xFF belong to built-in system message '" ++ name ++
      "'; system messages are injected automatically and must not appear in protocol.yaml."
  | duplicateId label id other => "Message '" ++ pyStr label ++ "' has duplicate ID " ++
      hexByte id ++ " (conflicts with '" ++ pyStr other ++ "')."
  | nameNotIdentifier name => "Message name '" ++ pyStr name ++ "' must be a valid C identifier."
  | nameReserved name => "Message name '" ++ name ++
      "' is reserved for a built-in system message; remove it from protocol.yaml (system " ++
      "messages are injected automatically)."
  | duplicateName name => "Duplicate message name '" ++ name ++ "'."
  | symbolConflict name symbol other => "Message '" ++ name ++
      "' generated symbol PACKET_ID_" ++ symbol ++ " conflicts with '" ++ other ++ "'."
  | invalidRosMsg label rosMsg => "Message '" ++ pyStr label ++ "' has invalid ros_msg '" ++
      pyStr rosMsg ++ "'. Expected package/msg/Type."
  | missingTopic label direction topicKey => "Message '" ++ pyStr label ++ "' (direction=" ++
      pyStr direction ++ ") missing '" ++ topicKey ++ "'."
  | invalidTopic label topicKey topic => "Message '" ++ pyStr label ++ "' has invalid " ++
      topicKey ++ " '" ++ pyStr topic ++ "'. Use a non-empty relative ROS topic."
  | sameTopic label topic => "Message '" ++ pyStr label ++ "' uses the same topic '" ++
      pyStr topic ++ "' for sub_topic and pub_topic; this would loop MCU traffic back to the " ++
      "MCU. Use two different topics."
  | reusedTopic label topicKey topic other => "Message '" ++ pyStr label ++ "' reuses " ++
      topicKey ++ " '" ++ topic ++ "' (already used by '" ++ pyStr other ++ "')."
  | fieldsNotList label => "Message '" ++ pyStr label ++ "' fields must be a list."
  | noFields label => "Message '" ++ pyStr label ++ "' must declare at least one field."
  | fieldNotMapping label => "Message '" ++ pyStr label ++
      "' contains a field that is not a mapping."
  | fieldNotIdentifier label name => "Message '" ++ pyStr label ++ "' field name '" ++
      pyStr name ++ "' must be a valid C identifier."
  | fieldReserved label name => "Message '" ++ pyStr label ++ "' field name '" ++ name ++
      "' is reserved by C/C++."
  | duplicateField label name => "Message '" ++ pyStr label ++
      "' has duplicate field name '" ++ name ++ "'."
  | unknownType label field type => "Message '" ++ pyStr label ++ "', field '" ++ pyStr field ++
      "': unknown type '" ++ pyStr type ++ "'."
  | missingRosPath label field => "Message '" ++ pyStr label ++ "', field '" ++ pyStr field ++
      "' missing non-empty ros path."
  | badRosPath label field message => "Message '" ++ pyStr label ++ "', field '" ++
      pyStr field ++ "': " ++ message
  | wirePayload label size => "Message '" ++ pyStr label ++ "' wire payload is " ++
      toString size ++ " bytes; maximum is 255."
  | bufferTooSmall size largestFrame => "config.buffer_size=" ++ toString size ++
      " cannot hold the largest complete frame (" ++ toString largestFrame ++ " bytes)."

/-- The values whose `str` the text shows, sizes apart. -/
def ProtocolError.shown : ProtocolError → List Yaml
  | unsupportedChecksum value => [value]
  | heartbeatTimeout timeout interval => [.int timeout, .int interval]
  | missingField label _ => [label]
  | invalidDirection label direction => [label, direction]
  | invalidDebugLogMode label value => [label, value]
  | invalidReliable label value => [label, value]
  | reliableDirection label direction => [label, direction]
  | idRange label => [label]
  | reservedId label _ _ => [label]
  | duplicateId label _ other => [label, other]
  | nameNotIdentifier name => [name]
  | invalidRosMsg label rosMsg => [label, rosMsg]
  | missingTopic label direction _ => [label, direction]
  | invalidTopic label _ topic => [label, topic]
  | sameTopic label topic => [label, topic]
  | reusedTopic label _ _ other => [label, other]
  | fieldsNotList label => [label]
  | noFields label => [label]
  | fieldNotMapping label => [label]
  | fieldNotIdentifier label name => [label, name]
  | fieldReserved label _ => [label]
  | duplicateField label _ => [label]
  | unknownType label field type => [label, field, type]
  | missingRosPath label field => [label, field]
  | badRosPath label field _ => [label, field]
  | wirePayload label _ => [label]
  | _ => []

/-- A computation of the validator. -/
abbrev Check (α : Type) : Type := Except (PyError ProtocolError) α

/-- The errors are appended, which takes their texts. -/
def report (errors : List ProtocolError) : Check (List ProtocolError) :=
  if errors.all fun e => e.shown.all Yaml.printable then return errors else throw tooManyDigits

/-- The error list `[e]` unless the check holds. -/
def errorUnless (ok : Bool) (e : ProtocolError) : List ProtocolError := if ok then [] else [e]

-- ---------------------------------------------------------------------------
-- Lexical checks
-- ---------------------------------------------------------------------------

/-- A check on the characters of a list goes through the list, not through all characters there are. -/
instance (priority := 2000) decidableForallChars (chars : List Char) (p : Char → Prop) [DecidablePred p] :
    Decidable (∀ c ∈ chars, p c) := List.decidableBAll p chars

/-- `[A-Za-z0-9_]`. -/
def isWordChar (c : Char) : Bool := c.isAlphanum || c = '_'

/-- `identifier_re`. -/
def isIdentifier (s : List Char) : Bool :=
  match s with
  | [] => false
  | c :: rest => (c.isAlpha || c = '_') && rest.all isWordChar

/-- `C_CPP_KEYWORDS`. -/
def cCppKeywords : List String :=
  ["_Alignas", "_Alignof", "_Atomic", "_Bool", "_Complex", "_Generic",
    "_Imaginary", "_Noreturn", "_Static_assert", "_Thread_local",
    "alignas", "alignof", "and", "and_eq", "asm", "auto", "bitand", "bitor",
    "bool", "break", "case", "catch", "char", "char16_t", "char32_t", "class",
    "compl", "concept", "const", "constexpr", "const_cast", "continue", "co_await",
    "co_return", "co_yield", "decltype", "default", "delete", "do", "double",
    "dynamic_cast", "else", "enum", "explicit", "export", "extern", "false",
    "float", "for", "friend", "goto", "if", "inline", "int", "long", "mutable",
    "namespace", "new", "noexcept", "not", "not_eq", "nullptr", "operator", "or",
    "or_eq", "private", "protected", "public", "register", "reinterpret_cast",
    "requires", "restrict", "return", "short", "signed", "sizeof", "static", "static_assert",
    "static_cast", "struct", "switch", "template", "this", "thread_local", "throw",
    "true", "try", "typedef", "typeid", "typename", "union", "unsigned", "using",
    "virtual", "void", "volatile", "wchar_t", "while", "xor", "xor_eq"]

/-- `is_reserved_c_cpp_identifier`, of an identifier. -/
def isReservedCCppIdentifier (name : String) : Bool :=
  cCppKeywords.contains name ||
  match name.toList with
  | '_' :: '_' :: _ => true
  | '_' :: c :: _ => c.isUpper
  | _ => false

/-- `s.split(sep)`. -/
def splitChars (sep : Char) : List Char → List (List Char)
  | [] => [[]]
  | c :: rest =>
    if c = sep then [] :: splitChars sep rest
    else
      match splitChars sep rest with
      | part :: parts => (c :: part) :: parts
      | [] => [[c]]

/-- `ros_msg_re`: `package/msg/Type`. -/
def isRosMsg (s : String) : Bool :=
  match splitChars '/' s.toList with
  | [c :: package, ['m', 's', 'g'], t :: type] =>
    c.isLower && package.all (fun c => c.isLower || c.isDigit || c = '_') &&
    t.isUpper && type.all isWordChar
  | _ => false

/-- `.*//`. -/
def hasDoubleSlash : List Char → Bool
  | '/' :: '/' :: _ => true
  | _ :: rest => hasDoubleSlash rest
  | [] => false

/-- `topic_re`: a relative topic without empty levels. -/
def isTopic (s : String) : Bool :=
  match s.toList with
  | [] => false
  | c :: rest =>
    !hasDoubleSlash (c :: rest) && (isWordChar c || c = '~') &&
    rest.all fun c => isWordChar c || c = '~' || c = '/'

/-- The first code point of every run of ten decimal digits in Unicode (`\d`). -/
def decimalZeros : List Nat :=
  [0x30, 0x660, 0x6f0, 0x7c0, 0x966, 0x9e6, 0xa66, 0xae6, 0xb66, 0xbe6, 0xc66, 0xce6, 0xd66,
    0xde6, 0xe50, 0xed0, 0xf20, 0x1040, 0x1090, 0x17e0, 0x1810, 0x1946, 0x19d0, 0x1a80, 0x1a90,
    0x1b50, 0x1bb0, 0x1c40, 0x1c50, 0xa620, 0xa8d0, 0xa900, 0xa9d0, 0xa9f0, 0xaa50, 0xabf0,
    0xff10, 0x104a0, 0x10d30, 0x11066, 0x110f0, 0x11136, 0x111d0, 0x112f0, 0x11450, 0x114d0,
    0x11650, 0x116c0, 0x11730, 0x118e0, 0x11950, 0x11c50, 0x11d50, 0x11da0, 0x16a60, 0x16ac0,
    0x16b50, 0x1d7ce, 0x1d7d8, 0x1d7e2, 0x1d7ec, 0x1d7f6, 0x1e140, 0x1e2f0, 0x1e950, 0x1fbf0]

/-- The value of a decimal digit. -/
def decimalDigit? (c : Char) : Option Nat :=
  (decimalZeros.find? fun z => z ≤ c.toNat && c.toNat < z + 10).map fun z => c.toNat - z

/-- `_ROS_FIELD_SEGMENT_RE`: a name and, in brackets, the digits of an index. -/
def rosFieldSegment (segment : List Char) : Option (List Char × Option (List Char)) :=
  let name := segment.takeWhile isWordChar
  if isIdentifier name then
    match segment.dropWhile isWordChar with
    | [] => some (name, none)
    | '[' :: rest =>
      match rest.getLast? with
      | some ']' =>
        let digits := rest.dropLast
        if !digits.isEmpty && digits.all (fun c => (decimalDigit? c).isSome) then
          some (name, some digits)
        else none
      | _ => none
    | _ => none
  else none

/-- `int(digits)`; Python converts at most 4300 digits. -/
def pyInt (digits : List Char) : Except (PyError ProtocolError) Nat :=
  if digits.length > 4300 then
    .error (.valueError ("Exceeds the limit (4300 digits) for integer string conversion: " ++
      "value has " ++ toString digits.length ++
      " digits; use sys.set_int_max_str_digits() to increase the limit"))
  else .ok (digits.foldl (fun n c => 10 * n + (decimalDigit? c).getD 0) 0)

/-- `vector_requirements[base] = max(vector_requirements.get(base, 0), size)`. -/
def requireSize : List (String × Nat) → String → Nat → List (String × Nat)
  | [], base, size => [(base, size)]
  | (e, n) :: rest, base, size =>
    if e = base then (e, max n size) :: rest else (e, n) :: requireSize rest base size

/-- The loop of `_analyze_ros_path`; `pointer` only concerns the first segment. -/
def analyzeSegments (path : String) : Bool → String → List (String × Nat) → List (List Char) →
    Except (PyError ProtocolError) (String × List (String × Nat))
  | _, current, requirements, [] => .ok (current, requirements)
  | pointer, current, requirements, segment :: rest =>
    match rosFieldSegment segment with
    | none => .error (.valueError ("Unsupported ROS field path segment: " ++
        pyReprStr (String.ofList segment) ++ " in " ++ pyReprStr path))
    | some (name, index) =>
      let base := current ++ (if pointer then "->" else ".") ++ String.ofList name
      match index with
      | none => analyzeSegments path false base requirements rest
      | some digits => do
        let n ← pyInt digits
        analyzeSegments path false (base ++ "[" ++ String.ofList digits ++ "]")
          (requireSize requirements base (n + 1)) rest

/-- `_analyze_ros_path`. -/
def analyzeRosPath (path rootVar : String) (pointer : Bool) :
    Except (PyError ProtocolError) (String × List (String × Nat)) :=
  analyzeSegments path pointer rootVar [] (splitChars '.' path.toList)

/-- `_normalize_debug_log_mode`. -/
def normalizeDebugLogMode (value : Yaml) : Check String := do
  match value with
  | .scalar .null => return "on"
  | v => return pyLower (pyStrip (← strOf v))

-- ---------------------------------------------------------------------------
-- config and serial_controller
-- ---------------------------------------------------------------------------

/-- `SUPPORTED_CHECKSUMS`. -/
def supportedChecksums : List String := ["NONE", "SUM8", "XOR8", "CRC8"]

/-- `str(cfg.get('checksum', 'CRC8')).upper()`. -/
def checksumText (cfg : PyDict) : String := pyUpper (pyStr (dictGetD cfg "checksum" (.str "CRC8")))

/-- A positive integer that is no `bool`. -/
def isPositiveInt (v : Yaml) : Bool :=
  match v.asInt? with
  | some n => 0 < n
  | none => false

/-- An integer in `[0, 255]` that is no `bool`. -/
def isByte (v : Yaml) : Bool :=
  match v.asInt? with
  | some n => 0 ≤ n && n ≤ 0xFF
  | none => false

/-- The checks on `serial_controller.ros__parameters` and `config.baudrate`. -/
def checkSerialParams (cfg serialParams : PyDict) : List ProtocolError :=
  errorUnless (!dictHas cfg "baudrate") .configBaudrate ++
  errorUnless (isPositiveInt (dictGet serialParams "baudrate")) .baudrate ++
  errorUnless (match (dictGet serialParams "port").asStr? with
    | some s => s ≠ ""
    | none => false) .port

/-- The heartbeat window must not be shorter than the interval. -/
def checkHeartbeatWindow (cfg : PyDict) : List ProtocolError :=
  match (dictGetD cfg "heartbeat_interval_ms" (.int 1000)).asInt?,
      (dictGetD cfg "heartbeat_timeout_ms" (.int 3000)).asInt? with
  | some interval, some timeout =>
    errorUnless (!(interval > 0 && timeout > 0 && timeout < interval))
      (.heartbeatTimeout timeout interval)
  | _, _ => []

/-- The keys of `config` that must be boolean. -/
def booleanKeys : List String :=
  ["require_handshake", "ignore_version_mismatch", "strict_heartbeat"]

/-- The keys of `config` that must be positive, with their defaults. -/
def positiveKeys : List (String × Int) :=
  [("heartbeat_interval_ms", 1000), ("heartbeat_timeout_ms", 3000),
    ("reliable_retry_interval_ms", 100), ("reliable_max_retries", 3), ("qos_depth", 10)]

/-- The checks on the rest of `config`. -/
def checkConfig (cfg : PyDict) : List ProtocolError :=
  errorUnless (supportedChecksums.contains (checksumText cfg))
    (.unsupportedChecksum (dictGet cfg "checksum")) ++
  ["head_byte_1", "head_byte_2"].flatMap
    (fun key => errorUnless (isByte (dictGet cfg key)) (.headByte key)) ++
  errorUnless (isPositiveInt (dictGet cfg "buffer_size")) .bufferSize ++
  errorUnless (!dictHas cfg "enable_heartbeat") .enableHeartbeat ++
  booleanKeys.flatMap
    (fun key => errorUnless (dictGetD cfg key (.bool true)).isBool (.notBoolean key)) ++
  positiveKeys.flatMap
    (fun key => errorUnless (isPositiveInt (dictGetD cfg key.1 (.int key.2)))
      (.notPositive key.1)) ++
  checkHeartbeatWindow cfg

-- ---------------------------------------------------------------------------
-- One message
-- ---------------------------------------------------------------------------

/-- What the loop over the messages remembers. -/
structure Seen where
  ids : List (Int × Yaml)
  names : List String
  generatedSymbols : List (String × String)
  subTopics : List (String × Yaml)
  pubTopics : List (String × Yaml)

/-- The dictionaries before the loop. -/
def Seen.initial : Seen where
  ids := []
  names := []
  generatedSymbols := systemMessageNames.map fun name => (pyUpper name, name)
  subTopics := []
  pubTopics := []

/-- `VALID_DIRECTIONS`. -/
def validDirections : List String := ["tx", "rx", "both"]

def checkRequired (label : Yaml) (msg : PyDict) : List ProtocolError :=
  ["name", "id", "direction", "ros_msg", "fields"].flatMap fun required =>
    errorUnless (dictHas msg required) (.missingField label required)

/-- `msg.get('direction') not in VALID_DIRECTIONS`: the value is hashed. -/
def checkDirection (label : Yaml) (msg : PyDict) : Check (List ProtocolError) := do
  let direction := dictGet msg "direction"
  let key ← hashable direction
  report (errorUnless (validDirections.any fun d => key.pyEq (.str d))
    (.invalidDirection label direction))

def checkDebugLogMode (label : Yaml) (msg : PyDict) : Check (PyDict × List ProtocolError) := do
  let debugLogMode ← normalizeDebugLogMode (dictGetD msg "debug_log_mode" (.str "on"))
  if debugLogMode = "on" ∨ debugLogMode = "off" then
    return (dictSet msg "debug_log_mode" (.str debugLogMode), [])
  return (msg, ← report [.invalidDebugLogMode label (dictGet msg "debug_log_mode")])

def checkReliable (label : Yaml) (msg : PyDict) : List ProtocolError :=
  errorUnless (!(dictHas msg "reliable" && !(dictGet msg "reliable").isBool))
    (.invalidReliable label (dictGet msg "reliable")) ++
  errorUnless (!((dictGetD msg "reliable" (.bool false)).truthy &&
      !(dictGet msg "direction").pyEq (.str "tx")))
    (.reliableDirection label (dictGet msg "direction"))

def checkId (label : Yaml) (msg : PyDict) (seen : List (Int × Yaml)) :
    List (Int × Yaml) × List ProtocolError :=
  let mid := dictGet msg "id"
  match mid with
  | .scalar .null => (seen, [])
  | mid =>
    if isByte mid then
      let n := mid.asInt?.getD 0
      match reservedIds.lookup n with
      | some name => (seen, [.reservedId label n name])
      | none =>
        match seen.lookup n with
        | some other => (seen, [.duplicateId label n other])
        | none => (seen ++ [(n, label)], [])
    else (seen, [.idRange label])

/-- The checks on the name; `seen_generated_symbols` is filled only for a new name. -/
def checkName (msg : PyDict) (names : List String) (symbols : List (String × String)) :
    List String × List (String × String) × List ProtocolError :=
  match dictGet msg "name" with
  | .scalar .null => (names, symbols, [])
  | .scalar (.str name) =>
    if !isIdentifier name.toList then (names, symbols, [.nameNotIdentifier (.str name)])
    else if systemMessageNames.contains name then (names, symbols, [.nameReserved name])
    else if names.contains name then (names, symbols, [.duplicateName name])
    else
      let generatedSymbol := pyUpper name
      match symbols.lookup generatedSymbol with
      | some other =>
        (names ++ [name], symbols, [.symbolConflict name generatedSymbol other])
      | none => (names ++ [name], symbols ++ [(generatedSymbol, name)], [])
  | name => (names, symbols, [.nameNotIdentifier name])

def checkRosMsg (label : Yaml) (msg : PyDict) : List ProtocolError :=
  let rosMsg := dictGet msg "ros_msg"
  errorUnless (match rosMsg.asStr? with
    | some s => isRosMsg s
    | none => false) (.invalidRosMsg label rosMsg)

/-- `direction in (d, 'both')`. -/
def directionIs (direction : Yaml) (d : String) : Bool :=
  direction.pyEq (.str d) || direction.pyEq (.str "both")

/-- A topic key of a message: its form, if it is there. -/
def checkTopicForm (label : Yaml) (msg : PyDict) (topicKey : String) : List ProtocolError :=
  match dictLookup msg (.str topicKey) with
  | none => []
  | some topic =>
    errorUnless (match topic.asStr? with
      | some s => isTopic s
      | none => false) (.invalidTopic label topicKey topic)

/-- A topic may be used by one message only. -/
def checkTopicUse (label : Yaml) (msg : PyDict) (topicKey : String) (seen : List (String × Yaml)) :
    List (String × Yaml) × List ProtocolError :=
  match (dictGet msg topicKey).asStr? with
  | none => (seen, [])
  | some topic =>
    match seen.lookup topic with
    | some other => (seen, [.reusedTopic label topicKey topic other])
    | none => (seen ++ [(topic, label)], [])

/-- The checks on `sub_topic` and `pub_topic` that need no memory of other messages. -/
def checkTopics (label : Yaml) (msg : PyDict) : List ProtocolError :=
  let direction := dictGetD msg "direction" (.str "")
  let subTopic := dictGet msg "sub_topic"
  let pubTopic := dictGet msg "pub_topic"
  errorUnless (!(directionIs direction "tx" && !dictHas msg "sub_topic"))
    (.missingTopic label direction "sub_topic") ++
  errorUnless (!(directionIs direction "rx" && !dictHas msg "pub_topic"))
    (.missingTopic label direction "pub_topic") ++
  checkTopicForm label msg "sub_topic" ++ checkTopicForm label msg "pub_topic" ++
  errorUnless (!(direction.pyEq (.str "both") && subTopic.truthy && pubTopic.truthy &&
      subTopic.pyEq pubTopic)) (.sameTopic label subTopic)

-- ---------------------------------------------------------------------------
-- The fields of a message
-- ---------------------------------------------------------------------------

/-- The name of a field, and `seen_fields` after it. -/
def checkFieldName (label : Yaml) (field : PyDict) (seenFields : List String) :
    List String × List ProtocolError :=
  match dictGet field "proto" with
  | .scalar (.str name) =>
    if !isIdentifier name.toList then (seenFields, [.fieldNotIdentifier label (.str name)])
    else if isReservedCCppIdentifier name then (seenFields, [.fieldReserved label name])
    else if seenFields.contains name then (seenFields, [.duplicateField label name])
    else (seenFields ++ [name], [])
  | name => (seenFields, [.fieldNotIdentifier label name])

/-- `c_type in supported_c_types`: the value is hashed. -/
def isSupported (cType : Yaml) : Check Bool := do
  match ← hashable cType with
  | .str name => return (cTypeSizes.lookup name).isSome
  | _ => return false

def checkFieldType (label : Yaml) (field typeMappings : PyDict) : Check (List ProtocolError) := do
  let ftype := dictGetD field "type" (.str "")
  let cType ← getCType ftype typeMappings
  report (errorUnless (← isSupported cType)
    (.unknownType label (dictGetD field "proto" (.str "?")) ftype))

def checkFieldPath (label : Yaml) (field : PyDict) : List ProtocolError :=
  match dictGet field "ros" with
  | .scalar (.str path) =>
    if path = "" then [.missingRosPath label (dictGetD field "proto" (.str "?"))]
    else
      match analyzeRosPath path "msg" true with
      | .error (.valueError message) =>
        [.badRosPath label (dictGetD field "proto" (.str "?")) message]
      | _ => []
  | _ => [.missingRosPath label (dictGetD field "proto" (.str "?"))]

/-- The body of the loop over the fields. -/
def checkField (label : Yaml) (typeMappings : PyDict) (seenFields : List String) (field : Yaml) :
    Check (List String × List ProtocolError) := do
  match field with
  | .map field =>
    let (seenFields, nameErrors) := checkFieldName label field seenFields
    let nameErrors ← report nameErrors
    let typeErrors ← checkFieldType label field typeMappings
    let pathErrors ← report (checkFieldPath label field)
    return (seenFields, nameErrors ++ typeErrors ++ pathErrors)
  | _ => return (seenFields, ← report [.fieldNotMapping label])

def checkFieldList (label : Yaml) (typeMappings : PyDict) :
    List String → List Yaml → Check (List ProtocolError)
  | _, [] => return []
  | seenFields, field :: rest => do
    let (seenFields, errors) ← checkField label typeMappings seenFields field
    return errors ++ (← checkFieldList label typeMappings seenFields rest)

/-- The checks on `fields`, the payload size included. -/
def checkFields (label : Yaml) (msg typeMappings : PyDict) : Check (List ProtocolError) := do
  match dictGetD msg "fields" (.list []) with
  | .list fields =>
    let errors ← report
      (errorUnless (!(dictHas msg "fields" && fields.isEmpty)) (.noFields label))
    let errors := errors ++ (← checkFieldList label typeMappings [] fields)
    if fields.isEmpty then return errors
    let wireSize ← messageWirePayloadSize (.map msg) typeMappings
    return errors ++ (← report (errorUnless (wireSize ≤ 0xFF) (.wirePayload label wireSize)))
  | _ => report [.fieldsNotList label]

-- ---------------------------------------------------------------------------
-- The loop over the messages
-- ---------------------------------------------------------------------------

/-- The body of the loop. The message comes back with its normalised `debug_log_mode`. -/
def checkMessage (typeMappings : PyDict) (seen : Seen) (index : Nat) (msg : Yaml) :
    Check (Seen × Yaml × List ProtocolError) := do
  match msg with
  | .map msg =>
    let label := dictGetD msg "name" (.str ("messages[" ++ toString index ++ "]"))
    let requiredErrors ← report (checkRequired label msg)
    let directionErrors ← checkDirection label msg
    let (msg, modeErrors) ← checkDebugLogMode label msg
    let (ids, idErrors) := checkId label msg seen.ids
    let (names, symbols, nameErrors) := checkName msg seen.names seen.generatedSymbols
    let (subTopics, subErrors) := checkTopicUse label msg "sub_topic" seen.subTopics
    let (pubTopics, pubErrors) := checkTopicUse label msg "pub_topic" seen.pubTopics
    let errors ← report (checkReliable label msg ++ idErrors ++ nameErrors ++
      checkRosMsg label msg ++ checkTopics label msg ++ subErrors ++ pubErrors)
    let fieldErrors ← checkFields label msg typeMappings
    let seen : Seen :=
      { ids := ids, names := names, generatedSymbols := symbols, subTopics := subTopics,
        pubTopics := pubTopics }
    return (seen, .map msg, requiredErrors ++ directionErrors ++ modeErrors ++ errors ++
      fieldErrors)
  | msg => return (seen, msg, [.messageNotMapping index])

def checkMessages (typeMappings : PyDict) :
    Seen → Nat → List Yaml → Check (List Yaml × List ProtocolError)
  | _, _, [] => return ([], [])
  | seen, index, msg :: rest => do
    let (seen, msg, errors) ← checkMessage typeMappings seen index msg
    let (msgs, restErrors) ← checkMessages typeMappings seen (index + 1) rest
    return (msg :: msgs, errors ++ restErrors)

-- ---------------------------------------------------------------------------
-- The receive buffer
-- ---------------------------------------------------------------------------

/-- `isinstance(m, dict) and isinstance(m.get('id'), int) and isinstance(m.get('fields'), list)`:
here a `bool` is an `int`. -/
def isSizable (m : Yaml) : Bool :=
  match m with
  | .map m =>
    (match dictGet m "id" with
    | .scalar (.int _) => true
    | .scalar (.bool _) => true
    | _ => false) && (dictGet m "fields").asList?.isSome
  | _ => false

/-- `max(...)` of a list that is never empty. -/
def pyMax (sizes : List Nat) : Nat := sizes.foldl max 0

def checkBufferSize (cfg typeMappings : PyDict) (messages : List Yaml) :
    Check (List ProtocolError) := do
  match (dictGet cfg "buffer_size").asInt? with
  | some bufferSize =>
    if bufferSize > 0 then
      let allMessages ← mergeMessages (.list (messages.filter isSizable))
      let sizes ← allMessages.mapM fun m => messageWirePayloadSize m typeMappings
      let largestFrame := pyMax (sizes.map (· + 5))
      return errorUnless (!(bufferSize < largestFrame)) (.bufferTooSmall bufferSize largestFrame)
    else return []
  | none => return []

-- ---------------------------------------------------------------------------
-- validate_protocol
-- ---------------------------------------------------------------------------

/-- The value of a top-level key that must be a mapping, or `{}` and an error. -/
def topLevelMapping (v : Yaml) (e : ProtocolError) : PyDict × List ProtocolError :=
  match v with
  | .map entries => (entries, [])
  | _ => ([], [e])

/-- `messages`, or `[]` for `None`, or `[]` and an error. -/
def topLevelMessages (v : Yaml) : List Yaml × List ProtocolError :=
  match v with
  | .scalar .null => ([], [])
  | .list items => (items, [])
  | _ => ([], [.messagesNotList])

/-- The configuration with the values assigned in place. -/
def assignedRoot (root cfg : PyDict) (messages : List Yaml) : PyDict :=
  let root := dictSet root "config" (.map (dictSet cfg "checksum" (.str (checksumText cfg))))
  if dictHas root "messages" then dictSet root "messages" (.list messages) else root

/-- `validate_protocol`. On acceptance the result is the configuration as the validator leaves
it. -/
def validateProtocol (configData : Yaml) : Check Yaml := do
  match configData with
  | .map root =>
    let serialController := dictGetD root "serial_controller" (.map [])
    let serialParams := (← pyGet? serialController "ros__parameters").getD (.map [])
    let (cfg, cfgErrors) := topLevelMapping (dictGetD root "config" (.map [])) .configNotMapping
    let (messages, messagesErrors) := topLevelMessages (dictGetD root "messages" (.list []))
    let (typeMappings, mappingErrors) :=
      topLevelMapping (dictGetD root "type_mappings" (.map [])) .typeMappingsNotMapping
    let (serialParams, serialErrors) := topLevelMapping serialParams .serialParamsNotMapping
    let _ ← strOf (dictGetD cfg "checksum" (.str "CRC8"))
    let configErrors ← report (checkSerialParams cfg serialParams ++ checkConfig cfg)
    let (messages', messageErrors) ← checkMessages typeMappings .initial 0 messages
    let bufferErrors ← checkBufferSize cfg typeMappings messages'
    let errors := cfgErrors ++ messagesErrors ++ mappingErrors ++ serialErrors ++ configErrors ++
      messageErrors ++ bufferErrors
    if errors.isEmpty then
      return .map (assignedRoot root cfg messages')
    else throw (.systemExit errors)
  | _ => throw (.valueError "Protocol YAML root must be a mapping.")

end AutoSerialBridge
