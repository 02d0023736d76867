import AutoSerialBridge.Codegen.Python
import Mathlib

/-!
# Auto Serial Bridge — messages of a configuration

The part of `codegen.py` that both the validator and the generators use: the table of C type sizes,
the injected system messages, `get_c_type`, `merge_messages` and the payload sizes.
-/

namespace AutoSerialBridge

/-- `_C_TYPE_SIZES`. -/
def cTypeSizes : List (String × Nat) :=
  [("uint8_t", 1), ("uint16_t", 2), ("uint32_t", 4), ("int32_t", 4), ("float", 4)]

/-- A field of a system message. -/
def systemField (proto type : String) : Yaml :=
  .map [(.str "proto", .str proto), (.str "type", .str type)]

/-- A system message. -/
def systemMessage (name : String) (id : Int) (notes : String) (fields : List Yaml) : Yaml :=
  .map [(.str "name", .str name), (.str "id", .int id), (.str "direction", .str "both"),
    (.str "debug_log_mode", .str "off"), (.str "notes", .str notes), (.str "fields", .list fields)]

def ackMessage : Yaml :=
  systemMessage "Ack" 0xFD "框架内置：可靠消息的确认包，由协议层自动收发。"
    [systemField "acked_id" "uint8_t", systemField "ack_seq" "uint8_t"]

def heartbeatMessage : Yaml :=
  systemMessage "Heartbeat" 0xFE "框架内置：心跳包，对端原样回传 count。"
    [systemField "count" "uint32_t"]

def handshakeMessage : Yaml :=
  systemMessage "Handshake" 0xFF "框架内置：握手包，携带协议哈希。"
    [systemField "protocol_hash" "uint32_t"]

/-- `SYSTEM_MESSAGES`. -/
def systemMessages : List Yaml := [ackMessage, heartbeatMessage, handshakeMessage]

/-- `SYSTEM_MESSAGE_NAMES`. -/
def systemMessageNames : List String := ["Ack", "Heartbeat", "Handshake"]

/-- `RESERVED_IDS`. -/
def reservedIds : List (Int × String) := [(0xFD, "Ack"), (0xFE, "Heartbeat"), (0xFF, "Handshake")]

section

variable {ε : Type}

/-- `for x in v`. -/
def pyIter (v : Yaml) : Except (PyError ε) (List Yaml) :=
  match v with
  | .list items => .ok items
  | .map entries => .ok (entries.map fun e => .scalar e.1)
  | .scalar (.str s) => .ok (s.toList.map fun c => .str (String.singleton c))
  | _ => .error .typeError

/-- `get_c_type`. -/
def getCType (yamlType : Yaml) (typeMappings : List (Scalar × Yaml)) :
    Except (PyError ε) Yaml := do
  let key ← hashable yamlType
  return (dictLookup typeMappings key).getD yamlType

/-- `_C_TYPE_SIZES.get(c_type, 1)`. -/
def cTypeSize (cType : Yaml) : Except (PyError ε) Nat := do
  match ← hashable cType with
  | .str name => return (cTypeSizes.lookup name).getD 1
  | _ => return 1

/-- The size of one field in `message_payload_size`. -/
def fieldSize (typeMappings : List (Scalar × Yaml)) (field : Yaml) : Except (PyError ε) Nat := do
  cTypeSize (← getCType (← pyIndex field "type") typeMappings)

/-- `message_payload_size`. -/
def messagePayloadSize (message : Yaml) (typeMappings : List (Scalar × Yaml)) :
    Except (PyError ε) Nat := do
  let sizes ← (← pyIter (← pyIndex message "fields")).mapM (fieldSize typeMappings)
  return sizes.sum

/-- `message.get('reliable', False)` as a truth value. -/
def messageReliable (message : Yaml) : Except (PyError ε) Bool := do
  return ((← pyGet? message "reliable").getD (.bool false)).truthy

/-- `message_wire_payload_size`. -/
def messageWirePayloadSize (message : Yaml) (typeMappings : List (Scalar × Yaml)) :
    Except (PyError ε) Nat := do
  let baseSize ← messagePayloadSize message typeMappings
  if ← messageReliable message then return baseSize + 1
  return baseSize

/-- An id as a sort key. Anything but a finite number cannot be compared with the integer ids of
the system messages. -/
def idKey (id : Yaml) : Except (PyError ε) ℚ :=
  match id with
  | .scalar s =>
    match s.number? with
    | some q => .ok q
    | none => .error .typeError
  | _ => .error .typeError

/-- `m['id']` as a sort key. -/
def sortKey (m : Yaml) : Except (PyError ε) ℚ := do idKey (← pyIndex m "id")

/-- `sorted(messages, key=lambda m: m['id'])`: stable. -/
def sortedById (messages : List Yaml) : Except (PyError ε) (List Yaml) := do
  let keyed ← messages.mapM fun m => return (← sortKey m, m)
  return (keyed.insertionSort fun a b => a.1 ≤ b.1).map (·.2)

/-- `merge_messages`, given the value of `config_data.get('messages', [])`. -/
def mergeMessages (messages : Yaml) : Except (PyError ε) (List Yaml) := do
  let business ← if messages.truthy then pyIter messages else .ok []
  sortedById (business ++ systemMessages)

end

end AutoSerialBridge
