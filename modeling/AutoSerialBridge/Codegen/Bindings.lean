import AutoSerialBridge.Codegen.Complete
import AutoSerialBridge.Lib.Place

/-!
# Auto Serial Bridge — the generated bindings

`generate_ros_bindings`: what it writes for one message, and what the written C++ does with a value of
the ROS type. A subscription checks the sizes of the containers and reads the fields; `dispatch_packet`
makes the containers large enough and assigns the fields. The places are the texts of the expressions,
read as C++ reads them. The logging, the message id and the sending are left out.
-/

namespace AutoSerialBridge

open Lib

-- ---------------------------------------------------------------------------
-- The text
-- ---------------------------------------------------------------------------

/-- A member of the packet, its C type, and the expression of its place in the ROS message. -/
structure BoundField where
  proto : String
  cType : String
  expr : String

structure BindingText where
  rosMsg : Yaml
  requirements : List (String × Nat)
  fields : List BoundField

def boundField (typeMappings : PyDict) (access : Yaml × String) : Check BoundField := do
  let cType ← getCType (← pyIndex access.1 "type") typeMappings
  return { proto := ← shownIndex access.1 "proto", cType := ← strOf cType, expr := access.2 }

/-- The size checks, sorted by expression, and the assignments. -/
def bindingText (pointer : Bool) (typeMappings : PyDict) (msg : Yaml) : Check BindingText := do
  let (accesses, requirements) ← fieldAccesses pointer [] (← fieldsOf msg)
  return {
    rosMsg := ← pyIndex msg "ros_msg"
    requirements := requirements.mergeSort fun a b => a.1 ≤ b.1
    fields := ← accesses.mapM (boundField typeMappings) }

/-- A message of `register_all`, if it is subscribed to. -/
def subscriptionText (typeMappings : PyDict) (msg : Yaml) : Check (Option BindingText) := do
  match ← truthyKey? msg "sub_topic" with
  | some _ => if ← hasDirection msg "tx" then return some (← bindingText true typeMappings msg)
  | none => pure ()
  return none

/-- A message of `dispatch_packet`, if it is published. -/
def dispatchText (typeMappings : PyDict) (msg : Yaml) : Check (Option BindingText) := do
  match ← truthyKey? msg "pub_topic" with
  | some _ => if ← hasDirection msg "rx" then return some (← bindingText false typeMappings msg)
  | none => pure ()
  return none

/-- What `main` passes to `generate_ros_bindings`. -/
def bindingInputs (configData : Yaml) : Check (PyDict × List Yaml) := do
  let typeMappings := (← pyGet? configData "type_mappings").getD (.map [])
  let typeMappings ← typeMappingsOf (if typeMappings.truthy then typeMappings else .map [])
  let messages ← mergeMessages ((← pyGet? configData "messages").getD (.list []))
  return (typeMappings, messages)

-- ---------------------------------------------------------------------------
-- The expressions
-- ---------------------------------------------------------------------------

/-- An integer literal as an index: a leading zero makes it octal. -/
def cppLiteral? (digits : List Char) : Option Nat :=
  let value := fun base => digits.foldl (fun n c => base * n + (c.toNat - 0x30)) 0
  if !digits.all Char.isDigit then none
  else if digits.head? = some '0' then
    if digits.all (fun c => c ≤ '7') && value 8 < 2 ^ 64 then some (value 8) else none
  else if value 10 < 2 ^ 64 then some (value 10) else none

/-- A member, and an element of it. -/
def cppSegment? (segment : List Char) : Option (List (Access String)) :=
  match rosFieldSegment segment with
  | some (name, none) => some [.member (String.ofList name)]
  | some (name, some digits) =>
    (cppLiteral? digits).map fun i => [.member (String.ofList name), .index i]
  | none => none

def cppSegments? (segments : List (List Char)) : Option (List (Access String)) :=
  (segments.mapM cppSegment?).map List.flatten

/-- The operator behind `msg`, a pointer in a subscription. -/
def memberOperator (pointer : Bool) : String := if pointer then "->" else "."

/-- The place of an expression below `msg`. -/
def cppPlace? (pointer : Bool) (expr : String) : Option (List (Access String)) :=
  let root := ("msg" ++ memberOperator pointer).toList
  if root.isPrefixOf expr.toList then cppSegments? (splitChars '.' (expr.toList.drop root.length))
  else none

-- ---------------------------------------------------------------------------
-- Compilation
-- ---------------------------------------------------------------------------

/-- A compiled binding: sizes of containers, and the places of the fields. -/
structure BindingCode where
  sizes : List (List (Access String) × Nat)
  fields : List (BoundField × List (Access String))

/-- `size()` is there for containers. -/
def compileSize (pointer : Bool) (t : PlaceType String) (requirement : String × Nat) :
    Option (List (Access String) × Nat) := do
  let place ← cppPlace? pointer requirement.1
  let _ ← (← t.get place).capacity?
  let size ← sizeLiteral? (.int requirement.2)
  return (place, size.toNat)

/-- What a number can be cast from. -/
def PlaceType.isNumber : PlaceType String → Bool
  | .number => true
  | _ => false

/-- What a number can be assigned to: `std::string` takes a number as its only character. -/
def PlaceType.isAssignable : PlaceType String → Bool
  | .number => true
  | .text capacity => 0 < capacity
  | _ => false

def compilePlace (pointer : Bool) (t : PlaceType String) (usable : PlaceType String → Bool)
    (field : BoundField) : Option (BoundField × List (Access String)) := do
  let place ← cppPlace? pointer field.expr
  if usable (← t.get place) then return (field, place) else none

def compileBinding (pointer : Bool) (t : PlaceType String) (usable : PlaceType String → Bool)
    (text : BindingText) : Option BindingCode := do
  return {
    sizes := ← text.requirements.mapM (compileSize pointer t)
    fields := ← text.fields.mapM (compilePlace pointer t usable) }

-- ---------------------------------------------------------------------------
-- Execution
-- ---------------------------------------------------------------------------

/-- The numbers of C++, and the values that a type starts with. -/
structure CppValues (σ : Type) where
  zero : σ
  /-- `static_cast` to a C type. -/
  cast : String → σ → σ
  /-- Neither below 0 nor above 255. -/
  inByteRange : σ → Bool
  fresh : PlaceType String → Value String σ
  typed : ∀ t, HasType (fresh t) t

section

variable {σ : Type} (cpp : CppValues σ)

/-- The early returns on containers that are too small. -/
def checkSizes : List (List (Access String) × Nat) → Value String σ → Except Stop Unit
  | [], _ => .ok ()
  | (place, required) :: rest, msg => do
    match (← msg.get place).size? with
    | some size => if size < required then .error .left else checkSizes rest msg
    | none => .error .illFormed

def readNumber (msg : Value String σ) (place : List (Access String)) : Except Stop σ := do
  match ← msg.get place with
  | .number x => return x
  | _ => .error .illFormed

/-- `_needs_int32_multiarray_u8_range_guard`. -/
def needsRangeGuard (rosMsg : Yaml) (field : BoundField) : Bool :=
  rosMsg.pyEq (.str "std_msgs/msg/Int32MultiArray") && field.cType = "uint8_t"

/-- The member of the packet. The guard reads the place twice, and once more for the log. -/
def readField (rosMsg : Yaml) (msg : Value String σ) (field : BoundField × List (Access String)) :
    Except Stop σ := do
  if needsRangeGuard rosMsg field.1 then
    if !cpp.inByteRange (← readNumber msg field.2) then
      let _ ← readNumber msg field.2
      .error .left
  return cpp.cast field.1.cType (← readNumber msg field.2)

/-- The callback of a subscription: the members of the packet. -/
def subscriptionCallback (t : PlaceType String) (text : BindingText) (msg : Value String σ) :
    Except Stop (List σ) :=
  match compileBinding true t PlaceType.isNumber text with
  | some code => do
    checkSizes code.sizes msg
    code.fields.mapM (readField cpp text.rosMsg msg)
  | none => .error .illFormed

/-- `container.resize(required)` if the container is smaller. -/
def grow {α : Type} (x : α) (capacity required : Nat) (xs : List α) : Except Stop (List α) :=
  if xs.length < required then
    if required ≤ capacity then .ok (xs ++ List.replicate (required - xs.length) x)
    else .error .thrown
  else .ok xs

/-- `if (!detail::ensure_size(container, required)) break;`. -/
def ensureSize (t : PlaceType String) (required : Nat) (container : Value String σ) :
    Except Stop (Value String σ) :=
  match t, container with
  | .text capacity, .text chars => return .text (← grow cpp.zero capacity required chars)
  | .sequence element capacity, .items xs =>
    return .items (← grow (cpp.fresh element) capacity required xs)
  | .array _ _, .items xs => if required ≤ xs.length then .ok (.items xs) else .error .left
  | _, _ => .error .illFormed

def ensureSizes (t : PlaceType String) :
    List (List (Access String) × Nat) → Value String σ → Except Stop (Value String σ)
  | [], msg => .ok msg
  | (place, required) :: rest, msg => do
    match t.get place with
    | some container => ensureSizes t rest (← msg.update (ensureSize cpp container required) place)
    | none => .error .illFormed

/-- `place = x;`. -/
def store (x : σ) : Value String σ → Except Stop (Value String σ)
  | .number _ => .ok (.number x)
  | .text _ => .ok (.text [x])
  | _ => .error .illFormed

/-- The assignments from the packet. -/
def assignFields (pkt : String → σ) :
    List (BoundField × List (Access String)) → Value String σ → Except Stop (Value String σ)
  | [], msg => .ok msg
  | field :: rest, msg => do assignFields pkt rest (← msg.update (store (pkt field.1.proto)) field.2)

/-- A case of `dispatch_packet`: the message that is published, from the `msg` as constructed. -/
def dispatchPacket (t : PlaceType String) (text : BindingText) (pkt : String → σ)
    (msg : Value String σ) : Except Stop (Value String σ) :=
  match compileBinding false t PlaceType.isAssignable text with
  | some code => do
    let msg ← ensureSizes cpp t code.sizes msg
    assignFields pkt code.fields msg
  | none => .error .illFormed

end

end AutoSerialBridge
