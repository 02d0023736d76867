import AutoSerialBridge.Codegen.Complete
import AutoSerialBridge.Web.Editor

/-!
# Auto Serial Bridge — what the editor exports and the generator accepts

The editor's checks and `validate_protocol` walk over the messages with the same memory. On a protocol
without editor errors the blocks of the validator are silent, with two exceptions: the editor counts
four bytes for the largest system message, whatever `uint8_t` stands for, and it puts no limit on the
digits of an array index.

## Results

* `checkMessage_exported` — one message: no error of the editor, no error of the validator.
* `normalizeProtocol_toJs` — a valid protocol in normal form is normalized to itself.
* `export_accepted_iff` — **a valid protocol is exported to an accepted document if and only if the
  buffer holds an Ack frame and every array index has at most 4300 digits**.
* `not_export_accepted` — a valid protocol that the generator refuses: `uint8_t` mapped to `uint32_t`,
  and a buffer of 9 bytes.
-/

namespace AutoSerialBridge.Web

open Lib

-- ---------------------------------------------------------------------------
-- Lookups in what is exported
-- ---------------------------------------------------------------------------

theorem errorIf_eq_nil {failed : Bool} {e : String} : errorIf failed e = [] ↔ failed = false := by
  cases failed <;> simp [errorIf]

theorem dictLookup_nil (key : Scalar) : dictLookup [] key = none := rfl

theorem dictLookup_append (xs ys : PyDict) (key : Scalar) :
    dictLookup (xs ++ ys) key = (dictLookup xs key).or (dictLookup ys key) := by
  unfold dictLookup
  rw [List.find?_append, Option.map_or]

theorem dictLookup_entryIf (exported : Bool) (key other : String) (value : Yaml) :
    dictLookup (entryIf exported key value) (.str other) =
      if exported = true ∧ key = other then some value else none := by
  cases exported <;> simp [entryIf, dictLookup_cons, dictLookup_nil]

theorem dictLookup_exportMappings (tm : List (String × String)) (type : String) :
    dictLookup (exportMappings tm) (.str type) = (tm.lookup type).map Yaml.str := by
  induction tm with
  | nil => rfl
  | cons e rest ih =>
    obtain ⟨k, v⟩ := e
    unfold exportMappings at ih ⊢
    rw [List.map_cons, dictLookup_cons, List.lookup_cons, ih]
    by_cases hk : type = k
    · simp [hk]
    · simp [Ne.symm hk, beq_false_of_ne hk]

theorem getCType_exported (tm : List (String × String)) (type : String) :
    (getCType (.str type) (exportMappings tm) : Check Yaml) = .ok (.str (resolveCType type tm)) := by
  refine getCType_eq_ok.mpr ⟨.str type, rfl, ?_⟩
  rw [dictLookup_exportMappings, resolveCType]
  cases tm.lookup type <;> rfl

/-- A dictionary with the entries that the validator reads of an exported message. -/
structure Exported (m : EditorMessage) (d : PyDict) : Prop where
  name : dictLookup d (.str "name") = some (.str m.name)
  id : dictLookup d (.str "id") = some (.int m.id)
  direction : dictLookup d (.str "direction") = some (.str m.direction)
  reliable : dictLookup d (.str "reliable") = if m.reliable then some (.bool true) else none
  sub_topic : dictLookup d (.str "sub_topic") =
    if m.direction = "tx" ∨ m.direction = "both" then some (.str m.subTopic) else none
  pub_topic : dictLookup d (.str "pub_topic") =
    if m.direction = "rx" ∨ m.direction = "both" then some (.str m.pubTopic) else none
  ros_msg : dictLookup d (.str "ros_msg") = some (.str m.rosMsg)
  fields : dictLookup d (.str "fields") = some (.list (m.fields.map exportField))

theorem exported_exportEntries (m : EditorMessage) : Exported m (exportEntries m) := by
  constructor <;> unfold exportEntries <;>
    simp [dictLookup_append, dictLookup_entryIf, dictLookup_cons, dictLookup_nil]

theorem Exported.dictSet {m : EditorMessage} {d : PyDict} (h : Exported m d) (value : Yaml) :
    Exported m (AutoSerialBridge.dictSet d "debug_log_mode" value) := by
  constructor <;> rw [dictLookup_dictSet_ne _ _ (by decide)]
  exacts [h.name, h.id, h.direction, h.reliable, h.sub_topic, h.pub_topic, h.ros_msg, h.fields]

-- ---------------------------------------------------------------------------
-- Fields
-- ---------------------------------------------------------------------------

/-- `int()` reads the indices of a path. -/
def IndexesShort (path : String) : Prop :=
  ∀ segment ∈ splitChars '.' path.toList, ∀ name digits,
    rosFieldSegment segment = some (name, some digits) → digits.length ≤ 4300

section Fields

variable {label : String} {tm : List (String × String)} {field : EditorField}
  {seen : List String} {index : Nat}

/-- A decimal digit of ASCII is one of Unicode. -/
theorem decimalDigit?_isSome {c : Char} (h : c.isDigit = true) : (decimalDigit? c).isSome = true := by
  unfold decimalDigit?
  rw [Option.isSome_map, List.find?_isSome]
  refine ⟨0x30, by decide, ?_⟩
  simp only [Char.isDigit, Bool.and_eq_true, decide_eq_true_eq, ge_iff_le,
    UInt32.le_iff_toNat_le] at h ⊢
  have h₀ : 48 ≤ c.toNat := h.1
  have h₉ : c.toNat ≤ 57 := h.2
  omega

/-- The generator reads every segment that the editor takes. -/
theorem rosFieldSegment_of_isRosPathSegment {segment : List Char} (h : isRosPathSegment segment = true) :
    ∃ r, rosFieldSegment segment = some r := by
  unfold isRosPathSegment at h
  rw [Bool.and_eq_true] at h
  obtain ⟨hname, hrest⟩ := h
  unfold rosFieldSegment
  simp only [hname, if_true]
  generalize segment.dropWhile isWordChar = tail at hrest ⊢
  split at hrest
  · exact ⟨_, rfl⟩
  · next rest =>
    simp only [Bool.and_eq_true, beq_iff_eq] at hrest
    obtain ⟨⟨hlast, hne⟩, hdigits⟩ := hrest
    have hall : rest.dropLast.all (fun c => (decimalDigit? c).isSome) = true := by
      rw [List.all_eq_true] at hdigits ⊢
      exact fun c hc => decimalDigit?_isSome (hdigits c hc)
    refine ⟨(segment.takeWhile isWordChar, some rest.dropLast), ?_⟩
    simp only [hlast, hne, hall, Bool.and_self, if_true]
  · cases hrest

theorem returns_pyInt {digits : List Char} : Returns (pyInt digits) ↔ digits.length ≤ 4300 := by
  unfold pyInt
  split_ifs with h
  · exact iff_of_false nofun (by omega)
  · exact iff_of_true (returns_ok _) (by omega)

/-- A path that the editor takes is taken apart if its indices are short. -/
theorem returns_analyzeRosPath {path : String} (h : validateRosPath path = true) :
    Returns (analyzeRosPath path "msg" true) ↔ IndexesShort path := by
  unfold validateRosPath at h
  rw [List.all_eq_true] at h
  unfold analyzeRosPath IndexesShort
  rw [returns_analyzeSegments]
  refine forall₂_congr fun segment hsegment => ?_
  obtain ⟨⟨name, index⟩, hread⟩ := rosFieldSegment_of_isRosPathSegment (h segment hsegment)
  unfold SegmentParsed
  simp only [hread, Option.some.injEq, Prod.mk.injEq, returns_pyInt]
  constructor
  · rintro ⟨_, _, ⟨rfl, rfl⟩, hshort⟩ _ digits ⟨-, hdigits⟩
    exact hshort digits hdigits
  · exact fun hshort => ⟨name, index, ⟨rfl, rfl⟩, fun digits hdigits =>
      hshort name digits ⟨rfl, hdigits⟩⟩

/-- A field without editor errors. -/
structure FieldClean (tm : List (String × String)) (seen : List String) (field : EditorField) : Prop where
  proto : isIdentifier field.proto.toList = true
  unreserved : isReservedCCppIdentifier field.proto = false
  new : field.proto ∉ seen
  type : (cTypeSizes.lookup (resolveCType field.type tm)).isSome = true
  path_ne : field.ros ≠ ""
  path : validateRosPath field.ros = true

theorem fieldErrors_clean (h : (fieldErrors label tm seen index field).2 = []) :
    FieldClean tm seen field ∧ (fieldErrors label tm seen index field).1 = seen ++ [field.proto] := by
  unfold fieldErrors at h ⊢
  simp only [List.append_eq_nil_iff] at h ⊢
  obtain ⟨⟨hproto, htype⟩, hpath⟩ := h
  rw [errorIf_eq_nil, Option.isNone_eq_false_iff] at htype
  have hros : field.ros ≠ "" ∧ validateRosPath field.ros = true := by
    split_ifs at hpath with hempty
    rw [errorIf_eq_nil, Bool.not_eq_false'] at hpath
    refine ⟨?_, hpath⟩
    intro hros
    exact hempty (by rw [hros]; decide)
  split_ifs at hproto ⊢ with h₁ h₂ h₃
  simp only [Bool.not_eq_true', Bool.not_eq_false, Bool.not_eq_true, List.contains_eq_mem,
    decide_eq_true_eq] at h₁ h₂ h₃
  exact ⟨⟨h₁, h₂, h₃, htype, hros.1, hros.2⟩, rfl⟩

theorem report_nil : report [] = .ok [] := rfl

/-- **A field without editor errors gives the validator none**, but for its indices. -/
theorem FieldClean.checkField (h : FieldClean tm seen field) (hshort : IndexesShort field.ros)
    (plabel : Yaml) :
    AutoSerialBridge.checkField plabel (exportMappings tm) seen (exportField field) =
      .ok (seen ++ [field.proto], []) := by
  generalize hd : ([(.str "proto", .str field.proto), (.str "type", .str field.type),
    (.str "ros", .str field.ros)] : PyDict) = d
  have hproto : dictGet d "proto" = .str field.proto := hd ▸ rfl
  have htype : dictGetD d "type" (.str "") = .str field.type := hd ▸ rfl
  have hros : dictGet d "ros" = .str field.ros := hd ▸ rfl
  have hname : checkFieldName plabel d seen = (seen ++ [field.proto], []) := by
    unfold checkFieldName
    rw [hproto]
    simp [h.proto, h.unreserved, h.new]
  have hsupported : isSupported (.str (resolveCType field.type tm)) = .ok true :=
    isSupported_eq_ok.mpr ⟨_, rfl, h.type⟩
  have htypeErrors : checkFieldType plabel d (exportMappings tm) = .ok [] := by
    unfold checkFieldType
    rw [htype]
    exact bind_eq_ok.mpr ⟨_, getCType_exported tm field.type,
      bind_eq_ok.mpr ⟨_, hsupported, report_nil⟩⟩
  have hpath : checkFieldPath plabel d = [] := by
    obtain ⟨r, hr⟩ := (returns_analyzeRosPath h.path).mpr hshort
    unfold checkFieldPath
    rw [hros]
    simp only [h.path_ne, if_false, hr]
  unfold AutoSerialBridge.checkField exportField
  rw [hd]
  simp only
  rw [hname, hpath]
  exact bind_eq_ok.mpr ⟨_, report_nil, bind_eq_ok.mpr ⟨_, htypeErrors,
    bind_eq_ok.mpr ⟨_, report_nil, rfl⟩⟩⟩

theorem fieldListErrors_paths {fields : List EditorField}
    (h : fieldListErrors label tm seen index fields = []) :
    ∀ field ∈ fields, validateRosPath field.ros = true := by
  induction fields generalizing seen index with
  | nil => exact nofun
  | cons field rest ih =>
    unfold fieldListErrors at h
    simp only [List.append_eq_nil_iff] at h
    rw [List.forall_mem_cons]
    exact ⟨(fieldErrors_clean h.1).1.path, ih h.2⟩

theorem fieldListErrors_clean {fields : List EditorField}
    (h : fieldListErrors label tm seen index fields = [])
    (hshort : ∀ field ∈ fields, IndexesShort field.ros) (plabel : Yaml) :
    checkFieldList plabel (exportMappings tm) seen (fields.map exportField) = .ok [] := by
  induction fields generalizing seen index with
  | nil => rfl
  | cons field rest ih =>
    unfold fieldListErrors at h
    simp only [List.append_eq_nil_iff] at h
    obtain ⟨hclean, hseen⟩ := fieldErrors_clean h.1
    rw [hseen] at h
    rw [List.forall_mem_cons] at hshort
    have hrest := ih h.2 hshort.2
    rw [List.map_cons]
    exact bind_eq_ok.mpr ⟨_, hclean.checkField hshort.1 plabel, bind_eq_ok.mpr ⟨_, hrest, rfl⟩⟩

/-- The sizes agree. -/
theorem fieldSize_exported :
    (AutoSerialBridge.fieldSize (exportMappings tm) (exportField field) : Check Nat) =
      .ok (fieldSize field tm) := by
  unfold AutoSerialBridge.fieldSize
  refine bind_eq_ok.mpr ⟨.str field.type, rfl, bind_eq_ok.mpr ⟨_, getCType_exported tm _, ?_⟩⟩
  exact bind_eq_ok.mpr ⟨_, rfl, rfl⟩

theorem Exported.messageWirePayloadSize {m : EditorMessage} {d : PyDict} (h : Exported m d)
    (tm : List (String × String)) :
    (AutoSerialBridge.messageWirePayloadSize (.map d) (exportMappings tm) : Check Nat) =
      .ok (wirePayloadSize m tm) := by
  have hsizes : (m.fields.map exportField).mapM
      (AutoSerialBridge.fieldSize (exportMappings tm)) =
        (.ok (m.fields.map fun field => fieldSize field tm) : Check (List Nat)) := by
    rw [mapM_eq_ok, List.forall₂_map_left_iff, List.forall₂_map_right_iff]
    exact List.forall₂_same.mpr fun field _ => fieldSize_exported
  have hreliable : (messageReliable (.map d) : Check Bool) = .ok m.reliable := by
    unfold messageReliable
    refine bind_eq_ok.mpr ⟨_, rfl, ?_⟩
    rw [h.reliable]
    cases m.reliable <;> rfl
  unfold AutoSerialBridge.messageWirePayloadSize
  refine bind_eq_ok.mpr ⟨(m.fields.map fun field => fieldSize field tm).sum,
    bind_eq_ok.mpr ⟨_, pyIndex_eq_ok.mpr ⟨d, rfl, h.fields⟩, bind_eq_ok.mpr ⟨_, rfl,
      bind_eq_ok.mpr ⟨_, hsizes, rfl⟩⟩⟩, bind_eq_ok.mpr ⟨_, hreliable, ?_⟩⟩
  unfold wirePayloadSize
  cases m.reliable <;> rfl

end Fields

-- ---------------------------------------------------------------------------
-- One message
-- ---------------------------------------------------------------------------

/-- A message without editor errors, block by block. -/
structure EditorClean (tm : List (String × String)) (seen seen' : EditorSeen) (label : String)
    (m : EditorMessage) : Prop where
  name : nameErrors label m seen.names seen.generatedSymbols =
    (seen'.names, seen'.generatedSymbols, [])
  id : idErrors label m seen.ids = (seen'.ids, [])
  rest : messageErrors label m = []
  subTopic : (if m.direction = "tx" ∨ m.direction = "both" then
    topicErrors label "sub_topic" m.subTopic seen.subTopics else (seen.subTopics, [])) =
      (seen'.subTopics, [])
  pubTopic : (if m.direction = "rx" ∨ m.direction = "both" then
    topicErrors label "pub_topic" m.pubTopic seen.pubTopics else (seen.pubTopics, [])) =
      (seen'.pubTopics, [])
  loop : loopErrors label m = []
  fields_ne : m.fields ≠ []
  fields : fieldListErrors label tm [] 0 m.fields = []
  wireSize : wirePayloadSize m tm ≤ 255

section Message

variable {tm : List (String × String)} {seen seen' : EditorSeen} {pseen : Seen} {label : String}
  {m : EditorMessage} {d : PyDict} {largest index : Nat}

theorem nameErrors_ne {names : List String} {symbols : List (String × String)}
    (h : (nameErrors label m names symbols).2.2 = []) : m.name ≠ "" := by
  unfold nameErrors at h
  intro hname
  rw [hname] at h
  simp [isIdentifier] at h

theorem checkEditorMessage_clean
    (h : (checkEditorMessage tm seen largest index m).2.2 = []) :
    EditorClean tm seen (checkEditorMessage tm seen largest index m).1 m.name m ∧
      (checkEditorMessage tm seen largest index m).2.1 = max largest (wirePayloadSize m tm) := by
  unfold checkEditorMessage at h ⊢
  simp only at h ⊢
  generalize hlabel : (if m.name ≠ "" then m.name else "messages[" ++ toString index ++ "]") = label
    at h ⊢
  by_cases hfields : m.fields.isEmpty = true
  · rw [if_pos hfields] at h
    simp at h
  · rw [if_neg hfields] at h ⊢
    simp only [List.append_eq_nil_iff] at h ⊢
    obtain ⟨⟨⟨⟨⟨⟨⟨hname, hid⟩, hrest⟩, hsub⟩, hpub⟩, hloop⟩, hlist⟩, hwire⟩ := h
    have hlabel : label = m.name := by
      rw [← hlabel, if_pos (nameErrors_ne hname)]
    subst hlabel
    refine ⟨⟨Prod.ext rfl (Prod.ext rfl hname), Prod.ext rfl hid, hrest, Prod.ext rfl hsub,
      Prod.ext rfl hpub, hloop, by simpa using hfields, hlist, ?_⟩, trivial⟩
    rw [errorIf_eq_nil] at hwire
    simpa using hwire

/-- A memory of the editor as one of the validator. -/
def shownSeen {α : Type} (seen : List (α × String)) : List (α × Yaml) :=
  seen.map fun e => (e.1, .str e.2)

theorem lookup_shownSeen {α : Type} [BEq α] (seen : List (α × String)) (key : α) :
    (shownSeen seen).lookup key = (seen.lookup key).map Yaml.str := by
  induction seen with
  | nil => rfl
  | cons e rest ih =>
    unfold shownSeen at ih ⊢
    rw [List.map_cons, List.lookup_cons, List.lookup_cons, ih]
    cases key == e.1 <;> rfl

theorem shownSeen_append {α : Type} (seen : List (α × String)) (key : α) (label : String) :
    shownSeen (seen ++ [(key, label)]) = shownSeen seen ++ [(key, .str label)] :=
  List.map_append

/-- Both loops remember the same. -/
structure SeenMatches (seen : EditorSeen) (pseen : Seen) : Prop where
  ids : pseen.ids = shownSeen seen.ids
  names : pseen.names = seen.names
  generatedSymbols : pseen.generatedSymbols = seen.generatedSymbols
  subTopics : pseen.subTopics = shownSeen seen.subTopics
  pubTopics : pseen.pubTopics = shownSeen seen.pubTopics

theorem Exported.checkName (hd : Exported m d) {names names' : List String}
    {symbols symbols' : List (String × String)}
    (h : nameErrors label m names symbols = (names', symbols', [])) :
    AutoSerialBridge.checkName d names symbols = (names', symbols', []) := by
  unfold nameErrors toUpperCase at h
  unfold AutoSerialBridge.checkName
  rw [dictGet_eq hd.name]
  simp only
  have hnames : systemMessageNames = reservedNames := rfl
  rw [hnames]
  split_ifs at h with h₁ h₂ h₃
  · simp at h
  · simp at h
  · simp at h
  · rw [if_neg h₁, if_neg h₂, if_neg h₃]
    cases hsymbol : symbols.lookup (pyUpper m.name) with
    | some other => simp [hsymbol] at h
    | none => simpa [hsymbol] using h

theorem Exported.checkId (hd : Exported m d) {ids ids' : List (Int × String)}
    (h : idErrors label m ids = (ids', [])) :
    AutoSerialBridge.checkId (.str label) d (shownSeen ids) = (shownSeen ids', []) := by
  unfold idErrors at h
  unfold AutoSerialBridge.checkId
  rw [dictGet_eq hd.id]
  simp only
  have hbyte : isByte (.int m.id) = isByteValue m.id := rfl
  rw [hbyte]
  cases hb : isByteValue m.id with
  | false => simp [hb] at h
  | true =>
    simp only [hb, Bool.not_true, Bool.false_eq_true, if_false] at h
    simp only [Yaml.asInt?, Option.getD_some, if_true]
    cases hreserved : reservedIds.lookup m.id with
    | some name => simp [hreserved] at h
    | none =>
      rw [lookup_shownSeen]
      cases hseen : ids.lookup m.id with
      | some other => simp [hreserved, hseen] at h
      | none =>
        simp only [hreserved, hseen, Prod.mk.injEq, and_true] at h
        rw [← h, shownSeen_append]
        rfl

theorem topic_exported {key topic : String} {need : Prop} [Decidable need]
    {seen seen' : List (String × String)}
    (hl : dictLookup d (.str key) = if need then some (.str topic) else none)
    (h : (if need then topicErrors label key topic seen else (seen, [])) = (seen', [])) :
    checkTopicUse (.str label) d key (shownSeen seen) = (shownSeen seen', []) ∧
      ∀ plabel, checkTopicForm plabel d key = [] := by
  unfold checkTopicUse checkTopicForm
  split_ifs at hl h with hneed
  · rw [dictGet_eq hl, hl]
    unfold topicErrors at h
    simp only [Yaml.asStr?, lookup_shownSeen, errorUnless_eq_nil]
    cases htopic : isTopic topic with
    | false => simp [htopic] at h
    | true =>
      simp only [htopic, Bool.not_true, Bool.false_eq_true, if_false] at h
      cases hseen : seen.lookup topic with
      | some other => simp [hseen] at h
      | none =>
        simp only [hseen, Prod.mk.injEq, and_true] at h
        rw [← h, shownSeen_append]
        exact ⟨rfl, fun _ => rfl⟩
  · rw [dictGet, dictGetD, hl]
    obtain ⟨rfl, -⟩ := Prod.mk.inj h
    exact ⟨rfl, fun _ => rfl⟩

theorem directionIs_str (direction other : String) :
    directionIs (.str direction) other = (direction == other || direction == "both") := rfl

theorem Exported.checkTopics (hd : Exported m d) (hloop : loopErrors label m = []) {plabel : Yaml}
    (hsub : checkTopicForm plabel d "sub_topic" = []) (hpub : checkTopicForm plabel d "pub_topic" = []) :
    AutoSerialBridge.checkTopics plabel d = [] := by
  unfold loopErrors at hloop
  rw [errorIf_eq_nil] at hloop
  unfold AutoSerialBridge.checkTopics
  simp only [hsub, hpub, List.append_nil, List.append_eq_nil_iff, errorUnless_eq_nil, dictHas,
    hd.sub_topic, hd.pub_topic, dictGet, dictGetD, hd.direction, Option.getD_some, directionIs_str]
  refine ⟨⟨?_, ?_⟩, ?_⟩
  · by_cases hneed : m.direction = "tx" ∨ m.direction = "both"
    · rw [if_pos hneed, Option.isSome_some, Bool.not_true, Bool.and_false]
      rfl
    · rw [not_or] at hneed
      simp [hneed.1, hneed.2]
  · by_cases hneed : m.direction = "rx" ∨ m.direction = "both"
    · rw [if_pos hneed, Option.isSome_some, Bool.not_true, Bool.and_false]
      rfl
    · rw [not_or] at hneed
      simp [hneed.1, hneed.2]
  · by_cases hboth : m.direction = "both"
    · simp only [hboth, or_true, if_true, Option.getD_some] at hloop ⊢
      simp only [beq_self_eq_true, Bool.true_and, Bool.and_eq_false_iff, bne_eq_false_iff_eq,
        beq_eq_false_iff_ne] at hloop
      rcases hloop with hempty | hne
      · simp [hempty, Yaml.truthy]
      · simp [Yaml.pyEq, hne]
    · simp [Yaml.pyEq, hboth]

theorem Exported.rest (hd : Exported m d) (h : messageErrors label m = []) (plabel : Yaml) :
    checkDirection plabel d = .ok [] ∧ checkReliable plabel d = [] ∧ checkRosMsg plabel d = [] ∧
      (m.debugLogMode = "on" ∨ m.debugLogMode = "off") := by
  unfold messageErrors at h
  simp only [List.append_eq_nil_iff, errorIf_eq_nil] at h
  obtain ⟨⟨⟨hdirection, hmode⟩, hreliable⟩, hros⟩ := h
  refine ⟨?_, ?_, ?_, ?_⟩
  · unfold checkDirection
    rw [dictGet_eq hd.direction]
    refine bind_eq_ok.mpr ⟨.str m.direction, rfl, report_eq_nil.mpr ?_⟩
    rw [errorUnless_eq_nil, List.any_eq_true]
    refine ⟨m.direction, ?_, by simp⟩
    have hmem : m.direction ∈ directionOptions := by simpa using hdirection
    exact hmem
  · unfold checkReliable
    rw [List.append_eq_nil_iff, errorUnless_eq_nil, errorUnless_eq_nil, dictHas, dictGet, dictGet,
      dictGetD, dictGetD, dictGetD, hd.reliable, hd.direction]
    cases hr : m.reliable with
    | false => exact ⟨rfl, rfl⟩
    | true =>
      rw [hr] at hreliable
      have htx : m.direction = "tx" := by simpa using hreliable
      rw [htx]
      exact ⟨rfl, rfl⟩
  · unfold checkRosMsg
    rw [dictGet_eq hd.ros_msg, errorUnless_eq_nil]
    have hvalid : isRosMsg m.rosMsg = true := by simpa using hros
    exact hvalid
  · have hmem : m.debugLogMode ∈ debugLogModeOptions := by simpa using hmode
    simpa only [debugLogModeOptions, List.mem_cons, List.not_mem_nil, or_false] using hmem

theorem Exported.checkFields (hd : Exported m d) (hclean : EditorClean tm seen seen' label m)
    (hshort : ∀ field ∈ m.fields, IndexesShort field.ros) (plabel : Yaml) :
    AutoSerialBridge.checkFields plabel d (exportMappings tm) = .ok [] := by
  have hlist := fieldListErrors_clean hclean.fields hshort plabel
  have hempty : (m.fields.map exportField).isEmpty = false := by
    simpa using hclean.fields_ne
  unfold AutoSerialBridge.checkFields
  rw [dictGetD, hd.fields, Option.getD_some]
  simp only [hempty, Bool.and_false, Bool.not_false, errorUnless, if_true, Bool.false_eq_true, if_false]
  refine bind_eq_ok.mpr ⟨_, report_nil, bind_eq_ok.mpr ⟨_, hlist, ?_⟩⟩
  refine bind_eq_ok.mpr ⟨_, hd.messageWirePayloadSize tm, bind_eq_ok.mpr ⟨[], ?_, rfl⟩⟩
  rw [report_eq_nil, if_pos]
  exact decide_eq_true hclean.wireSize

/-- **A message without editor errors gives the validator none**, but for its indices. -/
theorem checkMessage_exported (h : (checkEditorMessage tm seen largest index m).2.2 = [])
    (hmatch : SeenMatches seen pseen) (hshort : ∀ field ∈ m.fields, IndexesShort field.ros) :
    ∃ pseen' d, checkMessage (exportMappings tm) pseen index (exportMessage m) =
        .ok (pseen', .map d, []) ∧ Exported m d ∧
      SeenMatches (checkEditorMessage tm seen largest index m).1 pseen' := by
  obtain ⟨hclean, -⟩ := checkEditorMessage_clean h
  generalize (checkEditorMessage tm seen largest index m).1 = seen' at hclean ⊢
  have hentries := exported_exportEntries m
  obtain ⟨hdirection, -, -, hmode⟩ := hentries.rest hclean.rest (.str m.name)
  have hd := hentries.dictSet (.str m.debugLogMode)
  generalize hdict : AutoSerialBridge.dictSet (exportEntries m) "debug_log_mode" (.str m.debugLogMode) =
    d at hd
  obtain ⟨-, hreliable, hros, -⟩ := hd.rest hclean.rest (.str m.name)
  obtain ⟨hsub, hsubForm⟩ := topic_exported hd.sub_topic hclean.subTopic
  obtain ⟨hpub, hpubForm⟩ := topic_exported hd.pub_topic hclean.pubTopic
  have htopics := hd.checkTopics hclean.loop (hsubForm (.str m.name)) (hpubForm (.str m.name))
  have hlabel : dictGetD (exportEntries m) "name" (.str ("messages[" ++ toString index ++ "]")) =
      .str m.name := by
    rw [dictGetD, hentries.name, Option.getD_some]
  have hrequired : checkRequired (.str m.name) (exportEntries m) = [] := by
    unfold checkRequired
    simp only [List.flatMap_eq_nil_iff, errorUnless_eq_nil, List.forall_mem_cons, dictHas, hentries.name,
      hentries.id, hentries.direction, hentries.ros_msg, hentries.fields, Option.isSome_some]
    exact ⟨trivial, trivial, trivial, trivial, trivial, List.forall_mem_nil _⟩
  have hdebug : checkDebugLogMode (.str m.name) (exportEntries m) = .ok (d, []) := by
    have hget : dictGetD (exportEntries m) "debug_log_mode" (.str "on") = .str m.debugLogMode := by
      unfold exportEntries dictGetD
      rcases hmode with hon | hoff <;>
        simp [dictLookup_append, dictLookup_entryIf, dictLookup_cons, dictLookup_nil, *]
    unfold checkDebugLogMode
    rw [hget, ← hdict]
    rcases hmode with hon | hoff
    · rw [hon]
      rfl
    · rw [hoff]
      rfl
  have hfields := hd.checkFields hclean hshort (.str m.name)
  refine ⟨⟨shownSeen seen'.ids, seen'.names, seen'.generatedSymbols, shownSeen seen'.subTopics,
    shownSeen seen'.pubTopics⟩, d, ?_, hd, ⟨rfl, rfl, rfl, rfl, rfl⟩⟩
  unfold AutoSerialBridge.checkMessage exportMessage
  simp only
  rw [hlabel, hrequired]
  refine bind_eq_ok.mpr ⟨_, report_nil, bind_eq_ok.mpr ⟨_, hdirection, bind_eq_ok.mpr ⟨_, hdebug, ?_⟩⟩⟩
  simp only [hmatch.ids, hmatch.names, hmatch.generatedSymbols, hmatch.subTopics, hmatch.pubTopics,
    hd.checkId hclean.id, hd.checkName hclean.name, hsub, hpub, hreliable, hros, htopics,
    List.append_nil]
  exact bind_eq_ok.mpr ⟨_, report_nil, bind_eq_ok.mpr ⟨_, hfields, rfl⟩⟩

end Message

-- ---------------------------------------------------------------------------
-- All messages
-- ---------------------------------------------------------------------------

section Messages

variable {tm : List (String × String)} {seen : EditorSeen} {pseen : Seen} {ms : List EditorMessage}
  {largest index : Nat}

/-- The loop of the editor takes the largest payload. -/
theorem checkEditorMessages_largest
    (h : (checkEditorMessages tm seen largest index ms).2 = []) :
    largest ≤ (checkEditorMessages tm seen largest index ms).1 ∧
      ∀ m ∈ ms, wirePayloadSize m tm ≤ (checkEditorMessages tm seen largest index ms).1 := by
  induction ms generalizing seen largest index with
  | nil => exact ⟨le_rfl, nofun⟩
  | cons m rest ih =>
    unfold checkEditorMessages at h ⊢
    simp only [List.append_eq_nil_iff] at h ⊢
    obtain ⟨-, hlargest⟩ := checkEditorMessage_clean h.1
    obtain ⟨hle, hrest⟩ := ih h.2
    rw [hlargest] at hle hrest ⊢
    rw [List.forall_mem_cons]
    exact ⟨(le_max_left _ _).trans hle, (le_max_right _ _).trans hle, hrest⟩

/-- Every message went through the blocks. -/
theorem checkEditorMessages_clean
    (h : (checkEditorMessages tm seen largest index ms).2 = []) :
    ∀ m ∈ ms, ∃ seen seen', EditorClean tm seen seen' m.name m := by
  induction ms generalizing seen largest index with
  | nil => exact nofun
  | cons m rest ih =>
    unfold checkEditorMessages at h
    simp only [List.append_eq_nil_iff] at h
    rw [List.forall_mem_cons]
    exact ⟨⟨_, _, (checkEditorMessage_clean h.1).1⟩, ih h.2⟩

/-- **The loop**: no error of the editor, no error of the validator. -/
theorem checkMessages_exported (h : (checkEditorMessages tm seen largest index ms).2 = [])
    (hmatch : SeenMatches seen pseen)
    (hshort : ∀ m ∈ ms, ∀ field ∈ m.fields, IndexesShort field.ros) :
    ∃ ds, checkMessages (exportMappings tm) pseen index (ms.map exportMessage) = .ok (ds, []) ∧
      List.Forall₂ (fun m m' => ∃ d, m' = .map d ∧ Exported m d) ms ds := by
  induction ms generalizing seen pseen largest index with
  | nil => exact ⟨[], rfl, .nil⟩
  | cons m rest ih =>
    unfold checkEditorMessages at h
    simp only [List.append_eq_nil_iff] at h
    rw [List.forall_mem_cons] at hshort
    obtain ⟨pseen', d, hm, hd, hmatch'⟩ := checkMessage_exported h.1 hmatch hshort.1
    obtain ⟨ds, hrest, hds⟩ := ih h.2 hmatch' hshort.2
    refine ⟨.map d :: ds, ?_, .cons ⟨d, rfl, hd⟩ hds⟩
    rw [List.map_cons]
    exact bind_eq_ok.mpr ⟨_, hm, bind_eq_ok.mpr ⟨_, hrest, rfl⟩⟩

end Messages

-- ---------------------------------------------------------------------------
-- The receive buffer
-- ---------------------------------------------------------------------------

/-- The size of what a type stands for. -/
def typeSize (type : String) (tm : List (String × String)) : Nat :=
  (cTypeSizes.lookup (resolveCType type tm)).getD 1

/-- The buffer holds an Ack frame, with the types it has in the generated files. -/
def AckFits (protocol : EditorProtocol) : Prop :=
  ((2 * typeSize "uint8_t" protocol.typeMappings + 5 : Nat) : Int) ≤ protocol.config.bufferSize

section Buffer

variable {tm : List (String × String)} {ms : List EditorMessage} {ds : List Yaml}

theorem typeSize_le (type : String) (tm : List (String × String)) : typeSize type tm ≤ 4 :=
  (cTypeSize_bounds (rfl : cTypeSize (.str (resolveCType type tm)) = .ok _)).2

/-- The payloads of the system messages. -/
theorem systemPayload (tm : List (String × String)) :
    (messageWirePayloadSize ackMessage (exportMappings tm) : Check Nat) =
        .ok (2 * typeSize "uint8_t" tm) ∧
      (messageWirePayloadSize heartbeatMessage (exportMappings tm) : Check Nat) =
        .ok (typeSize "uint32_t" tm) ∧
      (messageWirePayloadSize handshakeMessage (exportMappings tm) : Check Nat) =
        .ok (typeSize "uint32_t" tm) := by
  have hfield : ∀ proto type,
      (AutoSerialBridge.fieldSize (exportMappings tm) (systemField proto type) : Check Nat) =
        .ok (typeSize type tm) := fun proto type =>
    bind_eq_ok.mpr ⟨.str type, rfl, bind_eq_ok.mpr ⟨_, getCType_exported tm type, rfl⟩⟩
  have hmessage : ∀ name id notes fields sizes,
      List.Forall₂ (fun field size =>
        (AutoSerialBridge.fieldSize (exportMappings tm) field : Check Nat) = .ok size) fields sizes →
      (messageWirePayloadSize (systemMessage name id notes fields) (exportMappings tm) : Check Nat) =
        .ok sizes.sum := by
    intro name id notes fields sizes hsizes
    refine bind_eq_ok.mpr ⟨sizes.sum, bind_eq_ok.mpr ⟨.list fields, rfl, bind_eq_ok.mpr ⟨fields, rfl,
      bind_eq_ok.mpr ⟨sizes, mapM_eq_ok.mpr hsizes, rfl⟩⟩⟩, bind_eq_ok.mpr ⟨false, rfl, rfl⟩⟩
  refine ⟨?_, ?_, ?_⟩
  · refine (hmessage _ _ _ _ _ (.cons (hfield _ _) (.cons (hfield _ _) .nil))).trans ?_
    rw [List.sum_cons, List.sum_cons, List.sum_nil, Nat.add_zero, Nat.two_mul]
  · exact (hmessage _ _ _ _ _ (.cons (hfield _ _) .nil)).trans (by simp)
  · exact (hmessage _ _ _ _ _ (.cons (hfield _ _) .nil)).trans (by simp)

/-- **The check on the buffer**, after the one of the editor. -/
theorem checkBufferSize_exported {cfg : PyDict} {n : Int}
    (hcfg : dictLookup cfg (.str "buffer_size") = some (.int n)) (h4 : 9 ≤ n)
    (hds : List.Forall₂ (fun m m' => ∃ d, m' = .map d ∧ Exported m d) ms ds)
    (hpayload : ∀ m ∈ ms, ((wirePayloadSize m tm + 5 : Nat) : Int) ≤ n)
    (hack : ((2 * typeSize "uint8_t" tm + 5 : Nat) : Int) ≤ n) :
    checkBufferSize cfg (exportMappings tm) ds = .ok [] := by
  have hbusiness : ∀ m' ∈ ds, ∃ m ∈ ms, ∃ d, m' = .map d ∧ Exported m d := fun m' hm' =>
    exists_left_of_forall₂ hds hm'
  have hfilter : ds.filter isSizable = ds := by
    refine List.filter_eq_self.mpr fun m' hm' => ?_
    obtain ⟨m, -, d, rfl, hd⟩ := hbusiness m' hm'
    unfold isSizable
    simp only
    rw [dictGet_eq hd.id, dictGet_eq hd.fields]
    rfl
  have hsize : ∀ m' ∈ ds ++ systemMessages, ∃ size,
      (messageWirePayloadSize m' (exportMappings tm) : Check Nat) = .ok size ∧
        ((size + 5 : Nat) : Int) ≤ n := by
    have h32 : ((typeSize "uint32_t" tm + 5 : Nat) : Int) ≤ n := by
      have := typeSize_le "uint32_t" tm
      omega
    obtain ⟨hackSize, hheartbeat, hhandshake⟩ := systemPayload tm
    refine List.forall_mem_append.mpr ⟨fun m' hm' => ?_, ?_⟩
    · obtain ⟨m, hm, d, rfl, hd⟩ := hbusiness m' hm'
      exact ⟨_, hd.messageWirePayloadSize tm, hpayload m hm⟩
    · simp only [systemMessages, List.forall_mem_cons]
      exact ⟨⟨_, hackSize, hack⟩, ⟨_, hheartbeat, h32⟩, ⟨_, hhandshake, h32⟩, List.forall_mem_nil _⟩
  obtain ⟨merged, hmerged⟩ : Returns (sortedById (ds ++ systemMessages) : Check (List Yaml)) := by
    refine returns_sortedById.mpr (List.forall_mem_append.mpr ⟨fun m' hm' => ?_, ?_⟩)
    · obtain ⟨m, -, d, rfl, hd⟩ := hbusiness m' hm'
      exact ⟨_, bind_eq_ok.mpr ⟨_, pyIndex_eq_ok.mpr ⟨d, rfl, hd.id⟩, rfl⟩⟩
    · simp only [systemMessages, List.forall_mem_cons]
      exact ⟨⟨_, rfl⟩, ⟨_, rfl⟩, ⟨_, rfl⟩, List.forall_mem_nil _⟩
  have hmem := fun m' => (sortedById_spec hmerged).1.mem_iff (a := m')
  obtain ⟨sizes, hsizes⟩ : Returns
      (merged.mapM fun m => messageWirePayloadSize m (exportMappings tm) : Check (List Nat)) :=
    returns_mapM.mpr fun m' hm' => (hsize m' ((hmem m').mp hm')).imp fun _ h => h.1
  have hmax : ((pyMax (sizes.map (· + 5)) : Nat) : Int) ≤ n := by
    have hne : sizes.map (· + 5) ≠ [] := by
      intro hnil
      rw [List.map_eq_nil_iff] at hnil
      have hack : ackMessage ∈ merged := (hmem _).mpr (List.mem_append_right _ List.mem_cons_self)
      obtain ⟨size, hmem, -⟩ := exists_right_of_forall₂ (mapM_eq_ok.mp hsizes) hack
      rw [hnil] at hmem
      cases hmem
    obtain ⟨size, hsize', heq⟩ := List.mem_map.mp (pyMax_mem hne)
    obtain ⟨m', hm', hok⟩ := exists_left_of_forall₂ (mapM_eq_ok.mp hsizes) hsize'
    obtain ⟨size', hok', hle⟩ := hsize m' ((hmem m').mp hm')
    obtain rfl := Except.ok.inj (hok.symm.trans hok')
    rw [← heq]
    exact hle
  unfold checkBufferSize
  rw [dictGet_eq hcfg, hfilter]
  simp only [Yaml.asInt?]
  rw [if_pos (show n > 0 by omega)]
  refine bind_eq_ok.mpr ⟨merged, (mergeMessages_list ds).trans hmerged, bind_eq_ok.mpr ⟨sizes, hsizes, ?_⟩⟩
  rw [pure_eq_ok, errorUnless_eq_nil]
  simpa using hmax

end Buffer

-- ---------------------------------------------------------------------------
-- The document
-- ---------------------------------------------------------------------------

section Document

variable {q : EditorProtocol}

/-- `int()` reads every index of every path. -/
def IndicesShort (protocol : EditorProtocol) : Prop :=
  ∀ m ∈ protocol.messages, ∀ field ∈ m.fields, IndexesShort field.ros

/-- What the editor checks outside the messages. -/
structure ConfigClean (q : EditorProtocol) : Prop where
  checksum : q.config.checksum ∈ supportedChecksums
  headByte1 : isByteValue q.config.headByte1 = true
  headByte2 : isByteValue q.config.headByte2 = true
  bufferSize : 0 < q.config.bufferSize
  reliableRetryIntervalMs : 0 < q.config.reliableRetryIntervalMs
  reliableMaxRetries : 0 < q.config.reliableMaxRetries
  qosDepth : 0 < q.config.qosDepth
  heartbeatIntervalMs : 0 < q.config.heartbeatIntervalMs
  heartbeatTimeoutMs : 0 < q.config.heartbeatTimeoutMs
  heartbeat : q.config.heartbeatIntervalMs ≤ q.config.heartbeatTimeoutMs
  port : q.port ≠ ""
  baudrate : 0 < q.baudrate

theorem configErrors_clean (h : configErrors q = []) : ConfigClean q := by
  unfold configErrors at h
  simp only [List.append_eq_nil_iff, errorIf_eq_nil, List.flatMap_eq_nil_iff, List.forall_mem_cons] at h
  obtain ⟨⟨⟨⟨⟨hchecksum, h₁, h₂, -⟩, hbuffer, hretry, hretries, hqos, hinterval, htimeout, -⟩,
    hheartbeat⟩, hport⟩, hbaudrate⟩ := h
  simp only [decide_eq_false_iff_not, not_le] at *
  have hmem : q.config.checksum ∈ checksumOptions := by simpa using hchecksum
  refine ⟨hmem, by simpa using h₁, by simpa using h₂, hbuffer, hretry, hretries, hqos, hinterval,
    htimeout, ?_, ?_, hbaudrate⟩
  · simpa [hinterval, htimeout] using hheartbeat
  · intro hempty
    exact hport (by rw [hempty]; decide)

/-- The checks on `config` and the serial parameters are silent. -/
theorem ConfigClean.checkConfig (h : ConfigClean q) :
    checkSerialParams (exportConfig q.config) (exportSerialParams q) ++
      AutoSerialBridge.checkConfig (exportConfig q.config) = [] := by
  have hupper : checksumText (exportConfig q.config) = q.config.checksum :=
    pyUpper_supported h.checksum
  have hpositive : ∀ {n : Int}, 0 < n → isPositiveInt (.int n) = true := fun h => decide_eq_true h
  unfold checkSerialParams AutoSerialBridge.checkConfig checkHeartbeatWindow
  simp only [List.append_eq_nil_iff, errorUnless_eq_nil, List.flatMap_eq_nil_iff, List.forall_mem_cons,
    booleanKeys, positiveKeys, hupper]
  refine ⟨⟨⟨rfl, hpositive h.baudrate⟩, ?_⟩, ⟨⟨⟨⟨⟨?_, h.headByte1, h.headByte2, nofun⟩,
    hpositive h.bufferSize⟩, rfl⟩, rfl, rfl, rfl, nofun⟩, hpositive h.heartbeatIntervalMs,
    hpositive h.heartbeatTimeoutMs, hpositive h.reliableRetryIntervalMs,
    hpositive h.reliableMaxRetries, hpositive h.qosDepth, nofun⟩, ?_⟩
  · exact decide_eq_true h.port
  · simpa using h.checksum
  · show errorUnless _ _ = []
    rw [errorUnless_eq_nil]
    have := h.heartbeat
    simp
    omega

/-- The memories before the loop. -/
theorem seenMatches_initial : SeenMatches .initial .initial := ⟨rfl, rfl, rfl, rfl, rfl⟩

/-- **The way out**: with a buffer for an Ack frame and short indices, no check complains. -/
theorem validateProtocol_exported (h : validateProtocol q = []) (hack : AckFits q)
    (hshort : IndicesShort q) :
    Returns (AutoSerialBridge.validateProtocol (.map (documentOf q))) := by
  unfold validateProtocol at h
  simp only [List.append_eq_nil_iff] at h
  obtain ⟨⟨hconfig, hloop⟩, hbuffer⟩ := h
  have hclean := configErrors_clean hconfig
  obtain ⟨hfour, hlargest⟩ := checkEditorMessages_largest hloop
  obtain ⟨ds, hds, hexported⟩ := checkMessages_exported hloop seenMatches_initial hshort
  rw [errorIf_eq_nil, Bool.and_eq_false_iff, decide_eq_false_iff_not, decide_eq_false_iff_not,
    or_iff_right (not_not.mpr hclean.bufferSize), not_lt] at hbuffer
  have hsize : checkBufferSize (exportConfig q.config) (exportMappings q.typeMappings) ds = .ok [] := by
    refine checkBufferSize_exported rfl ?_ hexported (fun m hm => ?_) hack
    · have hsystem : systemMaxWirePayload = 4 := rfl
      omega
    · have := hlargest m hm
      omega
  rw [validateProtocol_map]
  refine ⟨_, bind_eq_ok.mpr ⟨some (.map (exportSerialParams q)), rfl, bind_eq_ok.mpr
    ⟨q.config.checksum, rfl, bind_eq_ok.mpr ⟨[], ?_, bind_eq_ok.mpr ⟨(ds, []), hds,
      bind_eq_ok.mpr ⟨[], hsize, rfl⟩⟩⟩⟩⟩⟩
  exact report_eq_nil.mpr hclean.checkConfig

/-- **The way back**: an accepted document has short indices, and a buffer for an Ack frame. -/
theorem exported_accepted (h : validateProtocol q = [])
    (hok : Returns (AutoSerialBridge.validateProtocol (.map (documentOf q)))) :
    AckFits q ∧ IndicesShort q := by
  unfold validateProtocol at h
  simp only [List.append_eq_nil_iff] at h
  obtain ⟨⟨hconfig, hmessages⟩, -⟩ := h
  obtain ⟨configData, hok⟩ := hok
  obtain ⟨root, messages, hroot, hval, -⟩ := validateProtocol_eq_ok hok
  obtain rfl := Yaml.map.inj hroot
  have hloop : checkMessages (exportMappings q.typeMappings) .initial 0
      (q.messages.map exportMessage) = .ok (messages, []) := hval.loop
  refine ⟨?_, fun m hm field hfield => ?_⟩
  · obtain ⟨merged, sizes, hmerged, hsizes, hle⟩ :=
      checkBufferSize_accepted (configErrors_clean hconfig).bufferSize rfl hval.buffer_size
    rw [mergeMessages_list] at hmerged
    have hack : ackMessage ∈ merged :=
      (sortedById_spec hmerged).1.mem_iff.mpr (List.mem_append_right _ List.mem_cons_self)
    obtain ⟨size, hsize, hack⟩ := exists_right_of_forall₂ (mapM_eq_ok.mp hsizes) hack
    obtain rfl := Except.ok.inj (hack.symm.trans (systemPayload q.typeMappings).1)
    have := le_pyMax (List.mem_map_of_mem (f := (· + 5)) hsize)
    unfold AckFits
    omega
  · obtain ⟨seen, seen', hclean⟩ := checkEditorMessages_clean hmessages m hm
    obtain ⟨m', hm', hkept⟩ :=
      exists_right_of_forall₂ (checkMessages_kept hloop) (List.mem_map_of_mem (f := exportMessage) hm)
    obtain ⟨msg, rfl, -⟩ := (checkMessages_accepted hloop).1 m' hm'
    obtain ⟨d, hd, hkept⟩ := hkept msg rfl
    obtain rfl := Yaml.map.inj hd
    have hfields := (hkept "fields" (by decide)).trans (exported_exportEntries m).fields
    obtain ⟨path, hpath, hparsed⟩ := ((checkMessages_formed hloop msg hm').fields _ hfields _
      (List.mem_map_of_mem (f := exportField) hfield)).path
    obtain rfl : field.ros = path := by simpa [dictLookup_cons] using hpath
    exact (returns_analyzeRosPath (fieldListErrors_paths hclean.fields field hfield)).mp hparsed

end Document

-- ---------------------------------------------------------------------------
-- A protocol in normal form
-- ---------------------------------------------------------------------------

section Spread

variable {α : Type} {object entries : List (String × α)} {key : String} {value : α}

theorem objectSet_append (h : key ∉ object.map (·.1)) :
    objectSet (object ++ entries) key value = object ++ objectSet entries key value := by
  induction object with
  | nil => rfl
  | cons e rest ih =>
    rw [List.map_cons, List.mem_cons, not_or] at h
    rw [List.cons_append, objectSet, if_neg (Ne.symm h.1), ih h.2, List.cons_append]

theorem objectSet_keys (object : List (String × α)) (key : String) (value : α) :
    (objectSet object key value).map (·.1) =
      if key ∈ object.map (·.1) then object.map (·.1) else object.map (·.1) ++ [key] := by
  induction object with
  | nil => rfl
  | cons e rest ih =>
    rw [objectSet]
    by_cases he : e.1 = key
    · simp [he]
    · rw [if_neg he, List.map_cons, ih]
      simp only [List.map_cons, List.mem_cons, Ne.symm he, false_or]
      split_ifs <;> rfl

/-- A spread keeps the keys in front, and distinct. -/
theorem objectSpread_keys (entries : List (String × α)) (hobject : (object.map (·.1)).Nodup) :
    ((objectSpread object entries).map (·.1)).Nodup ∧
      object.map (·.1) <+: (objectSpread object entries).map (·.1) := by
  unfold objectSpread
  induction entries generalizing object with
  | nil => exact ⟨hobject, List.prefix_rfl⟩
  | cons e rest ih =>
    rw [List.foldl_cons]
    have hkeys := objectSet_keys object e.1 e.2
    split_ifs at hkeys with hmem
    · rw [← hkeys] at hobject ⊢
      exact ih hobject
    · have hnodup : (object.map (·.1) ++ [e.1]).Nodup := by
        rw [List.nodup_append]
        refine ⟨hobject, List.nodup_singleton _, fun a ha b hb => ?_⟩
        rw [List.mem_singleton.mp hb]
        exact fun heq => hmem (heq ▸ ha)
      obtain ⟨hrest, hpre⟩ := ih (hkeys ▸ hnodup)
      exact ⟨hrest, (List.prefix_append _ _).trans (hkeys ▸ hpre)⟩

/-- The entries of `object` are overwritten in their order. -/
theorem objectSpread_overwrite {done : List (String × α)} (hnodup : ((done ++ entries).map (·.1)).Nodup)
    (hpre : object.map (·.1) <+: entries.map (·.1)) :
    objectSpread (done ++ object) entries = done ++ entries := by
  unfold objectSpread
  induction entries generalizing done object with
  | nil => rw [List.map_eq_nil_iff.mp (List.prefix_nil.mp hpre), List.foldl_nil]
  | cons e rest ih =>
    have hnew : e.1 ∉ done.map (·.1) := by
      rw [List.map_append, List.nodup_append] at hnodup
      exact fun hmem => hnodup.2.2 _ hmem _ List.mem_cons_self rfl
    have hdone : (done ++ [e] ++ rest) = done ++ e :: rest := by
      rw [List.append_assoc, List.singleton_append]
    have hset : ∃ object', objectSet object e.1 e.2 = e :: object' ∧
        object'.map (·.1) <+: rest.map (·.1) := by
      cases object with
      | nil => exact ⟨[], rfl, List.nil_prefix⟩
      | cons e' object' =>
        obtain ⟨heq, hpre⟩ := List.cons_prefix_cons.mp hpre
        refine ⟨object', ?_, hpre⟩
        rw [objectSet, if_pos heq, show e'.1 = e.1 from heq]
    obtain ⟨object', hset, hpre⟩ := hset
    rw [List.foldl_cons, objectSet_append hnew, hset, ← List.singleton_append, ← List.append_assoc,
      ih (hdone ▸ hnodup) hpre, hdone]

end Spread

section NormalForm

variable {text : NumberText} {p : JsValue} {seen seen' : EditorSeen} {tm : List (String × String)}
  {label : String} {m : EditorMessage}

theorem toInteger_int (n fallback : Int) : toInteger text (.int n) fallback = n := by
  unfold toInteger JsValue.int toNumber
  simp

theorem orElse_str {s : String} {default : JsValue} (h : s ≠ "") :
    (JsValue.str s).orElse default = .str s :=
  if_pos (decide_eq_true h)

theorem normalizeField_toJs (field : EditorField) : normalizeField text field.toJs = field := rfl

theorem toLowerCase_option {s : String} (h : s ∈ directionOptions ∨ s ∈ debugLogModeOptions) :
    toLowerCase s = s ∧ s ≠ "" := by
  have hall : ∀ s ∈ directionOptions ++ debugLogModeOptions, toLowerCase s = s ∧ s ≠ "" := by decide
  exact hall s (List.mem_append.mpr h)

theorem EditorClean.normalizeMessage_toJs (h : EditorClean tm seen seen' label m) (index : Nat) :
    normalizeMessage text m.toJs index = m := by
  have hname : m.name ≠ "" := nameErrors_ne (congrArg (·.2.2) h.name)
  have hrest := h.rest
  unfold messageErrors at hrest
  simp only [List.append_eq_nil_iff, errorIf_eq_nil, Bool.not_eq_false'] at hrest
  obtain ⟨⟨⟨hdirection, hmode⟩, -⟩, -⟩ := hrest
  obtain ⟨hlower, hdne⟩ := toLowerCase_option (.inl (List.contains_iff_mem.mp hdirection))
  obtain ⟨hmlower, hmne⟩ := toLowerCase_option (.inr (List.contains_iff_mem.mp hmode))
  have hfields : (m.fields.map EditorField.toJs).map (normalizeField text) = m.fields := by
    rw [List.map_map]
    exact List.map_id'' normalizeField_toJs m.fields
  have hlength : m.fields.length > 0 := List.length_pos_iff.mpr h.fields_ne
  have hid : toInteger text (m.toJs.prop "id") index = m.id := toInteger_int m.id index
  have hdir : (m.toJs.prop "direction").orElse (.str "tx") = .str m.direction := orElse_str hdne
  have hmod : (m.toJs.prop "debug_log_mode").orElse (.str "on") = .str m.debugLogMode :=
    orElse_str hmne
  have hnam : ∀ default, (m.toJs.prop "name").orElse default = .str m.name := fun _ =>
    orElse_str hname
  have hitems : (m.toJs.prop "fields").arrayItems = m.fields.map EditorField.toJs := rfl
  have hreliable : m.toJs.prop "reliable" = .bool m.reliable := rfl
  have hsub : m.toJs.prop "sub_topic" = .str m.subTopic := rfl
  have hpub : m.toJs.prop "pub_topic" = .str m.pubTopic := rfl
  have hros : m.toJs.prop "ros_msg" = .str m.rosMsg := rfl
  have hnotes : m.toJs.prop "notes" = .str m.notes := rfl
  unfold normalizeMessage
  simp only [hid, hdir, hmod, hnam, hitems, hreliable, hsub, hpub, hros, hnotes, normalizeString,
    normalizeBoolean, hlower, hmlower, hdirection, hmode, hfields, hlength, if_true]

theorem normalizeConfig_toJs {cfg : EditorConfig} (h : cfg.checksum ∈ supportedChecksums) :
    normalizeConfig text cfg.toJs = cfg := by
  have hne : ∀ s ∈ supportedChecksums, s ≠ "" := by decide
  have hchecksum : (cfg.toJs.prop "checksum").orElse (.str defaultProtocol.config.checksum) =
      .str cfg.checksum := orElse_str (hne _ h)
  have hupper : toUpperCase cfg.checksum = cfg.checksum := pyUpper_supported h
  obtain ⟨bufferSize, headByte1, headByte2, checksum, requireHandshake, ignoreVersionMismatch,
    retryInterval, maxRetries, strictHeartbeat, qosDepth, heartbeatInterval, heartbeatTimeout⟩ := cfg
  unfold normalizeConfig
  simp only [hchecksum, normalizeString, hupper, EditorConfig.mk.injEq, true_and]
  exact ⟨toInteger_int bufferSize _, toInteger_int headByte1 _, toInteger_int headByte2 _, rfl, rfl,
    toInteger_int retryInterval _, toInteger_int maxRetries _, rfl, toInteger_int qosDepth _,
    toInteger_int heartbeatInterval _, toInteger_int heartbeatTimeout _⟩

theorem normalizeProtocol_mappings (text : NumberText) (p : JsValue) :
    ((normalizeProtocol text p).typeMappings.map (·.1)).Nodup ∧
      defaultProtocol.typeMappings.map (·.1) <+:
        (normalizeProtocol text p).typeMappings.map (·.1) := by
  have hdefault : (defaultProtocol.typeMappings.map fun e => (e.1, JsValue.str e.2)).map (·.1) =
      defaultProtocol.typeMappings.map (·.1) := rfl
  have hkeys := objectSpread_keys (p.prop "type_mappings").ownEntries
    (by decide : ((defaultProtocol.typeMappings.map fun e => (e.1, JsValue.str e.2)).map (·.1)).Nodup)
  rw [hdefault] at hkeys
  unfold normalizeProtocol
  simp only [List.map_map]
  exact hkeys

/-- The spread over the defaults changes nothing in mappings that have all of them in front. -/
theorem normalizeMappings_toJs (hnodup : (tm.map (·.1)).Nodup)
    (hpre : defaultProtocol.typeMappings.map (·.1) <+: tm.map (·.1)) :
    (objectSpread (defaultProtocol.typeMappings.map fun e => (e.1, JsValue.str e.2))
      (tm.map fun e => (e.1, JsValue.str e.2))).map (fun e => (e.1, normalizeString text e.2)) = tm := by
  have hkeys : (tm.map fun e => (e.1, JsValue.str e.2)).map (·.1) = tm.map (·.1) := by
    rw [List.map_map]
    rfl
  have hspread : objectSpread ([] ++ defaultProtocol.typeMappings.map fun e => (e.1, JsValue.str e.2))
      (tm.map fun e => (e.1, JsValue.str e.2)) = [] ++ tm.map fun e => (e.1, JsValue.str e.2) :=
    objectSpread_overwrite (by rwa [List.nil_append, hkeys]) (by rwa [hkeys])
  rw [List.nil_append, List.nil_append] at hspread
  rw [hspread, List.map_map]
  exact List.map_id'' (fun _ => rfl) tm

/-- The id of a message without editor errors is not reserved. -/
theorem EditorClean.not_legacy (h : EditorClean tm seen seen' label m) :
    isLegacySystemMessage m = false := by
  have hid := h.id
  unfold idErrors at hid
  unfold isLegacySystemMessage
  cases hreserved : reservedIds.lookup m.id with
  | none => rfl
  | some name =>
    rw [hreserved] at hid
    split_ifs at hid <;> cases congrArg Prod.snd hid

/-- **A valid protocol in normal form is normalized to itself.** -/
theorem normalizeProtocol_toJs (h : validateProtocol (normalizeProtocol text p) = []) :
    normalizeProtocol text (normalizeProtocol text p).toJs = normalizeProtocol text p := by
  obtain ⟨hnodup, hpre⟩ := normalizeProtocol_mappings text p
  generalize normalizeProtocol text p = q at h hnodup hpre ⊢
  unfold validateProtocol at h
  simp only [List.append_eq_nil_iff] at h
  obtain ⟨⟨hconfig, hmessages⟩, -⟩ := h
  have hclean := configErrors_clean hconfig
  have hmessage := checkEditorMessages_clean hmessages
  obtain ⟨port, baudrate, debugRawFrame, config, typeMappings, messages⟩ := q
  have hlist : ((messages.map EditorMessage.toJs).zipIdx.map fun e => normalizeMessage text e.1 e.2) =
      messages := by
    rw [List.zipIdx_map, List.map_map]
    refine (List.map_congr_left fun e he => ?_).trans (List.zipIdx_map_fst 0 messages)
    obtain ⟨seen, seen', hm⟩ := hmessage e.1 (List.fst_mem_of_mem_zipIdx he)
    exact hm.normalizeMessage_toJs e.2
  have hfilter : messages.filter (fun message => !isLegacySystemMessage message) = messages := by
    refine List.filter_eq_self.mpr fun m hm => ?_
    obtain ⟨seen, seen', hm⟩ := hmessage m hm
    rw [hm.not_legacy]
    rfl
  unfold normalizeProtocol
  rw [EditorProtocol.mk.injEq]
  refine ⟨?_, toInteger_int baudrate _, rfl, normalizeConfig_toJs hclean.checksum,
    normalizeMappings_toJs hnodup hpre, (congrArg _ hlist).trans hfilter⟩
  exact congrArg (normalizeString text) (orElse_str hclean.port)

/-- **What the editor exports and the generator accepts.** The second `serializeProtocol` starts from
the normal form. -/
theorem export_accepted_iff (text : NumberText) (p : JsValue)
    (h : validateProtocol (normalizeProtocol text p) = []) :
    serializeProtocol text (normalizeProtocol text p).toJs = serializeProtocol text p ∧
      (Returns (AutoSerialBridge.validateProtocol (serializeProtocol text p)) ↔
        AckFits (normalizeProtocol text p) ∧ IndicesShort (normalizeProtocol text p)) := by
  refine ⟨?_, fun hok => exported_accepted h hok, fun hfits => ?_⟩
  · unfold serializeProtocol
    rw [normalizeProtocol_toJs h]
  · exact validateProtocol_exported h hfits.1 hfits.2

end NormalForm

-- ---------------------------------------------------------------------------
-- Two protocols
-- ---------------------------------------------------------------------------

/-- Conversions that no number of the two protocols goes through. -/
def noNumberText : NumberText where
  ofText _ := .nan
  ofHex _ := .nan
  toText _ := "NaN"

/-- One reliable message with an indexed path, and defaults for the rest. -/
def demoProtocol : JsValue :=
  .object [("config", .object [("buffer_size", .int 64)]),
    ("messages", .array [.object [("name", .str "CmdVel"), ("id", .int 1), ("direction", .str "TX"),
      ("reliable", .bool true), ("sub_topic", .str "cmd_vel"), ("ros_msg", .str "demo/msg/Speeds"),
      ("fields", .array [.object [("proto", .str "left"), ("type", .str "f32"),
        ("ros", .str "wheels[0].speed")]])]])]

theorem export_accepted_demo :
    serializeProtocol noNumberText (normalizeProtocol noNumberText demoProtocol).toJs =
        serializeProtocol noNumberText demoProtocol ∧
      (Returns (AutoSerialBridge.validateProtocol (serializeProtocol noNumberText demoProtocol)) ↔
        AckFits (normalizeProtocol noNumberText demoProtocol) ∧
          IndicesShort (normalizeProtocol noNumberText demoProtocol)) :=
  export_accepted_iff noNumberText demoProtocol (by decide +kernel)

/-- The editor still counts two bytes for an Ack that has become eight bytes long. -/
def wideBytesProtocol : JsValue :=
  .object [("config", .object [("buffer_size", .int 9)]),
    ("type_mappings", .object [("uint8_t", .str "uint32_t")])]

theorem not_export_accepted :
    ¬ ∀ text p, validateProtocol (normalizeProtocol text p) = [] →
      Returns (AutoSerialBridge.validateProtocol (serializeProtocol text p)) := by
  intro h
  have hvalid : validateProtocol (normalizeProtocol noNumberText wideBytesProtocol) = [] := by
    decide +kernel
  have hsmall : ¬ AckFits (normalizeProtocol noNumberText wideBytesProtocol) := by
    unfold AckFits
    decide +kernel
  exact hsmall (exported_accepted hvalid (h noNumberText wideBytesProtocol hvalid)).1

end AutoSerialBridge.Web
