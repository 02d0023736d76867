import AutoSerialBridge.Codegen.Files
import AutoSerialBridge.Codegen.Reported
import Mathlib

/-!
# Auto Serial Bridge — which accepted configurations can be generated

The validator has looked at everything the generators read, with two gaps: it takes `null` for an id
and for a name, and it never takes the text of a number it accepts. `Generatable` says of a
configuration that it falls into neither.

## Results

* `checkMessages_formed` — what the validator found in a message and the generators rely on.
* `returns_generateFiles` — the passes behind an accepted configuration, one lemma a generator.
* `validateProtocol_generatable_iff` — **an accepted configuration goes through all passes, with
  distinct integer ids and names, if and only if it is generatable**.
* `not_generated_nullId` — a message with `id: null` is accepted.
-/

namespace AutoSerialBridge

open Lib

-- ---------------------------------------------------------------------------
-- ROS field paths
-- ---------------------------------------------------------------------------

/-- The lengths a path asks for can be shown. -/
def LengthsShown (requirements : List (String × Nat)) : Prop :=
  ∀ e ∈ requirements, (Yaml.int e.2).printable = true

/-- A segment of a path, and the index in it, can be read. -/
def SegmentParsed (segment : List Char) : Prop :=
  ∃ name index, rosFieldSegment segment = some (name, index) ∧
    ∀ digits, index = some digits → Returns (pyInt digits)

/-- The length that the index of a segment asks for can be shown. -/
def SegmentShown (segment : List Char) : Prop :=
  ∀ name digits n, rosFieldSegment segment = some (name, some digits) → pyInt digits = .ok n →
    (Yaml.int (n + 1 : Nat)).printable = true

/-- The lengths of all indices of a path can be shown. -/
def PathShown (path : String) : Prop := ∀ segment ∈ splitChars '.' path.toList, SegmentShown segment

section Paths

variable {path current base expr : String} {pointer : Bool} {segments : List (List Char)}
  {requirements requirements' updates : List (String × Nat)}

theorem printable_int_max {m n : Nat} :
    (Yaml.int (max m n : Nat)).printable = true ↔
      (Yaml.int m).printable = true ∧ (Yaml.int n).printable = true := by
  constructor
  · intro h
    have hle : ∀ k ≤ max m n, (k : Int).natAbs ≤ ((max m n : Nat) : Int).natAbs := fun k hk => by
      rwa [Int.natAbs_natCast, Int.natAbs_natCast]
    exact ⟨printable_int_of_le (hle m (le_max_left m n)) h,
      printable_int_of_le (hle n (le_max_right m n)) h⟩
  · rintro ⟨hm, hn⟩
    rcases max_choice m n with h | h <;> rw [h]
    · exact hm
    · exact hn

theorem lengthsShown_requireSize {size : Nat} :
    LengthsShown (requireSize requirements base size) ↔
      LengthsShown requirements ∧ (Yaml.int size).printable = true := by
  unfold LengthsShown
  induction requirements with
  | nil => simp [requireSize]
  | cons e rest ih =>
    unfold requireSize
    split_ifs with he
    · rw [List.forall_mem_cons, List.forall_mem_cons, printable_int_max]
      exact and_right_comm
    · rw [List.forall_mem_cons, List.forall_mem_cons, ih, and_assoc]

/-- `_merge_vector_requirements`. -/
theorem lengthsShown_merge :
    LengthsShown (updates.foldl (fun dest e => requireSize dest e.1 e.2) requirements) ↔
      LengthsShown requirements ∧ LengthsShown updates := by
  induction updates generalizing requirements with
  | nil => exact (and_iff_left nofun).symm
  | cons e rest ih =>
    rw [List.foldl_cons, ih, lengthsShown_requireSize, and_assoc]
    unfold LengthsShown
    rw [List.forall_mem_cons]

/-- A path is refused with a message. -/
theorem analyzeSegments_error {e : PyError ProtocolError}
    (h : analyzeSegments path pointer current requirements segments = .error e) :
    ∃ message, e = .valueError message := by
  induction segments generalizing pointer current requirements with
  | nil => cases h
  | cons segment rest ih =>
    unfold analyzeSegments at h
    split at h
    · obtain rfl := Except.error.inj h
      exact ⟨_, rfl⟩
    · next name index hsegment =>
      cases index with
      | none => exact ih h
      | some digits =>
        simp only at h
        cases hint : pyInt digits with
        | error e' =>
          rw [hint] at h
          obtain rfl := Except.error.inj h
          unfold pyInt at hint
          split_ifs at hint
          obtain rfl := Except.error.inj hint
          exact ⟨_, rfl⟩
        | ok n =>
          rw [hint] at h
          exact ih h

/-- Whether a path can be taken apart depends on its segments only. -/
theorem returns_analyzeSegments :
    Returns (analyzeSegments path pointer current requirements segments) ↔
      ∀ segment ∈ segments, SegmentParsed segment := by
  induction segments generalizing pointer current requirements with
  | nil => exact iff_of_true (returns_ok _) nofun
  | cons segment rest ih =>
    rw [List.forall_mem_cons]
    unfold analyzeSegments SegmentParsed
    cases hsegment : rosFieldSegment segment with
    | none => exact iff_of_false nofun (by rintro ⟨⟨name, index, ⟨⟩, -⟩, -⟩)
    | some r =>
      obtain ⟨name, index⟩ := r
      simp only [Option.some.injEq, Prod.mk.injEq]
      cases index with
      | none =>
        rw [ih]
        refine (and_iff_right ⟨name, none, ⟨rfl, rfl⟩, nofun⟩).symm
      | some digits =>
        simp only
        rw [returns_bind]
        simp only [ih]
        constructor
        · rintro ⟨n, hn, h⟩
          exact ⟨⟨name, some digits, ⟨rfl, rfl⟩, fun _ hd => Option.some.inj hd ▸ ⟨n, hn⟩⟩, h⟩
        · rintro ⟨⟨_, _, ⟨rfl, rfl⟩, hdigits⟩, h⟩
          obtain ⟨n, hn⟩ := hdigits digits rfl
          exact ⟨n, hn, h⟩

/-- The lengths a path adds. -/
theorem lengthsShown_analyzeSegments
    (h : analyzeSegments path pointer current requirements segments = .ok (expr, requirements')) :
    LengthsShown requirements' ↔
      LengthsShown requirements ∧ ∀ segment ∈ segments, SegmentShown segment := by
  induction segments generalizing pointer current requirements with
  | nil =>
    obtain ⟨-, rfl⟩ := Prod.mk.inj (Except.ok.inj h)
    exact (and_iff_left nofun).symm
  | cons segment rest ih =>
    rw [List.forall_mem_cons]
    unfold analyzeSegments at h
    unfold SegmentShown
    cases hsegment : rosFieldSegment segment with
    | none => simp [hsegment] at h
    | some r =>
      obtain ⟨name, index⟩ := r
      rw [hsegment] at h
      simp only [Option.some.injEq, Prod.mk.injEq]
      cases index with
      | none =>
        rw [ih h]
        exact and_congr_right fun _ => (and_iff_right (by rintro _ _ _ ⟨-, ⟨⟩⟩)).symm
      | some digits =>
        obtain ⟨n, hn, h⟩ := bind_eq_ok.mp h
        rw [ih h, lengthsShown_requireSize, and_assoc]
        refine and_congr_right fun _ => and_congr_left fun _ => ?_
        constructor
        · rintro hshown _ _ n' ⟨-, hdigits⟩ hn'
          obtain rfl := Option.some.inj hdigits
          obtain rfl := Except.ok.inj (hn.symm.trans hn')
          exact hshown
        · exact fun hshown => hshown name digits n ⟨rfl, rfl⟩ hn

end Paths

-- ---------------------------------------------------------------------------
-- Accepted messages, as far as the generators read them
-- ---------------------------------------------------------------------------

/-- A field has a name, and a path that `_analyze_ros_path` takes apart. -/
structure FieldFormed (f : PyDict) : Prop where
  proto : ∃ name, dictLookup f (.str "proto") = some (.str name)
  path : ∃ path, dictLookup f (.str "ros") = some (.str path) ∧
    Returns (analyzeRosPath path "msg" true)

/-- A message has a ROS type, the topics of its direction, and formed fields. -/
structure MessageFormed (msg : PyDict) : Prop where
  rosMsg : ∃ s, isRosMsg s = true ∧ dictLookup msg (.str "ros_msg") = some (.str s)
  topic : ∀ key ∈ ["sub_topic", "pub_topic"], ∀ v, dictLookup msg (.str key) = some v →
    ∃ s, s ≠ "" ∧ v = .str s
  subscribed : directionIs (dictGet msg "direction") "tx" = true → dictHas msg "sub_topic" = true
  published : directionIs (dictGet msg "direction") "rx" = true → dictHas msg "pub_topic" = true
  fields : ∀ fields, dictLookup msg (.str "fields") = some (.list fields) →
    ∀ f, .map f ∈ fields → FieldFormed f

section Formed

variable {tm msg msg₀ f : PyDict} {label : Yaml} {seen : Seen}

theorem checkFieldName_formed {seen : List String} (h : (checkFieldName label f seen).2 = []) :
    ∃ name, dictLookup f (.str "proto") = some (.str name) := by
  unfold checkFieldName at h
  split at h
  · next name hname => exact ⟨name, lookup_of_dictGetD hname nofun⟩
  · cases h

theorem checkFieldPath_formed (h : checkFieldPath label f = []) :
    ∃ path, dictLookup f (.str "ros") = some (.str path) ∧
      Returns (analyzeRosPath path "msg" true) := by
  unfold checkFieldPath at h
  split at h
  · next path hpath =>
    split_ifs at h
    refine ⟨path, lookup_of_dictGetD hpath nofun, ?_⟩
    split at h
    · cases h
    · next hne =>
      cases hok : analyzeRosPath path "msg" true with
      | ok r => exact returns_ok r
      | error e =>
        obtain ⟨message, rfl⟩ := analyzeSegments_error hok
        exact absurd hok (hne message)
  · cases h

theorem MessageClean.formed (h : MessageClean tm seen label msg₀ msg) : MessageFormed msg := by
  have hdir : dictGetD msg "direction" (.str "") = dictGet msg "direction" := by
    obtain ⟨d, -, hd⟩ := h.direction_lookup
    rw [dictGet_eq hd, dictGetD, hd, Option.getD_some]
  have htopics := h.topics
  unfold checkTopics at htopics
  simp only [List.append_eq_nil_iff, errorUnless_eq_nil, hdir, Bool.not_eq_true',
    Bool.and_eq_false_iff, Bool.not_eq_false'] at htopics
  obtain ⟨⟨⟨⟨hsub, hpub⟩, hsubForm⟩, hpubForm⟩, -⟩ := htopics
  have hform : ∀ key, checkTopicForm label msg key = [] → ∀ v,
      dictLookup msg (.str key) = some v → ∃ s, s ≠ "" ∧ v = .str s := by
    intro key hkey v hv
    unfold checkTopicForm at hkey
    simp only [hv, errorUnless_eq_nil] at hkey
    split at hkey
    · next s hs =>
      refine ⟨s, ?_, Yaml.asStr?_eq_some.mp hs⟩
      rintro rfl
      cases hkey
    · cases hkey
  refine ⟨?_, ?_, fun hd => hsub.resolve_left (by simp [hd]), fun hd => hpub.resolve_left (by simp [hd]), ?_⟩
  · have hros := h.rosMsg
    unfold checkRosMsg at hros
    rw [errorUnless_eq_nil] at hros
    split at hros
    · next s hs => exact ⟨s, hros, lookup_of_dictGetD (Yaml.asStr?_eq_some.mp hs) (by rintro ⟨⟩)⟩
    · cases hros
  · simp only [List.forall_mem_cons]
    exact ⟨hform _ hsubForm, hform _ hpubForm, List.forall_mem_nil _⟩
  · intro fields hfields f hf
    obtain ⟨fields', hfields', -, hlist, -⟩ := checkFields_clean (h.has "fields" (by simp)) h.fields
    obtain rfl := Yaml.list.inj (Option.some.inj (hfields.symm.trans hfields'))
    obtain ⟨f', seen', hf', hname, -, hpath⟩ := checkFieldList_clean hlist _ hf
    obtain rfl := Yaml.map.inj hf'
    exact ⟨checkFieldName_formed hname, checkFieldPath_formed hpath⟩

/-- **Every accepted message is formed.** -/
theorem checkMessages_formed {index : Nat} {ms ms' : List Yaml}
    (h : checkMessages tm seen index ms = .ok (ms', [])) :
    ∀ msg, .map msg ∈ ms' → MessageFormed msg := by
  have hall : List.Forall₂ (fun _ m' => ∀ msg, m' = .map msg → MessageFormed msg) ms ms' := by
    refine checkMessages_forall₂ (fun hm hes => ?_) h
    rw [hes rfl] at hm
    obtain ⟨label, msg₀, msg, -, rfl, hclean, -⟩ := checkMessage_clean hm
    rintro _ ⟨⟩
    exact hclean.formed
  intro msg hmsg
  obtain ⟨m, -, hm⟩ := exists_left_of_forall₂ hall hmsg
  exact hm msg rfl

end Formed

-- ---------------------------------------------------------------------------
-- Merged messages
-- ---------------------------------------------------------------------------

/-- What is known of a field of a merged message. -/
def FieldKnown (tm : PyDict) (field : Yaml) : Prop :=
  ∃ f ftype c name, field = .map f ∧ dictLookup f (.str "type") = some ftype ∧
    TypeSized tm ftype c ∧ dictLookup f (.str "proto") = some (.str name)

/-- What is known of a merged message: a business message is formed, and a system message has no
topic. -/
structure MessageKnown (tm msg : PyDict) (items : List Yaml) : Prop where
  id : ∃ n : Int, 0 ≤ n ∧ n ≤ 0xFF ∧ dictLookup msg (.str "id") = some (.int n)
  name : dictLookup msg (.str "name") = some .null ∨
    ∃ s, dictLookup msg (.str "name") = some (.str s)
  direction : ∃ d ∈ validDirections, dictLookup msg (.str "direction") = some (.str d)
  fields : dictLookup msg (.str "fields") = some (.list items)
  field : ∀ field ∈ items, FieldKnown tm field
  source : MessageFormed msg ∨ .map msg ∈ systemMessages

theorem fieldKnown_system {tm : PyDict} (hsized : SystemTypesSized tm) (proto : String) {type : String}
    (h : type ∈ ["uint8_t", "uint32_t"]) : FieldKnown tm (systemField proto type) := by
  obtain ⟨c, hc⟩ := hsized type h
  exact ⟨_, _, c, proto, rfl, rfl, hc, rfl⟩

theorem messageKnown_system {tm : PyDict} (hsized : SystemTypesSized tm) {m : Yaml}
    (hm : m ∈ systemMessages) : ∃ msg items, m = .map msg ∧ MessageKnown tm msg items := by
  have hsource := hm
  simp only [systemMessages, List.mem_cons, List.not_mem_nil, or_false] at hm
  have hfield := @fieldKnown_system tm hsized
  have hboth : "both" ∈ validDirections := by decide
  rcases hm with rfl | rfl | rfl
  · refine ⟨_, _, rfl, ⟨0xFD, by decide, by decide, rfl⟩, .inr ⟨_, rfl⟩, ⟨_, hboth, rfl⟩, rfl, ?_,
      .inr hsource⟩
    simp only [List.forall_mem_cons]
    exact ⟨hfield _ (by simp), hfield _ (by simp), List.forall_mem_nil _⟩
  · refine ⟨_, _, rfl, ⟨0xFE, by decide, by decide, rfl⟩, .inr ⟨_, rfl⟩, ⟨_, hboth, rfl⟩, rfl, ?_,
      .inr hsource⟩
    simp only [List.forall_mem_cons]
    exact ⟨hfield _ (by simp), List.forall_mem_nil _⟩
  · refine ⟨_, _, rfl, ⟨0xFF, by decide, by decide, rfl⟩, .inr ⟨_, rfl⟩, ⟨_, hboth, rfl⟩, rfl, ?_,
      .inr hsource⟩
    simp only [List.forall_mem_cons]
    exact ⟨hfield _ (by simp), List.forall_mem_nil _⟩

/-- Every message that could be sorted is known. -/
theorem ConfigAccepted.known {root cfg tm : PyDict} {messages : List Yaml}
    (hacc : ConfigAccepted root cfg tm messages)
    (hformed : ∀ msg, .map msg ∈ messages → MessageFormed msg) (hsized : SystemTypesSized tm)
    {m : Yaml} (hm : m ∈ messages ++ systemMessages) (hkey : Returns (sortKey m : Check ℚ)) :
    ∃ msg items, m = .map msg ∧ MessageKnown tm msg items := by
  rcases List.mem_append.mp hm with hbusiness | hsystem
  · obtain ⟨msg, rfl, hmsg⟩ := hacc.message m hbusiness
    obtain ⟨items, hitems, -, hfield⟩ := hmsg.fields
    have hform := hformed msg hbusiness
    refine ⟨msg, items, rfl, ?_, hmsg.name.imp_right fun ⟨s, _, h⟩ => ⟨s, h⟩, hmsg.direction,
      hitems, ?_, .inl hform⟩
    · rcases hmsg.id with hnull | ⟨n, h0, hlt, hn⟩
      · obtain ⟨q, hq⟩ := hkey
        obtain ⟨n, hn, -⟩ := hacc.messageId_of_sortKey hm hq
        simp [Yaml.messageId?, dictGet_eq hnull] at hn
      · exact ⟨n, h0, by omega, hn⟩
    · intro field hf
      obtain ⟨f, ftype, cType, rfl, htype, hct, -⟩ := hfield _ hf
      obtain ⟨t, rfl, hresolve⟩ := getCType_eq_ok.mp hct
      obtain ⟨name, hname⟩ := (hform.fields _ hitems _ hf).proto
      exact ⟨f, _, _, name, rfl, htype, ⟨t, rfl, hresolve⟩, hname⟩
  · exact messageKnown_system hsized hsystem

-- ---------------------------------------------------------------------------
-- What the generators show
-- ---------------------------------------------------------------------------

/-- The YAML type of a field can be shown. -/
def TypeShown (field : Yaml) : Prop :=
  ∀ ftype, (pyIndex field "type" : Check Yaml) = .ok ftype → ftype.printable = true

/-- What the type of a field resolves to can be shown. -/
def CTypeShown (tm : PyDict) (field : Yaml) : Prop :=
  ∀ cType, fieldCType tm field = .ok cType → cType.printable = true

/-- The lengths that the ROS path of a field asks for can be shown. -/
def RosPathShown (field : Yaml) : Prop :=
  ∀ path, (pyIndex field "ros" : Check Yaml) = .ok (.str path) → PathShown path

/-- The texts of a field can be built. -/
structure FieldGeneratable (tm : PyDict) (field : Yaml) : Prop where
  type : TypeShown field
  cType : CTypeShown tm field
  path : RosPathShown field

/-- A message has an id and a name, and its notes and its fields can be shown. -/
structure MessageGeneratable (tm : PyDict) (m : Yaml) : Prop where
  id : (pyIndex m "id" : Check Yaml) ≠ .ok .null
  name : (pyIndex m "name" : Check Yaml) ≠ .ok .null
  notes : ∀ notes, (pyIndex m "notes" : Check Yaml) = .ok notes → notes.printable = true
  field : ∀ items, (pyIndex m "fields" : Check Yaml) = .ok (.list items) →
    ∀ field ∈ items, FieldGeneratable tm field

section Fields

variable {tm : PyDict} {field : Yaml}

theorem FieldKnown.index_proto (h : FieldKnown tm field) :
    ∃ name, (pyIndex field "proto" : Check Yaml) = .ok (.str name) := by
  obtain ⟨f, -, -, name, rfl, -, -, hname⟩ := h
  exact ⟨name, pyIndex_eq_ok.mpr ⟨f, rfl, hname⟩⟩

theorem FieldKnown.fieldCType_eq (h : FieldKnown tm field) :
    ∃ c, fieldCType tm field = .ok (.scalar c) := by
  obtain ⟨f, ftype, c, -, rfl, htype, ⟨t, rfl, hresolve⟩, -⟩ := h
  exact ⟨c, bind_eq_ok.mpr ⟨_, pyIndex_eq_ok.mpr ⟨f, rfl, htype⟩, getCType_eq_ok.mpr ⟨t, rfl, hresolve⟩⟩⟩

theorem shownIndex_str {v : Yaml} {key s : String} (h : (pyIndex v key : Check Yaml) = .ok (.str s)) :
    shownIndex v key = .ok s :=
  bind_eq_ok.mpr ⟨_, h, rfl⟩

theorem FieldKnown.returns_cType (h : FieldKnown tm field) {α : Type} {f : Yaml → Check α} {P : Prop}
    (hf : ∀ c, fieldCType tm field = .ok c → (Returns (f c) ↔ P)) :
    Returns ((pyIndex field "type" : Check Yaml) >>= fun ftype =>
      (getCType ftype tm : Check Yaml) >>= f) ↔ P := by
  obtain ⟨c, hc⟩ := h.fieldCType_eq
  obtain ⟨ftype, htype, hct⟩ := bind_eq_ok.mp hc
  rw [returns_bind_ok htype, returns_bind_ok hct]
  exact hf _ hc

/-- A member of a struct shows the resolved type. -/
theorem returns_structField (h : FieldKnown tm field) :
    Returns (do
      let cType ← getCType (← pyIndex field "type") tm
      return [← strOf cType, ← shownIndex field "proto"] : Check (List String)) ↔
      CTypeShown tm field := by
  obtain ⟨name, hname⟩ := h.index_proto
  refine h.returns_cType fun c hc => ?_
  rw [returns_bind_and fun _ _ => returns_bind_pure, returns_strOf]
  constructor
  · rintro ⟨hshown, -⟩ c' hc'
    obtain rfl := Except.ok.inj (hc.symm.trans hc')
    exact hshown
  · exact fun hshown => ⟨hshown c hc, _, shownIndex_str hname⟩

/-- A log text takes the letter of the YAML type. -/
theorem returns_fieldLogged (h : FieldKnown tm field) :
    Returns (fieldLogged field) ↔ TypeShown field := by
  obtain ⟨name, hname⟩ := h.index_proto
  obtain ⟨f, ftype, -, -, rfl, htype, -⟩ := h
  have hindex : (pyIndex (.map f) "type" : Check Yaml) = .ok ftype :=
    pyIndex_eq_ok.mpr ⟨f, rfl, htype⟩
  unfold fieldLogged TypeShown
  rw [returns_bind_ok (shownIndex_str hname), returns_bind_ok (a := some ftype) (by rw [pyGet?, htype]),
    returns_bind_pure, returns_strOf, Option.getD_some, hindex]
  simp only [Except.ok.injEq, forall_eq']

/-- Every formed field has an access expression. -/
theorem fieldAccesses_spec {items : List Yaml} {pointer : Bool} (requirements : List (String × Nat))
    (h : ∀ field ∈ items, ∃ f, field = .map f ∧ FieldFormed f) :
    ∃ accesses requirements',
      fieldAccesses pointer requirements items = .ok (accesses, requirements') ∧
      accesses.map (·.1) = items ∧
      (LengthsShown requirements' ↔
        LengthsShown requirements ∧ ∀ field ∈ items, RosPathShown field) := by
  unfold RosPathShown
  induction items generalizing requirements with
  | nil => exact ⟨[], requirements, rfl, rfl, (and_iff_left nofun).symm⟩
  | cons field rest ih =>
    obtain ⟨f, rfl, hformed⟩ := h field List.mem_cons_self
    obtain ⟨path, hpath, hparse⟩ := hformed.path
    have hindex : (pyIndex (.map f) "ros" : Check Yaml) = .ok (.str path) :=
      pyIndex_eq_ok.mpr ⟨f, rfl, hpath⟩
    obtain ⟨⟨expr, updates⟩, hok⟩ : Returns (analyzeRosPath path "msg" pointer) :=
      returns_analyzeSegments.mpr (returns_analyzeSegments.mp hparse)
    obtain ⟨accesses, requirements', hrest, hfst, hlengths⟩ :=
      ih (updates.foldl (fun dest e => requireSize dest e.1 e.2) requirements)
        fun field hfield => h field (List.mem_cons_of_mem _ hfield)
    refine ⟨(.map f, expr) :: accesses, requirements', ?_, by rw [List.map_cons, hfst], ?_⟩
    · unfold fieldAccesses
      refine bind_eq_ok.mpr ⟨_, hindex, bind_eq_ok.mpr ⟨_, hok, bind_eq_ok.mpr ⟨_, hrest, rfl⟩⟩⟩
    · rw [hlengths, lengthsShown_merge, lengthsShown_analyzeSegments hok, List.forall_mem_cons, hindex,
        and_assoc]
      simp only [Except.ok.injEq, Yaml.scalar.injEq, Scalar.str.injEq, forall_eq']
      exact and_congr_right fun _ => and_congr_left fun _ => and_iff_right nofun

theorem returns_shownRequirements {requirements : List (String × Nat)} :
    Returns (shownRequirements requirements) ↔ LengthsShown requirements := by
  unfold shownRequirements LengthsShown
  rw [returns_bind_pure, returns_mapM]
  simp only [returns_bind_pure, returns_strOf, List.mem_mergeSort]

theorem returns_structAssignments {items : List Yaml} {accesses : List (Yaml × String)}
    (hknown : ∀ field ∈ items, FieldKnown tm field) (hfst : accesses.map (·.1) = items) :
    Returns (structAssignments tm accesses) ↔
      ∀ field ∈ items, CTypeShown tm field := by
  unfold structAssignments CTypeShown
  rw [returns_bind_pure, returns_mapM, ← hfst, List.forall_mem_map]
  refine forall₂_congr fun access haccess => ?_
  have hknown := hknown access.1 (hfst ▸ List.mem_map_of_mem haccess)
  obtain ⟨name, hname⟩ := hknown.index_proto
  refine hknown.returns_cType fun c hc => ?_
  rw [returns_bind_ok (shownIndex_str hname), returns_bind_pure, returns_strOf, hc]
  simp only [Except.ok.injEq, forall_eq']

theorem returns_messageAssignments {items : List Yaml} {accesses : List (Yaml × String)}
    (hknown : ∀ field ∈ items, FieldKnown tm field) (hfst : accesses.map (·.1) = items) :
    Returns (messageAssignments tm accesses) := by
  unfold messageAssignments
  rw [returns_bind_pure, returns_mapM]
  intro access haccess
  have hknown := hknown access.1 (hfst ▸ List.mem_map_of_mem haccess)
  obtain ⟨name, hname⟩ := hknown.index_proto
  refine (hknown.returns_cType fun c hc => ?_).mpr trivial
  rw [returns_bind_ok (shownIndex_str hname)]
  exact iff_of_true (returns_pure _) trivial

/-- A row of a field table. -/
theorem returns_fieldTable {items : List Yaml} (hknown : ∀ field ∈ items, FieldKnown tm field) :
    Returns (fieldTable tm items) ↔
      ∀ field ∈ items, CTypeShown tm field := by
  unfold fieldTable CTypeShown
  rw [returns_bind_pure, returns_mapM]
  refine forall₂_congr fun field hfield => ?_
  have hknown := hknown field hfield
  obtain ⟨name, hname⟩ := hknown.index_proto
  refine hknown.returns_cType fun cType hc => ?_
  obtain ⟨c, hc'⟩ := hknown.fieldCType_eq
  obtain rfl := Except.ok.inj (hc.symm.trans hc')
  obtain ⟨size, hsize⟩ : Returns (cTypeSize (.scalar c) : Check Nat) := by
    unfold cTypeSize
    refine (returns_bind_ok (a := c) rfl).mpr ?_
    cases c <;> exact returns_pure _
  rw [returns_bind_ok hsize, returns_bind_ok (shownIndex_str hname), returns_bind_pure, returns_strOf, hc]
  simp only [Except.ok.injEq, forall_eq']

end Fields

section Message

variable {tm msg : PyDict} {items : List Yaml} {key : String}

/-- Only a name has no value that can be used as it is. -/
theorem MessageKnown.returns_upperName (hk : MessageKnown tm msg items) :
    Returns (upperName (.map msg)) ↔ (pyIndex (.map msg) "name" : Check Yaml) ≠ .ok .null := by
  unfold upperName
  rcases hk.name with hnull | ⟨s, hs⟩
  · have hindex : (pyIndex (.map msg) "name" : Check Yaml) = .ok .null :=
      pyIndex_eq_ok.mpr ⟨msg, rfl, hnull⟩
    rw [returns_bind_ok hindex]
    exact iff_of_false nofun fun h => h hindex
  · have hindex : (pyIndex (.map msg) "name" : Check Yaml) = .ok (.str s) :=
      pyIndex_eq_ok.mpr ⟨msg, rfl, hs⟩
    rw [returns_bind_ok hindex, hindex]
    exact iff_of_true (returns_pure _) nofun

theorem MessageKnown.returns_name (hk : MessageKnown tm msg items) :
    Returns (shownIndex (.map msg) "name") := by
  rcases hk.name with hnull | ⟨s, hs⟩
  · exact ⟨_, bind_eq_ok.mpr ⟨_, pyIndex_eq_ok.mpr ⟨msg, rfl, hnull⟩, rfl⟩⟩
  · exact ⟨_, bind_eq_ok.mpr ⟨_, pyIndex_eq_ok.mpr ⟨msg, rfl, hs⟩, rfl⟩⟩

/-- An integer in a byte can be shown. -/
theorem printable_byte {n : Int} (h0 : 0 ≤ n) (h255 : n ≤ 0xFF) : (Yaml.int n).printable = true :=
  printable_int_of_le (n := 0xFF) (by omega) (by decide +kernel)

theorem MessageKnown.returns_id (hk : MessageKnown tm msg items) :
    Returns (shownIndex (.map msg) "id") ∧ Returns (hexIndex (.map msg) "id") := by
  obtain ⟨n, h0, h255, hn⟩ := hk.id
  have hindex : (pyIndex (.map msg) "id" : Check Yaml) = .ok (.int n) :=
    pyIndex_eq_ok.mpr ⟨msg, rfl, hn⟩
  constructor
  · unfold shownIndex
    rw [returns_bind_ok hindex, returns_strOf]
    exact printable_byte h0 h255
  · unfold hexIndex
    rw [returns_bind_ok hindex]
    exact returns_pure _

theorem MessageKnown.fieldsOf_eq (hk : MessageKnown tm msg items) : fieldsOf (.map msg) = .ok items :=
  bind_eq_ok.mpr ⟨_, pyIndex_eq_ok.mpr ⟨msg, rfl, hk.fields⟩, rfl⟩

theorem MessageKnown.hasDirection_eq (hk : MessageKnown tm msg items) (d : String) :
    hasDirection (.map msg) d = .ok (directionIs (dictGet msg "direction") d) := by
  obtain ⟨direction, -, hdir⟩ := hk.direction
  rw [dictGet_eq hdir]
  exact bind_eq_ok.mpr ⟨_, pyIndex_eq_ok.mpr ⟨msg, rfl, hdir⟩, rfl⟩

theorem MessageKnown.returns_sizes (hk : MessageKnown tm msg items) :
    Returns (messagePayloadSize (.map msg) tm : Check Nat) ∧
      Returns (messageWirePayloadSize (.map msg) tm : Check Nat) := by
  have hsized : ∀ field ∈ items, Returns (fieldSize tm field : Check Nat) := by
    intro field hfield
    obtain ⟨f, ftype, c, name, rfl, htype, hc, -⟩ := hk.field field hfield
    exact returns_fieldSize.mpr ⟨f, ftype, c, rfl, htype, hc⟩
  exact ⟨(returns_messagePayloadSize hk.fields).mpr hsized,
    (returns_messageWirePayloadSize hk.fields).mpr hsized⟩

theorem truthyKey?_eq (msg : PyDict) (key : String) :
    truthyKey? (.map msg) key = .ok ((dictLookup msg (.str key)).filter Yaml.truthy) := rfl

/-- A system message has no topic and no ROS type. -/
theorem lookup_system (h : .map msg ∈ systemMessages) (hkey : key ∈ ["ros_msg", "sub_topic", "pub_topic"]) :
    dictLookup msg (.str key) = none := by
  have hall : ∀ m ∈ systemMessages, ∀ key ∈ ["ros_msg", "sub_topic", "pub_topic"], ∀ msg, m = .map msg →
      dictLookup msg (.str key) = none := by
    simp only [systemMessages, List.forall_mem_cons]
    refine ⟨⟨?_, ?_, ?_, List.forall_mem_nil _⟩, ⟨?_, ?_, ?_, List.forall_mem_nil _⟩, ⟨?_, ?_, ?_, List.forall_mem_nil _⟩, List.forall_mem_nil _⟩ <;>
      (rintro msg ⟨⟩; rfl)
  exact hall _ h key hkey msg rfl

/-- A topic is missing, or a nonempty string of a business message. -/
theorem MessageKnown.topic_cases (hk : MessageKnown tm msg items) (key : String)
    (hkey : key ∈ ["sub_topic", "pub_topic"]) :
    (truthyKey? (.map msg) key = .ok none ∧ dictHas msg key = false) ∨
      ∃ s, truthyKey? (.map msg) key = .ok (some (.str s)) ∧ MessageFormed msg := by
  rw [truthyKey?_eq]
  cases hl : dictLookup msg (.str key) with
  | none => exact .inl ⟨rfl, by rw [dictHas, hl]; rfl⟩
  | some v =>
    rcases hk.source with hformed | hsystem
    · obtain ⟨s, hs, rfl⟩ := hformed.topic key hkey v hl
      refine .inr ⟨s, ?_, hformed⟩
      rw [Option.filter_some, if_pos]
      exact decide_eq_true hs
    · cases hl.symm.trans (lookup_system hsystem (List.mem_cons_of_mem _ hkey))

/-- A ROS type is missing, or of the form `package/msg/Type`. -/
theorem MessageKnown.rosMsg_cases (hk : MessageKnown tm msg items) :
    truthyKey? (.map msg) "ros_msg" = .ok none ∨
      ∃ s, truthyKey? (.map msg) "ros_msg" = .ok (some (.str s)) ∧ isRosMsg s = true := by
  rw [truthyKey?_eq]
  rcases hk.source with hformed | hsystem
  · obtain ⟨s, hs, hl⟩ := hformed.rosMsg
    refine .inr ⟨s, ?_, hs⟩
    rw [hl, Option.filter_some, if_pos]
    refine decide_eq_true ?_
    rintro rfl
    cases hs
  · rw [lookup_system hsystem List.mem_cons_self]
    exact .inl rfl

theorem returns_rosMsgParts {s : String} (h : isRosMsg s = true) : Returns (rosMsgParts (.str s)) := by
  unfold isRosMsg at h
  unfold rosMsgParts
  simp only
  split at h
  · next hsplit =>
    rw [hsplit]
    exact returns_pure _
  · cases h

theorem MessageFormed.returns_rosType (h : MessageFormed msg) {α : Type} {f : List String → Check α}
    {P : Prop} (hf : ∀ parts, Returns (f parts) ↔ P) :
    Returns ((pyIndex (.map msg) "ros_msg" : Check Yaml) >>= fun rosMsg => rosMsgParts rosMsg >>= f) ↔
      P := by
  obtain ⟨s, hs, hl⟩ := h.rosMsg
  rw [returns_bind_ok (pyIndex_eq_ok.mpr ⟨msg, rfl, hl⟩), returns_bind_and fun parts _ => hf parts]
  exact and_iff_right (returns_rosMsgParts hs)

theorem MessageFormed.formedFields (h : MessageFormed msg) (hk : MessageKnown tm msg items) :
    ∀ field ∈ items, ∃ f, field = .map f ∧ FieldFormed f := by
  intro field hfield
  obtain ⟨f, ftype, c, name, rfl, -⟩ := hk.field field hfield
  exact ⟨f, rfl, h.fields items hk.fields f hfield⟩

/-- `describe_packet` logs the fields of what is sent. -/
theorem MessageKnown.returns_packetDescription (hk : MessageKnown tm msg items) :
    Returns (packetDescription (.map msg)) ↔ (directionIs (dictGet msg "direction") "tx" = true →
      Returns (upperName (.map msg)) ∧ ∀ field ∈ items, TypeShown field) := by
  unfold packetDescription
  rw [returns_bind_ok (hk.hasDirection_eq "tx")]
  split_ifs with htx
  · obtain ⟨reliable, hrel⟩ := returns_messageReliable msg
    rw [forall_prop_of_true htx, returns_bind_and (P := ∀ field ∈ items, TypeShown field) fun _ _ => ?_]
    obtain ⟨name, hname⟩ := hk.returns_name
    rw [returns_bind_ok hname, returns_bind_ok hk.fieldsOf_eq]
    refine (returns_bind_and (P := True) fun _ _ => ?_).trans ?_
    · rw [returns_bind_ok hrel]
      exact iff_of_true (returns_pure _) trivial
    · rw [and_true, returns_mapM]
      exact forall₂_congr fun field hfield => returns_fieldLogged (hk.field field hfield)
  · exact iff_of_true (returns_pure _) fun h => absurd h htx

/-- `register_all` shows the topic, the lengths and the struct members of what is sent. -/
theorem MessageKnown.returns_subscription (hk : MessageKnown tm msg items) {qosDepth : Yaml} :
    Returns (subscription tm qosDepth (.map msg)) ↔
      (MessageFormed msg → directionIs (dictGet msg "direction") "tx" = true →
        qosDepth.printable = true ∧ (∀ field ∈ items, RosPathShown field) ∧
        (∀ field ∈ items, CTypeShown tm field) ∧ Returns (upperName (.map msg))) := by
  unfold subscription
  rcases hk.topic_cases "sub_topic" (by simp) with ⟨hnone, hhas⟩ | ⟨s, hsome, hformed⟩
  · rw [returns_bind_ok hnone]
    refine iff_of_true (returns_pure _) fun hformed htx => ?_
    rw [hformed.subscribed htx] at hhas
    cases hhas
  · rw [returns_bind_ok hsome, forall_prop_of_true hformed]
    simp only
    rw [returns_bind_ok (hk.hasDirection_eq "tx")]
    split_ifs with htx
    · rw [forall_prop_of_true htx]
      refine hformed.returns_rosType fun parts => ?_
      obtain ⟨name, hname⟩ := hk.returns_name
      obtain ⟨accesses, requirements, haccesses, hfst, hlengths⟩ :=
        @fieldAccesses_spec items true [] (hformed.formedFields hk)
      obtain ⟨reliable, hrel⟩ := returns_messageReliable msg
      rw [returns_bind_ok hname, returns_bind_ok (x := strOf (.str s)) rfl, ← returns_strOf]
      refine returns_bind_and fun _ _ => ?_
      rw [returns_bind_ok hk.fieldsOf_eq, returns_bind_ok haccesses]
      simp only
      rw [← (hlengths.trans (and_iff_right nofun)), ← returns_shownRequirements]
      refine returns_bind_and fun _ _ => ?_
      rw [← returns_structAssignments hk.field hfst]
      refine returns_bind_and fun _ _ => ?_
      refine (returns_bind_and (P := True) fun _ _ => ?_).trans (iff_of_eq (and_true _))
      rw [returns_bind_ok hrel]
      exact iff_of_true (returns_pure _) trivial
    · exact iff_of_true (returns_pure _) fun h => absurd h htx

/-- `ProtocolPublishers` shows the topic of what is received. -/
theorem MessageKnown.returns_publisher (hk : MessageKnown tm msg items) {qosDepth : Yaml}
    (hqos : qosDepth.printable = true) : Returns (publisher qosDepth (.map msg)) := by
  unfold publisher
  rcases hk.topic_cases "pub_topic" (by simp) with ⟨hnone, -⟩ | ⟨s, hsome, hformed⟩
  · rw [returns_bind_ok hnone]
    exact returns_pure _
  · rw [returns_bind_ok hsome]
    simp only
    rw [returns_bind_ok (hk.hasDirection_eq "rx")]
    split_ifs with hrx
    · obtain ⟨name, hname⟩ := hk.returns_name
      refine (hformed.returns_rosType fun parts => ?_).mpr hqos
      rw [returns_bind_ok hname, returns_bind_ok (x := strOf (.str s)) rfl, returns_bind_pure,
        returns_strOf]
    · exact returns_pure _

/-- `dispatch_packet` shows the lengths and logs the fields of what is received. -/
theorem MessageKnown.returns_dispatchCase (hk : MessageKnown tm msg items) :
    Returns (dispatchCase tm (.map msg)) ↔
      (MessageFormed msg → directionIs (dictGet msg "direction") "rx" = true →
        Returns (upperName (.map msg)) ∧ (∀ field ∈ items, RosPathShown field) ∧
        ∀ field ∈ items, TypeShown field) := by
  unfold dispatchCase
  rcases hk.topic_cases "pub_topic" (by simp) with ⟨hnone, hhas⟩ | ⟨s, hsome, hformed⟩
  · rw [returns_bind_ok hnone]
    refine iff_of_true (returns_pure _) fun hformed hrx => ?_
    rw [hformed.published hrx] at hhas
    cases hhas
  · rw [returns_bind_ok hsome, forall_prop_of_true hformed]
    simp only
    rw [returns_bind_ok (hk.hasDirection_eq "rx")]
    split_ifs with hrx
    · rw [forall_prop_of_true hrx]
      obtain ⟨name, hname⟩ := hk.returns_name
      obtain ⟨accesses, requirements, haccesses, hfst, hlengths⟩ :=
        @fieldAccesses_spec items false [] (hformed.formedFields hk)
      obtain ⟨assignments, hassignments⟩ := returns_messageAssignments hk.field hfst
      refine returns_bind_and fun _ _ => ?_
      rw [returns_bind_ok hname]
      refine hformed.returns_rosType fun parts => ?_
      rw [returns_bind_ok hk.fieldsOf_eq, returns_bind_ok haccesses]
      simp only
      rw [← (hlengths.trans (and_iff_right nofun)), ← returns_shownRequirements]
      refine returns_bind_and fun _ _ => ?_
      rw [returns_bind_ok hassignments, returns_bind_ok hk.fieldsOf_eq, returns_bind_pure, returns_mapM]
      exact forall₂_congr fun field hfield => returns_fieldLogged (hk.field field hfield)
    · exact iff_of_true (returns_pure _) fun h => absurd h hrx

/-- A value that counts as false can be shown. -/
theorem printable_of_not_truthy {v : Yaml} (h : v.truthy = false) : v.printable = true := by
  cases v with
  | scalar s =>
    cases s with
    | int n =>
      obtain rfl : n = 0 := by simpa [Yaml.truthy] using h
      exact printable_byte le_rfl (by decide)
    | _ => rfl
  | list items =>
    cases items with
    | nil => rfl
    | cons _ _ => cases h
  | map entries =>
    cases entries with
    | nil => rfl
    | cons _ _ => cases h

/-- The documentation shows the notes and the table of the fields. -/
theorem MessageKnown.returns_messageDoc (hk : MessageKnown tm msg items)
    (hkey : key ∈ ["sub_topic", "pub_topic"]) :
    Returns (messageDoc tm key (.map msg)) ↔
      (∀ notes, (pyIndex (.map msg) "notes" : Check Yaml) = .ok notes → notes.printable = true) ∧
        ∀ field ∈ items, CTypeShown tm field := by
  obtain ⟨size, hsize⟩ := hk.returns_sizes.2
  obtain ⟨name, hname⟩ := hk.returns_name
  obtain ⟨id, hid⟩ := hk.returns_id.2
  have hshown : ∀ {key : String} {texts : Option Yaml → Check (List String)},
      Returns (texts none) → (∀ s, Returns (texts (some (.str s)))) →
      (truthyKey? (.map msg) key = .ok none ∨ ∃ s, truthyKey? (.map msg) key = .ok (some (.str s))) →
      Returns (truthyKey? (.map msg) key >>= texts) := by
    rintro key texts htextsNone htextsSome (hnone | ⟨s, hsome⟩)
    · rw [returns_bind_ok hnone]
      exact htextsNone
    · rw [returns_bind_ok hsome]
      exact htextsSome s
  have hstr : ∀ s : String, Returns (do return [← strOf (.str s)] : Check (List String)) := fun s =>
    returns_bind_pure.mpr (returns_ok s)
  unfold messageDoc
  rw [returns_bind_ok hsize, returns_bind_ok hname, returns_bind_ok hid]
  rw [← returns_fieldTable hk.field]
  refine (returns_bind_and fun _ _ => ?_).trans (and_congr_left' ?_)
  · rw [returns_bind_ok hk.fieldsOf_eq, returns_bind_pure]
  · rw [returns_mapM]
    simp only [List.forall_mem_cons]
    refine (and_iff_right (hshown (returns_pure _) hstr ?_)).trans
      ((and_iff_right (hshown (returns_pure _) hstr ?_)).trans ?_)
    · exact (hk.topic_cases _ hkey).imp And.left (Exists.imp fun _ => And.left)
    · exact hk.rosMsg_cases.imp_right (Exists.imp fun _ => And.left)
    · refine (and_iff_left (List.forall_mem_nil _)).trans ?_
      rw [returns_bind_ok (truthyKey?_eq msg "notes")]
      cases hl : dictLookup msg (.str "notes") with
      | none =>
        refine iff_of_true (returns_pure _) fun notes hnotes => ?_
        obtain ⟨d, hd, h⟩ := pyIndex_eq_ok.mp hnotes
        obtain rfl := Yaml.map.inj hd
        cases hl.symm.trans h
      | some v =>
        rw [show (pyIndex (.map msg) "notes" : Check Yaml) = .ok v from
          pyIndex_eq_ok.mpr ⟨msg, rfl, hl⟩]
        simp only [Except.ok.injEq, forall_eq']
        cases htruthy : v.truthy with
        | true =>
          rw [Option.filter_some, if_pos htruthy]
          exact returns_bind_pure.trans returns_strOf
        | false =>
          rw [Option.filter_some, if_neg (by simp [htruthy])]
          exact iff_of_true (returns_pure _) (printable_of_not_truthy htruthy)

end Message

-- ---------------------------------------------------------------------------
-- The generators
-- ---------------------------------------------------------------------------

/-- The struct members of a message can be shown. -/
def MembersShown (tm : PyDict) (m : Yaml) : Prop :=
  ∀ items, fieldsOf m = .ok items → ∀ field ∈ items, CTypeShown tm field

section Generators

variable {root cfg tm : PyDict} {messages ms : List Yaml}

/-- A pass over known messages. -/
theorem returns_knownMessages {α : Type} {f : Yaml → Check α} {P : Yaml → Prop}
    (hall : ∀ m ∈ ms, ∃ msg items, m = .map msg ∧ MessageKnown tm msg items)
    (h : ∀ msg items, MessageKnown tm msg items → (Returns (f (.map msg)) ↔ P (.map msg))) :
    Returns (ms.mapM f) ↔ ∀ m ∈ ms, P m := by
  rw [returns_mapM]
  refine forall₂_congr fun m hm => ?_
  obtain ⟨msg, items, rfl, hk⟩ := hall m hm
  exact h msg items hk

/-- After the name in capitals nothing raises. -/
theorem returns_upperName_then {m : Yaml} {α : Type} {f : String → Check α}
    (hf : ∀ symbol, Returns (f symbol)) : Returns (upperName m >>= f) ↔ Returns (upperName m) :=
  (returns_bind_and (P := True) fun symbol _ => iff_of_true (hf symbol) trivial).trans
    (iff_of_eq (and_true _))

theorem configGet_eq (cfg : PyDict) (key : String) (dflt : Yaml) :
    configGet (.map cfg) key dflt = .ok (dictGetD cfg key dflt) := rfl

theorem ConfigAccepted.returns_checksumAlgoOf (hacc : ConfigAccepted root cfg tm messages) :
    Returns (checksumAlgoOf (.map cfg)) := by
  obtain ⟨s, -, hs⟩ := hacc.checksum
  unfold checksumAlgoOf
  rw [returns_bind_ok (configGet_eq _ _ _), returns_bind_pure, returns_strOf, dictGetD, hs]
  exact printable_str s

theorem ConfigAccepted.returns_headByte (hacc : ConfigAccepted root cfg tm messages) :
    (∀ key ∈ ["head_byte_1", "head_byte_2"], Returns (shownIndex (.map cfg) key)) ∧
      ∀ key ∈ ["head_byte_1", "head_byte_2"], Returns (hexIndex (.map cfg) key) := by
  refine ⟨fun key hkey => ?_, fun key hkey => ?_⟩ <;>
    obtain ⟨n, h0, h255, hn⟩ := hacc.headByte key hkey
  · unfold shownIndex
    rw [returns_bind_ok (pyIndex_eq_ok.mpr ⟨cfg, rfl, hn⟩), returns_strOf]
    exact printable_byte h0 h255
  · unfold hexIndex
    rw [returns_bind_ok (pyIndex_eq_ok.mpr ⟨cfg, rfl, hn⟩)]
    exact returns_pure _

/-- The numbers of `config` are shown, or their defaults. -/
theorem returns_configNumbers {keys : List (String × Int)}
    (hkeys : ∀ key ∈ keys, (Yaml.int key.2).printable = true) :
    Returns (keys.mapM fun key => do strOf (← configGet (.map cfg) key.1 (.int key.2))) ↔
      ∀ key ∈ keys, (dictGet cfg key.1).printable = true := by
  rw [returns_mapM]
  refine forall₂_congr fun key hkey => ?_
  rw [returns_bind_ok (configGet_eq _ _ _), returns_strOf]
  exact printable_dictGetD (hkeys key hkey)

/-- The numbers of `config` in the MCU header and in the documentation. -/
def headerNumbers : List (String × Int) :=
  [("heartbeat_interval_ms", 1000), ("heartbeat_timeout_ms", 3000),
    ("reliable_retry_interval_ms", 100), ("reliable_max_retries", 3)]

theorem returns_generateMcuHeader (hacc : ConfigAccepted root cfg tm messages)
    (hall : ∀ m ∈ ms, ∃ msg items, m = .map msg ∧ MessageKnown tm msg items) (phash : UInt32) :
    Returns (generateMcuHeader (.map cfg) ms tm phash) ↔
      (∀ key ∈ headerNumbers, (dictGet cfg key.1).printable = true) ∧
      (∀ m ∈ ms, Returns (upperName m)) ∧ ∀ m ∈ ms, MembersShown tm m := by
  obtain ⟨algo, halgo⟩ := hacc.returns_checksumAlgoOf
  obtain ⟨bytes, hbytes⟩ := returns_mapM.mpr hacc.returns_headByte.1
  unfold generateMcuHeader
  rw [returns_bind_ok halgo, returns_bind_ok (configGet_eq _ _ _),
    returns_bind_ok (configGet_eq _ _ _), returns_bind_ok (configGet_eq _ _ _)]
  refine (returns_bind_and fun _ _ => ?_).trans
    (and_congr_left' (returns_configNumbers (by decide +kernel)))
  rw [returns_bind_ok hbytes]
  refine (returns_bind_and fun _ _ => ?_).trans (and_congr_left' (returns_knownMessages hall ?_))
  · refine (returns_bind_and (P := True) fun _ _ => ?_).trans ((iff_of_eq (and_true _)).trans
      (returns_knownMessages hall ?_))
    · refine iff_of_true (returns_bind_pure.mpr ?_) trivial
      exact (returns_knownMessages (P := fun _ => True) hall fun _ _ hk =>
        iff_of_true hk.returns_name trivial).mpr fun _ _ => trivial
    · intro msg items hk
      obtain ⟨name, hname⟩ := hk.returns_name
      unfold MembersShown
      rw [returns_bind_ok hk.fieldsOf_eq, hk.fieldsOf_eq]
      simp only [Except.ok.injEq, forall_eq']
      refine (returns_bind_and (P := True) fun _ _ => ?_).trans ((iff_of_eq (and_true _)).trans ?_)
      · exact iff_of_true (returns_bind_pure.mpr hk.returns_name) trivial
      · rw [returns_mapM]
        exact forall₂_congr fun field hfield => returns_structField (hk.field field hfield)
  · intro msg items hk
    exact returns_upperName_then fun _ => returns_bind_pure.mpr hk.returns_id.1

theorem returns_generateMcuSource (hacc : ConfigAccepted root cfg tm messages)
    (hall : ∀ m ∈ ms, ∃ msg items, m = .map msg ∧ MessageKnown tm msg items)
    (hnames : ∀ m ∈ ms, Returns (upperName m)) :
    Returns (generateMcuSource (.map cfg) ms tm) := by
  obtain ⟨algo, halgo⟩ := hacc.returns_checksumAlgoOf
  have heach : ∀ {α : Type} (f : Yaml → Check α), (∀ msg items, MessageKnown tm msg items →
      Returns (upperName (.map msg)) → Returns (f (.map msg))) → Returns (ms.mapM f) := by
    intro α f hf
    refine returns_mapM.mpr fun m hm => ?_
    obtain ⟨msg, items, rfl, hk⟩ := hall m hm
    exact hf msg items hk (hnames _ hm)
  obtain ⟨structPayloads, hstruct⟩ := heach (fun msg => messagePayloadSize msg tm)
    fun msg items hk _ => hk.returns_sizes.1
  obtain ⟨wirePayloads, hwire⟩ := heach (fun msg => messageWirePayloadSize msg tm)
    fun msg items hk _ => hk.returns_sizes.2
  obtain ⟨reliable, hreliable⟩ := heach (fun msg => messageReliable msg)
    fun msg _ _ _ => returns_messageReliable msg
  obtain ⟨hooks, hhooks⟩ := heach (fun msg => shownIndex msg "name") fun _ _ hk _ => hk.returns_name
  unfold generateMcuSource
  rw [returns_bind_ok halgo, returns_bind_ok (configGet_eq _ _ _), returns_bind_ok hstruct,
    returns_bind_ok hwire, returns_bind_ok hreliable, returns_bind_ok hhooks]
  refine (returns_bind_and (P := True) fun _ _ => iff_of_true (returns_bind_pure.mpr ?_) trivial).mpr
    ⟨heach _ fun msg items hk hname => ?_, trivial⟩
  · refine heach _ fun msg items hk hname => ?_
    obtain ⟨name, hshown⟩ := hk.returns_name
    rw [returns_bind_ok hshown]
    exact returns_bind_pure.mpr hname
  · obtain ⟨reliable, hreliable⟩ := returns_messageReliable msg
    refine (returns_upperName_then fun _ => ?_).mpr hname
    rw [returns_bind_ok hreliable]
    exact returns_bind_pure.mpr hk.returns_name

/-- The serial parameters of an accepted configuration. -/
structure SerialAccepted (serialParams : PyDict) : Prop where
  port : ∃ s, dictLookup serialParams (.str "port") = some (.str s)
  baudrate : ∃ n : Int, dictLookup serialParams (.str "baudrate") = some (.int n)

theorem SerialAccepted.serialParamsOr_eq {sp : PyDict} (h : SerialAccepted sp) :
    serialParamsOr (.map sp) = .map sp := by
  obtain ⟨s, hs⟩ := h.port
  cases sp with
  | nil => cases hs
  | cons _ _ => rfl

theorem returns_generateCppConfig (hacc : ConfigAccepted root cfg tm messages)
    (hall : ∀ m ∈ ms, ∃ msg items, m = .map msg ∧ MessageKnown tm msg items) {sp : PyDict}
    (hserial : SerialAccepted sp) :
    Returns (generateCppConfig (.map cfg) ms tm (.map sp)) ↔
      (dictGet sp "baudrate").printable = true ∧ (dictGet cfg "buffer_size").printable = true ∧
      (∀ key ∈ ("qos_depth", 10) :: headerNumbers, (dictGet cfg key.1).printable = true) ∧
      ∀ m ∈ ms, Returns (upperName m) := by
  obtain ⟨algo, halgo⟩ := hacc.returns_checksumAlgoOf
  obtain ⟨flags, hflags⟩ : Returns ([("require_handshake", true), ("ignore_version_mismatch", false),
      ("strict_heartbeat", true)].mapM fun key => do
        return flag (← configGet (.map cfg) key.1 (.bool key.2)) : Check (List String)) :=
    returns_mapM.mpr fun key _ => returns_bind_pure.mpr (returns_ok _)
  obtain ⟨payloads, hpayloads⟩ : Returns (ms.mapM fun msg => messageWirePayloadSize msg tm) :=
    (returns_knownMessages (P := fun _ => True) hall fun _ _ hk =>
      iff_of_true hk.returns_sizes.2 trivial).mpr fun _ _ => trivial
  obtain ⟨port, hport⟩ := hserial.port
  unfold generateCppConfig
  rw [returns_bind_ok halgo, returns_bind_ok hflags, hserial.serialParamsOr_eq,
    returns_bind_ok (configGet_eq _ _ _), dictGetD, hport, Option.getD_some,
    returns_bind_ok (x := strOf (.str port)) rfl, returns_bind_ok (configGet_eq _ _ _)]
  refine (returns_bind_and fun _ _ => ?_).trans (and_congr_left'
    (returns_strOf.trans (printable_dictGetD (by decide +kernel))))
  refine (returns_bind_and fun _ _ => ?_).trans (and_congr_left' ?_)
  · refine (returns_bind_and fun _ _ => ?_).trans
      (and_congr_left' (returns_configNumbers (by decide +kernel)))
    rw [returns_bind_ok hpayloads]
    have hsizes : Returns (ms.mapM fun msg => do
        return [flag (.bool (← messageReliable msg)), ← upperName msg, ← shownIndex msg "name"] :
          Check (List (List String))) ↔ ∀ m ∈ ms, Returns (upperName m) := by
      refine returns_knownMessages hall fun msg items hk => ?_
      obtain ⟨reliable, hreliable⟩ := returns_messageReliable msg
      rw [returns_bind_ok hreliable]
      exact returns_upperName_then fun _ => returns_bind_pure.mpr hk.returns_name
    refine (returns_bind_and (P := True) fun sizes hok => iff_of_true ?_ trivial).trans
      ((iff_of_eq (and_true _)).trans hsizes)
    have hnames := hsizes.mp ⟨sizes, hok⟩
    refine returns_bind_pure.mpr (returns_mapM.mpr fun m hm => ?_)
    obtain ⟨msg, items, rfl, -⟩ := hall m hm
    rw [returns_bind_ok (configGet_eq msg _ _)]
    exact returns_bind_pure.mpr (hnames _ hm)
  · obtain ⟨n, -, hn, -⟩ := hacc.buffer_size
    rw [returns_mapM, List.forall_mem_cons]
    refine (and_iff_left hacc.returns_headByte.1).trans ?_
    unfold shownIndex
    rw [returns_bind_ok (pyIndex_eq_ok.mpr ⟨cfg, rfl, hn⟩), returns_strOf, dictGet_eq hn]

/-- The included ROS types have the form that `split` unpacks. -/
theorem rosIncludes_spec
    (hall : ∀ m ∈ ms, ∃ msg items, m = .map msg ∧ MessageKnown tm msg items) :
    ∃ includes, rosIncludes ms = .ok includes ∧ ∀ v ∈ includes, ∃ s, v = .str s ∧ isRosMsg s = true := by
  obtain ⟨rosMsgs, hrosMsgs⟩ : Returns (ms.mapM fun msg => truthyKey? msg "ros_msg") :=
    (returns_knownMessages (P := fun _ => True) hall fun msg _ _ =>
      iff_of_true ⟨_, truthyKey?_eq msg "ros_msg"⟩ trivial).mpr fun _ _ => trivial
  have hform : ∀ v ∈ rosMsgs.reduceOption, ∃ s, v = .str s ∧ isRosMsg s = true := by
    intro v hv
    rw [List.reduceOption_mem_iff] at hv
    obtain ⟨m, hm, hmv⟩ := exists_left_of_forall₂ (mapM_eq_ok.mp hrosMsgs) hv
    obtain ⟨msg, items, rfl, hk⟩ := hall m hm
    rcases hk.rosMsg_cases with hnone | ⟨s, hsome, hs⟩
    · cases hnone.symm.trans hmv
    · exact ⟨s, Option.some.inj (Except.ok.inj (hmv.symm.trans hsome)), hs⟩
  obtain ⟨includes, hincludes⟩ : Returns (rosIncludes ms) := by
    unfold rosIncludes
    rw [returns_bind_ok hrosMsgs, returns_bind_pure, returns_mapM]
    intro v hv
    obtain ⟨s, rfl, -⟩ := hform v hv
    exact returns_pure s
  refine ⟨includes, hincludes, fun v hv => ?_⟩
  obtain ⟨rosMsgs', hrosMsgs', hrest⟩ := bind_eq_ok.mp hincludes
  obtain rfl := Except.ok.inj (hrosMsgs.symm.trans hrosMsgs')
  obtain ⟨names, hnames, hret⟩ := bind_eq_ok.mp hrest
  obtain rfl := pure_eq_ok.mp hret
  obtain ⟨s, hs, rfl⟩ := List.mem_map.mp hv
  rw [List.mem_mergeSort, List.mem_dedup] at hs
  obtain ⟨v, hv, hvs⟩ := exists_left_of_forall₂ (mapM_eq_ok.mp hnames) hs
  obtain ⟨s', rfl, hs'⟩ := hform v hv
  obtain rfl := pure_eq_ok.mp hvs
  exact ⟨s', rfl, hs'⟩

theorem returns_generateRosBindings
    (hall : ∀ m ∈ ms, ∃ msg items, m = .map msg ∧ MessageKnown tm msg items)
    (hqos : (dictGet cfg "qos_depth").printable = true) :
    Returns (generateRosBindings ms tm (.map cfg)) ↔
      (∀ m ∈ ms, Returns (packetDescription m)) ∧
      (∀ m ∈ ms, Returns (subscription tm (dictGetD cfg "qos_depth" (.int 10)) m)) ∧
      ∀ m ∈ ms, Returns (dispatchCase tm m) := by
  have hqos : (dictGetD cfg "qos_depth" (.int 10)).printable = true :=
    (printable_dictGetD (by decide +kernel)).mpr hqos
  obtain ⟨includes, hincludes, hform⟩ := rosIncludes_spec hall
  obtain ⟨parts, hparts⟩ : Returns (includes.mapM rosMsgParts) := by
    refine returns_mapM.mpr fun v hv => ?_
    obtain ⟨s, rfl, hs⟩ := hform v hv
    exact returns_rosMsgParts hs
  obtain ⟨publishers, hpublishers⟩ :
      Returns (ms.mapM (publisher (dictGetD cfg "qos_depth" (.int 10)))) :=
    (returns_knownMessages (P := fun _ => True) hall fun _ _ hk =>
      iff_of_true (hk.returns_publisher hqos) trivial).mpr fun _ _ => trivial
  unfold generateRosBindings
  rw [returns_bind_ok (configGet_eq _ _ _), returns_bind_ok hincludes, returns_bind_ok hparts]
  simp only [← returns_mapM]
  refine returns_bind_and fun _ _ => returns_bind_and fun _ _ => ?_
  rw [returns_bind_ok hpublishers, returns_bind_pure]

/-- The notes of a message can be shown. -/
def NotesShown (m : Yaml) : Prop :=
  ∀ notes, (pyIndex m "notes" : Check Yaml) = .ok notes → notes.printable = true

/-- Every message is in one of the two directions of the documentation. -/
theorem MessageKnown.direction_cases {msg : PyDict} {items : List Yaml} (hk : MessageKnown tm msg items) :
    directionIs (dictGet msg "direction") "tx" = true ∨
      directionIs (dictGet msg "direction") "rx" = true := by
  obtain ⟨d, hd, hl⟩ := hk.direction
  rw [dictGet_eq hl]
  simp only [validDirections, List.mem_cons, List.not_mem_nil, or_false] at hd
  rcases hd with rfl | rfl | rfl
  · exact .inl rfl
  · exact .inr rfl
  · exact .inl rfl

theorem returns_generateMcuDoc (hacc : ConfigAccepted root cfg tm messages)
    (hall : ∀ m ∈ ms, ∃ msg items, m = .map msg ∧ MessageKnown tm msg items) (phash : UInt32)
    {sp : PyDict} (hserial : SerialAccepted sp) :
    Returns (generateMcuDoc (.map cfg) ms tm phash (.map sp)) ↔
      (∀ key ∈ headerNumbers, (dictGet cfg key.1).printable = true) ∧
      (dictGet sp "baudrate").printable = true ∧
      ∀ m ∈ ms, NotesShown m ∧ MembersShown tm m := by
  obtain ⟨algo, halgo⟩ := hacc.returns_checksumAlgoOf
  obtain ⟨bytes, hbytes⟩ := returns_mapM.mpr hacc.returns_headByte.2
  have hfilter : ∀ d, ∃ p : Yaml → Bool,
      ms.filterM (fun m => hasDirection m d) = .ok (ms.filter p) ∧
      ∀ msg items, .map msg ∈ ms → MessageKnown tm msg items →
        p (.map msg) = directionIs (dictGet msg "direction") d := by
    intro d
    refine ⟨fun m => (hasDirection m d).toOption.getD false, filterM_eq_ok fun m hm => ?_,
      fun msg items _ hk => ?_⟩
    · obtain ⟨msg, items, rfl, hk⟩ := hall m hm
      rw [hk.hasDirection_eq]
      rfl
    · simp only [hk.hasDirection_eq]
      rfl
  have hdocs : ∀ {p : Yaml → Bool} {key : String}, key ∈ ["sub_topic", "pub_topic"] →
      (Returns ((ms.filter p).mapM (messageDoc tm key)) ↔
        ∀ m ∈ ms, p m = true → NotesShown m ∧ MembersShown tm m) := by
    intro p key hkey
    have hknown : ∀ m ∈ ms.filter p, ∃ msg items, m = .map msg ∧ MessageKnown tm msg items :=
      fun m hm => hall m (List.mem_filter.mp hm).1
    rw [returns_knownMessages (P := fun m => NotesShown m ∧ MembersShown tm m) hknown]
    · simp only [List.mem_filter, and_imp]
    · intro msg items hk
      unfold MembersShown
      rw [hk.returns_messageDoc hkey, hk.fieldsOf_eq]
      simp only [Except.ok.injEq, forall_eq']
      rfl
  obtain ⟨rx, hrx, hrxIs⟩ := hfilter "rx"
  obtain ⟨tx, htx, htxIs⟩ := hfilter "tx"
  unfold generateMcuDoc
  rw [returns_bind_ok hbytes, hserial.serialParamsOr_eq, returns_bind_ok (configGet_eq _ _ _),
    returns_bind_ok halgo, returns_bind_ok (configGet_eq _ _ _), returns_bind_ok hrx,
    returns_bind_ok htx, returns_bind_ok (configGet_eq _ _ _)]
  refine (returns_bind_and fun _ _ => ?_).trans
    (and_congr_left' (returns_configNumbers (by decide +kernel)))
  refine (returns_bind_and fun _ _ => ?_).trans (and_congr_left'
    (returns_strOf.trans (printable_dictGetD (by decide +kernel))))
  refine (returns_bind_and fun _ _ => returns_bind_pure).trans
    ((and_congr (hdocs (by simp)) (hdocs (by simp))).trans ?_)
  constructor
  · rintro ⟨hrxDocs, htxDocs⟩ m hm
    obtain ⟨msg, items, rfl, hk⟩ := hall m hm
    rcases hk.direction_cases with hd | hd
    · exact htxDocs _ hm ((htxIs msg items hm hk).trans hd)
    · exact hrxDocs _ hm ((hrxIs msg items hm hk).trans hd)
  · exact fun h => ⟨fun m hm _ => h m hm, fun m hm _ => h m hm⟩

end Generators

-- ---------------------------------------------------------------------------
-- Accepted configurations
-- ---------------------------------------------------------------------------

/-- `serial_controller.ros__parameters`. -/
def serialParamsOf (root : PyDict) : PyDict :=
  match dictGetD root "serial_controller" (.map []) with
  | .map d => (topLevelMapping (dictGetD d "ros__parameters" (.map [])) .serialParamsNotMapping).1
  | _ => []

/-- Every message has an id and a name, and what the generators show can be shown. -/
structure Generatable (root : PyDict) : Prop where
  buffer_size : (dictGet (configOf root) "buffer_size").printable = true
  numbers : ∀ key ∈ positiveKeys, (dictGet (configOf root) key.1).printable = true
  baudrate : (dictGet (serialParamsOf root) "baudrate").printable = true
  message : ∀ m ∈ messagesOf root ++ systemMessages, MessageGeneratable (mappingsOf root) m

/-- Strictly sorted by integer ids. -/
def IdLt (m m' : Yaml) : Prop := ∃ n n', m.messageId? = some n ∧ m'.messageId? = some n' ∧ n < n'

/-- All passes behind the validator complete. Every business message has an integer id in
`[0, 0xFC]` that no other one has, and a string name, and the merged list is strictly sorted. -/
structure Generates (hash : ProtocolHashInput → UInt32) (root : PyDict) : Prop where
  files : Returns (generateFiles hash (.map root))
  id : ∀ m ∈ messagesOf root, ∃ n : Int, m.messageId? = some n ∧ 0 ≤ n ∧ n ≤ 0xFC
  ids_distinct : (messagesOf root).Pairwise fun m m' => m.messageId? ≠ m'.messageId?
  name : ∀ m ∈ messagesOf root, ∃ s, m.messageName? = some s
  sorted : ∃ merged, (mergeMessages (.list (messagesOf root)) : Check (List Yaml)) = .ok merged ∧
    merged.Pairwise IdLt

theorem SerialAccepted.serial_controller {root : PyDict} (h : SerialAccepted (serialParamsOf root)) :
    ∃ d, dictGetD root "serial_controller" (.map []) = .map d ∧
      dictGetD d "ros__parameters" (.map []) = .map (serialParamsOf root) := by
  obtain ⟨s, hs⟩ := h.port
  unfold serialParamsOf at hs ⊢
  cases hd : dictGetD root "serial_controller" (.map []) with
  | map d =>
    rw [hd] at hs
    simp only at hs ⊢
    cases hp : dictGetD d "ros__parameters" (.map []) with
    | map p => exact ⟨d, rfl, hp⟩
    | _ =>
      rw [hp] at hs
      cases hs
  | _ =>
    rw [hd] at hs
    cases hs

section Generates

variable {root cfg tm sp : PyDict} {messages merged : List Yaml} {hash : ProtocolHashInput → UInt32}

/-- What is hashed of a message: its resolved types are all that may be too long. -/
theorem MessageKnown.hashedMessage_spec {msg : PyDict} {items : List Yaml}
    (hk : MessageKnown tm msg items) (hmembers : MembersShown tm (.map msg)) :
    ∃ hm, (hashedMessage tm (.map msg) : Check HashedMessage) = .ok hm ∧
      (hm.id.printable && hm.direction.printable && hm.fieldTypes.all Yaml.printable) = true := by
  obtain ⟨n, h0, h255, hid⟩ := hk.id
  obtain ⟨d, -, hdir⟩ := hk.direction
  obtain ⟨reliable, hreliable⟩ := returns_messageReliable msg
  obtain ⟨fieldTypes, htypes⟩ : Returns (items.mapM (fieldCType tm)) := by
    refine returns_mapM.mpr fun field hfield => ?_
    obtain ⟨c, hc⟩ := (hk.field field hfield).fieldCType_eq
    exact ⟨_, hc⟩
  have hfields : (pyGet? (.map msg) "fields" : Check (Option Yaml)) = .ok (some (.list items)) :=
    congrArg Except.ok hk.fields
  refine ⟨⟨.int n, .str d, reliable, fieldTypes⟩, ?_, ?_⟩
  · unfold hashedMessage
    refine bind_eq_ok.mpr ⟨_, pyIndex_eq_ok.mpr ⟨msg, rfl, hid⟩, bind_eq_ok.mpr ⟨_,
      pyIndex_eq_ok.mpr ⟨msg, rfl, hdir⟩, bind_eq_ok.mpr ⟨_, hreliable, bind_eq_ok.mpr ⟨_, hfields,
        bind_eq_ok.mpr ⟨items, rfl, bind_eq_ok.mpr ⟨_, htypes, rfl⟩⟩⟩⟩⟩⟩
  · simp only [printable_byte h0 h255, printable_str, Bool.true_and, List.all_eq_true]
    intro cType hcType
    obtain ⟨field, hfield, hc⟩ := exists_left_of_forall₂ (mapM_eq_ok.mp htypes) hcType
    exact hmembers items hk.fieldsOf_eq field hfield cType hc

/-- The hash input is dumped once the resolved types can be shown. -/
theorem ConfigAccepted.returns_calculateProtocolHash (hacc : ConfigAccepted root cfg tm messages)
    (hmerged : (mergeMessages (.list messages) : Check (List Yaml)) = .ok merged)
    (hall : ∀ m ∈ merged, ∃ msg items, m = .map msg ∧ MessageKnown tm msg items)
    (hmembers : ∀ m ∈ merged, MembersShown tm m) :
    Returns (calculateProtocolHash hash (.map root)) := by
  have hspec : ∀ m ∈ merged, ∃ hm, (hashedMessage tm m : Check HashedMessage) = .ok hm ∧
      (hm.id.printable && hm.direction.printable && hm.fieldTypes.all Yaml.printable) = true := by
    intro m hm
    obtain ⟨msg, items, rfl, hk⟩ := hall m hm
    exact hk.hashedMessage_spec (hmembers _ hm)
  obtain ⟨hashed, hhashed⟩ : Returns (merged.mapM (hashedMessage tm) : Check (List HashedMessage)) :=
    returns_mapM.mpr fun m hm => (hspec m hm).imp fun _ h => h.1
  obtain ⟨n₁, h0₁, h255₁, hhead₁⟩ := hacc.headByte "head_byte_1" (by simp)
  obtain ⟨n₂, h0₂, h255₂, hhead₂⟩ := hacc.headByte "head_byte_2" (by simp)
  rw [mergeMessages_list] at hmerged
  have hinput := hacc.protocolHashInput_eq_ok ⟨.int n₁, .int n₂, checksumText cfg,
    (dictGetD cfg "require_handshake" (.bool true)).truthy, hashed⟩
  unfold calculateProtocolHash
  rw [returns_bind_ok (hinput.mpr ⟨merged, hmerged, mapM_eq_ok.mp hhashed, hhead₁, hhead₂, rfl, rfl⟩),
    if_pos]
  · exact returns_pure _
  · unfold ProtocolHashInput.printable
    simp only [printable_byte h0₁ h255₁, printable_byte h0₂ h255₂, Bool.true_and, List.all_eq_true]
    intro hm hhm
    obtain ⟨m, hm', hok⟩ := exists_left_of_forall₂ (mapM_eq_ok.mp hhashed) hhm
    obtain ⟨hm₀, hok₀, hprintable⟩ := hspec m hm'
    obtain rfl := Except.ok.inj (hok.symm.trans hok₀)
    exact hprintable

/-- A system message is described as sent, and its fields have no ROS path. -/
theorem system_sent {msg : PyDict} (h : .map msg ∈ systemMessages) :
    directionIs (dictGet msg "direction") "tx" = true ∧
      ∀ items, (pyIndex (.map msg) "fields" : Check Yaml) = .ok (.list items) →
        ∀ field ∈ items, RosPathShown field := by
  have hfield : ∀ proto type, RosPathShown (systemField proto type) := by
    rintro proto type path ⟨⟩
  have hall : ∀ m ∈ systemMessages, ∀ msg, m = .map msg →
      directionIs (dictGet msg "direction") "tx" = true ∧
        ∀ items, (pyIndex (.map msg) "fields" : Check Yaml) = .ok (.list items) →
          ∀ field ∈ items, RosPathShown field := by
    simp only [systemMessages, List.forall_mem_cons]
    refine ⟨?_, ?_, ?_, List.forall_mem_nil _⟩ <;> rintro msg ⟨⟩ <;> refine ⟨rfl, ?_⟩ <;> rintro items ⟨⟩ <;>
      simp only [List.forall_mem_cons]
    · exact ⟨hfield _ _, hfield _ _, List.forall_mem_nil _⟩
    · exact ⟨hfield _ _, List.forall_mem_nil _⟩
    · exact ⟨hfield _ _, List.forall_mem_nil _⟩
  exact hall _ h msg rfl

/-- What the passes ask of one message is that it is generatable. -/
theorem messageGeneratable_iff {m : Yaml} (hm : ∃ msg items, m = .map msg ∧ MessageKnown tm msg items)
    {qosDepth : Yaml} (hqos : qosDepth.printable = true) :
    MessageGeneratable tm m ↔
      Returns (upperName m) ∧ MembersShown tm m ∧ Returns (packetDescription m) ∧
      Returns (subscription tm qosDepth m) ∧ Returns (dispatchCase tm m) ∧ NotesShown m := by
  obtain ⟨msg, items, rfl, hk⟩ := hm
  have hfields : (pyIndex (.map msg) "fields" : Check Yaml) = .ok (.list items) :=
    pyIndex_eq_ok.mpr ⟨msg, rfl, hk.fields⟩
  unfold MembersShown NotesShown
  rw [hk.returns_upperName, hk.returns_packetDescription, hk.returns_subscription,
    hk.returns_dispatchCase, hk.fieldsOf_eq]
  simp only [Except.ok.injEq, forall_eq']
  constructor
  · rintro ⟨-, hname, hnotes, hfield⟩
    have hfield := hfield items hfields
    exact ⟨hname, fun field hf => (hfield field hf).cType,
      fun _ => ⟨hk.returns_upperName.mpr hname, fun field hf => (hfield field hf).type⟩,
      fun _ _ => ⟨hqos, fun field hf => (hfield field hf).path, fun field hf => (hfield field hf).cType,
        hk.returns_upperName.mpr hname⟩,
      fun _ _ => ⟨hk.returns_upperName.mpr hname, fun field hf => (hfield field hf).path,
        fun field hf => (hfield field hf).type⟩, hnotes⟩
  · rintro ⟨hname, hcTypes, hdescribe, hsubscribe, hdispatch, hnotes⟩
    refine ⟨?_, hname, hnotes, fun items' hitems' field hfield => ?_⟩
    · obtain ⟨n, -, -, hid⟩ := hk.id
      rw [show (pyIndex (.map msg) "id" : Check Yaml) = .ok (.int n) from
        pyIndex_eq_ok.mpr ⟨msg, rfl, hid⟩]
      exact nofun
    · obtain rfl := Yaml.list.inj (Except.ok.inj (hfields.symm.trans hitems'))
      rcases hk.source with hformed | hsystem
      · rcases hk.direction_cases with htx | hrx
        · exact ⟨(hdescribe htx).2 field hfield, hcTypes field hfield,
            (hsubscribe hformed htx).2.1 field hfield⟩
        · obtain ⟨-, hpaths, htypes⟩ := hdispatch hformed hrx
          exact ⟨htypes field hfield, hcTypes field hfield, hpaths field hfield⟩
      · obtain ⟨htx, hpath⟩ := system_sent hsystem
        exact ⟨(hdescribe htx).2 field hfield, hcTypes field hfield, hpath items hfields field hfield⟩

/-- **The passes behind an accepted configuration.** -/
theorem ConfigAccepted.returns_generateFiles (hacc : ConfigAccepted root cfg tm messages)
    (hmerged : (mergeMessages (.list messages) : Check (List Yaml)) = .ok merged)
    (hall : ∀ m ∈ merged, ∃ msg items, m = .map msg ∧ MessageKnown tm msg items)
    (hserial : SerialAccepted (serialParamsOf root)) :
    Returns (generateFiles hash (.map root)) ↔
      (dictGet cfg "buffer_size").printable = true ∧
      (∀ key ∈ positiveKeys, (dictGet cfg key.1).printable = true) ∧
      (dictGet (serialParamsOf root) "baudrate").printable = true ∧
      ∀ m ∈ merged, MessageGeneratable tm m := by
  obtain ⟨d, hd, hparams⟩ := hserial.serial_controller
  have htm : (typeMappingsOf (if (Yaml.map tm).truthy then .map tm else .map []) : Check PyDict) =
      .ok tm := by
    cases tm <;> rfl
  have hget : ∀ (key : String) (dflt : Yaml),
      ((dictLookup root (.str key)).getD dflt) = dictGetD root key dflt := fun _ _ => rfl
  unfold generateFiles
  rw [returns_bind_ok (pyIndex_eq_ok.mpr ⟨root, rfl, hacc.config⟩),
    returns_bind_ok (x := pyGet? (.map root) "type_mappings") rfl, hget, hacc.type_mappings,
    returns_bind_ok htm, returns_bind_ok (x := pyGet? (.map root) "serial_controller") rfl, hget, hd,
    returns_bind_ok (x := pyGet? (.map d) "ros__parameters") rfl, ← dictGetD, hparams,
    returns_bind_ok (x := pyGet? (.map root) "messages") rfl, hget, hacc.messages_list,
    returns_bind_ok hmerged]
  have hkeys : ∀ P : String × Int → Prop,
      (∀ key ∈ positiveKeys, P key) ↔ ∀ key ∈ ("qos_depth", 10) :: headerNumbers, P key :=
    fun P => forall_congr' fun key =>
      imp_congr_left (List.perm_append_singleton _ headerNumbers).mem_iff
  have hten : (Yaml.int 10).printable = true := by decide +kernel
  rw [hkeys]
  constructor
  · intro h
    obtain ⟨phash, -, h⟩ := returns_bind.mp h
    obtain ⟨header, hheader, h⟩ := returns_bind.mp h
    obtain ⟨source, -, h⟩ := returns_bind.mp h
    obtain ⟨cppConfig, hcpp, h⟩ := returns_bind.mp h
    obtain ⟨bindings, hbindings, h⟩ := returns_bind.mp h
    obtain ⟨doc, hdoc, -⟩ := returns_bind.mp h
    obtain ⟨-, hnames, hmembers⟩ := (returns_generateMcuHeader hacc hall phash).mp ⟨_, hheader⟩
    obtain ⟨hbaudrate, hbuffer, hnumbers, -⟩ :=
      (returns_generateCppConfig hacc hall hserial).mp ⟨_, hcpp⟩
    have hqos := hnumbers _ List.mem_cons_self
    obtain ⟨hdescribe, hsubscribe, hdispatch⟩ :=
      (returns_generateRosBindings hall hqos).mp ⟨_, hbindings⟩
    obtain ⟨-, -, hnotes⟩ := (returns_generateMcuDoc hacc hall phash hserial).mp ⟨_, hdoc⟩
    refine ⟨hbuffer, hnumbers, hbaudrate, fun m hm => ?_⟩
    exact (messageGeneratable_iff (hall m hm) ((printable_dictGetD hten).mpr hqos)).mpr
      ⟨hnames _ hm, hmembers _ hm, hdescribe _ hm, hsubscribe _ hm, hdispatch _ hm, (hnotes _ hm).1⟩
  · rintro ⟨hbuffer, hnumbers, hbaudrate, hmessage⟩
    have hqos := hnumbers _ List.mem_cons_self
    have hheaderNumbers := fun key hkey => hnumbers key (List.mem_cons_of_mem _ hkey)
    have hparts := fun m hm =>
      (messageGeneratable_iff (hall m hm) ((printable_dictGetD hten).mpr hqos)).mp (hmessage m hm)
    have hnames := fun m hm => (hparts m hm).1
    have hmembers := fun m hm => (hparts m hm).2.1
    obtain ⟨phash, hphash⟩ := hacc.returns_calculateProtocolHash hmerged hall hmembers
    obtain ⟨header, hheader⟩ := (returns_generateMcuHeader hacc hall phash).mpr
      ⟨hheaderNumbers, hnames, hmembers⟩
    obtain ⟨source, hsource⟩ := returns_generateMcuSource hacc hall hnames
    obtain ⟨cppConfig, hcpp⟩ := (returns_generateCppConfig hacc hall hserial).mpr
      ⟨hbaudrate, hbuffer, hnumbers, hnames⟩
    obtain ⟨bindings, hbindings⟩ := (returns_generateRosBindings hall hqos).mpr
      ⟨fun m hm => (hparts m hm).2.2.1, fun m hm => (hparts m hm).2.2.2.1,
        fun m hm => (hparts m hm).2.2.2.2.1⟩
    obtain ⟨doc, hdoc⟩ := (returns_generateMcuDoc hacc hall phash hserial).mpr
      ⟨hheaderNumbers, hbaudrate, fun m hm => ⟨(hparts m hm).2.2.2.2.2, hmembers m hm⟩⟩
    rw [returns_bind_ok hphash, returns_bind_ok hheader, returns_bind_ok hsource, returns_bind_ok hcpp,
      returns_bind_ok hbindings, returns_bind_ok hdoc]
    exact returns_pure _

/-- A message that is not a mapping cannot be sorted; another one can, if its id is no `null`. -/
theorem ConfigAccepted.returns_sortKey (hacc : ConfigAccepted root cfg tm messages) {m : Yaml}
    (hm : m ∈ messages ++ systemMessages) (hid : (pyIndex m "id" : Check Yaml) ≠ .ok .null) :
    Returns (sortKey m : Check ℚ) := by
  rcases List.mem_append.mp hm with hm | hm
  · obtain ⟨msg, rfl, hmsg⟩ := hacc.message m hm
    rcases hmsg.id with hnull | ⟨n, -, -, hn⟩
    · exact absurd (pyIndex_eq_ok.mpr ⟨msg, rfl, hnull⟩) hid
    · exact ⟨_, bind_eq_ok.mpr ⟨_, pyIndex_eq_ok.mpr ⟨msg, rfl, hn⟩, rfl⟩⟩
  · have hsystem : ∀ m ∈ systemMessages, Returns (sortKey m : Check ℚ) := by
      simp only [systemMessages, List.forall_mem_cons]
      exact ⟨⟨_, rfl⟩, ⟨_, rfl⟩, ⟨_, rfl⟩, List.forall_mem_nil _⟩
    exact hsystem m hm

/-- Sorting an accepted configuration orders the messages strictly. -/
theorem ConfigAccepted.pairwise_idLt (hacc : ConfigAccepted root cfg tm messages)
    (hmerged : (sortedById (messages ++ systemMessages) : Check (List Yaml)) = .ok merged) :
    merged.Pairwise IdLt := by
  obtain ⟨hperm, hsorted, -⟩ := sortedById_spec hmerged
  have hnodup := hacc.merged_ids_nodup hperm
  rw [List.Nodup, List.pairwise_filterMap] at hnodup
  refine (hsorted.and hnodup).imp_of_mem ?_
  rintro m m' hm hm' ⟨⟨q, q', hq, hq', hle⟩, hne⟩
  obtain ⟨n, hn, rfl⟩ := hacc.messageId_of_sortKey (hperm.mem_iff.mp hm) hq
  obtain ⟨n', hn', rfl⟩ := hacc.messageId_of_sortKey (hperm.mem_iff.mp hm') hq'
  have hle : n ≤ n' := by exact_mod_cast hle
  exact ⟨n, n', hn, hn', lt_of_le_of_ne hle (hne n hn n' hn')⟩

/-- The types of the system messages were sized against the buffer. -/
theorem ConfigAccepted.systemTypesSized (hacc : ConfigAccepted root cfg tm messages) :
    SystemTypesSized tm := by
  obtain ⟨n, -, -, merged, sizes, hmerged, hsizes, -⟩ := hacc.buffer_size
  rw [mergeMessages_list] at hmerged
  refine returns_systemMessages.mp fun m hm => returns_mapM.mp ⟨sizes, hsizes⟩ m ?_
  exact (sortedById_spec hmerged).1.mem_iff.mpr (List.mem_append_right _ hm)

/-- **The configuration the validator returns.** -/
theorem ConfigAccepted.generates_iff (hacc : ConfigAccepted root cfg tm messages)
    (hformed : ∀ msg, .map msg ∈ messages → MessageFormed msg)
    (hserial : SerialAccepted (serialParamsOf root)) :
    Generates hash root ↔ Generatable root := by
  have hall : ∀ {merged}, (sortedById (messages ++ systemMessages) : Check (List Yaml)) = .ok merged →
      (∀ m, m ∈ merged ↔ m ∈ messages ++ systemMessages) ∧
      ∀ m ∈ merged, ∃ msg items, m = .map msg ∧ MessageKnown tm msg items := by
    intro merged hmerged
    have hmem := fun m => (sortedById_spec hmerged).1.mem_iff (a := m)
    refine ⟨hmem, fun m hm => ?_⟩
    have hm := (hmem m).mp hm
    exact hacc.known hformed hacc.systemTypesSized hm ((sortedById_spec hmerged).2.2 m hm)
  constructor
  · rintro ⟨hfiles, -, -, -, merged, hmerged, -⟩
    rw [hacc.messagesOf_eq] at hmerged
    have hsorted := mergeMessages_list messages ▸ hmerged
    obtain ⟨hmem, hknown⟩ := hall hsorted
    obtain ⟨hbuffer, hnumbers, hbaudrate, hmessage⟩ :=
      (hacc.returns_generateFiles hmerged hknown hserial).mp hfiles
    refine ⟨?_, ?_, hbaudrate, ?_⟩
    · rwa [hacc.configOf_eq]
    · rwa [hacc.configOf_eq]
    · rw [hacc.messagesOf_eq, hacc.mappingsOf_eq]
      exact fun m hm => hmessage m ((hmem m).mpr hm)
  · rintro ⟨hbuffer, hnumbers, hbaudrate, hmessage⟩
    rw [hacc.configOf_eq] at hbuffer hnumbers
    rw [hacc.messagesOf_eq, hacc.mappingsOf_eq] at hmessage
    obtain ⟨merged, hmerged⟩ : Returns (sortedById (messages ++ systemMessages) : Check (List Yaml)) :=
      returns_sortedById.mpr fun m hm => hacc.returns_sortKey hm (hmessage m hm).id
    have hsorted := (mergeMessages_list messages).trans hmerged
    obtain ⟨hmem, hknown⟩ := hall hmerged
    have hid : ∀ m ∈ messages, ∃ n : Int, m.messageId? = some n ∧ 0 ≤ n ∧ n ≤ 0xFC := by
      intro m hm
      have hne := (hmessage m (List.mem_append_left _ hm)).id
      obtain ⟨msg, rfl, hmsg⟩ := hacc.message m hm
      rcases hmsg.id with hnull | ⟨n, h0, hlt, hn⟩
      · exact absurd (pyIndex_eq_ok.mpr ⟨msg, rfl, hnull⟩) hne
      · refine ⟨n, ?_, h0, by omega⟩
        rw [Yaml.messageId?, dictGet_eq hn]
        rfl
    refine ⟨?_, ?_, ?_, ?_, ?_⟩
    · exact (hacc.returns_generateFiles hsorted hknown hserial).mpr
        ⟨hbuffer, hnumbers, hbaudrate, fun m hm => hmessage m ((hmem m).mp hm)⟩
    · rwa [hacc.messagesOf_eq]
    · rw [hacc.messagesOf_eq]
      have hnodup := hacc.ids_nodup
      rw [List.Nodup, List.pairwise_filterMap] at hnodup
      refine hnodup.imp_of_mem fun {m m'} hm hm' hne heq => ?_
      obtain ⟨n, hn, -⟩ := hid m hm
      exact hne n hn n (heq ▸ hn) rfl
    · rw [hacc.messagesOf_eq]
      intro m hm
      have hne := (hmessage m (List.mem_append_left _ hm)).name
      obtain ⟨msg, rfl, hmsg⟩ := hacc.message m hm
      rcases hmsg.name with hnull | ⟨s, -, hs⟩
      · exact absurd (pyIndex_eq_ok.mpr ⟨msg, rfl, hnull⟩) hne
      · refine ⟨s, ?_⟩
        rw [Yaml.messageName?, dictGet_eq hs]
        rfl
    · rw [hacc.messagesOf_eq]
      exact ⟨merged, hsorted, hacc.pairwise_idLt hmerged⟩

end Generates

-- ---------------------------------------------------------------------------
-- Validation and generation
-- ---------------------------------------------------------------------------

section Validated

variable {root msg msg' tm : PyDict} {messages : List Yaml}

theorem messageGeneratable_congr (hkeep : ∀ key, key ≠ "debug_log_mode" →
      dictLookup msg' (.str key) = dictLookup msg (.str key)) :
    MessageGeneratable tm (.map msg) ↔ MessageGeneratable tm (.map msg') := by
  have hindex : ∀ key, key ≠ "debug_log_mode" →
      (pyIndex (.map msg') key : Check Yaml) = pyIndex (.map msg) key := by
    intro key hne
    rw [pyIndex, pyIndex, hkeep key hne]
  have hid := hindex "id" (by decide)
  have hname := hindex "name" (by decide)
  have hnotes := hindex "notes" (by decide)
  have hfields := hindex "fields" (by decide)
  constructor
  · rintro ⟨h₁, h₂, h₃, h₄⟩
    exact ⟨hid ▸ h₁, hname ▸ h₂, hnotes ▸ h₃, hfields ▸ h₄⟩
  · rintro ⟨h₁, h₂, h₃, h₄⟩
    exact ⟨hid ▸ h₁, hname ▸ h₂, hnotes ▸ h₃, hfields ▸ h₄⟩

theorem Validated.serialAccepted (h : Validated root messages) : SerialAccepted (serialParamsOf root) := by
  obtain ⟨d, sp, hd, hsp, hcheck⟩ := h.serial_controller
  have hparams : serialParamsOf root = sp := by
    unfold serialParamsOf
    rw [hd]
    simp only
    rw [hsp, topLevelMapping]
  rw [hparams]
  unfold checkSerialParams at hcheck
  simp only [List.append_eq_nil_iff, errorUnless_eq_nil] at hcheck
  obtain ⟨⟨-, hbaudrate⟩, hport⟩ := hcheck
  constructor
  · split at hport
    · next s hs => exact ⟨s, lookup_of_dictGetD (Yaml.asStr?_eq_some.mp hs) (by rintro ⟨⟩)⟩
    · cases hport
  · obtain ⟨n, -, hn⟩ := isPositiveInt_iff.mp hbaudrate
    exact ⟨n, lookup_of_dictGetD hn (by rintro ⟨⟩)⟩

/-- The values assigned in place are not among those that matter. -/
theorem Validated.generatable_iff (h : Validated root messages) :
    Generatable (assignedRoot root (configOf root) messages) ↔ Generatable root := by
  have hserial : serialParamsOf (assignedRoot root (configOf root) messages) = serialParamsOf root := by
    unfold serialParamsOf dictGetD
    rw [assignedRoot_lookup_ne _ _ _ (by decide) (by decide)]
  have hconfig : ∀ key, key ≠ "checksum" →
      dictGet (configOf (assignedRoot root (configOf root) messages)) key =
        dictGet (configOf root) key := by
    intro key hne
    rw [configOf_assignedRoot]
    exact dictGet_congr (dictLookup_dictSet_ne _ _ hne)
  have hmessages : messagesOf (assignedRoot root (configOf root) messages) = messages :=
    messagesOf_assignedRoot _ h
  have hall : (∀ m ∈ messagesOf root, MessageGeneratable (mappingsOf root) m) ↔
      ∀ m ∈ messages, MessageGeneratable (mappingsOf root) m := by
    refine forall_mem_congr_of_forall₂ (checkMessages_forall₂ (R := fun m m' =>
      MessageGeneratable (mappingsOf root) m ↔ MessageGeneratable (mappingsOf root) m')
      (fun hm hes => ?_) h.loop) fun _ _ => id
    rw [hes rfl] at hm
    obtain ⟨label, msg₀, msg, rfl, rfl, hclean, -⟩ := checkMessage_clean hm
    exact messageGeneratable_congr hclean.kept
  have hne : ∀ key ∈ positiveKeys, key.1 ≠ "checksum" := by decide
  constructor
  · rintro ⟨hbuffer, hnumbers, hbaudrate, hmessage⟩
    rw [hmessages, mappingsOf_assignedRoot, List.forall_mem_append] at hmessage
    refine ⟨hconfig "buffer_size" (by decide) ▸ hbuffer, fun key hkey => ?_, hserial ▸ hbaudrate,
      List.forall_mem_append.mpr ⟨hall.mpr hmessage.1, hmessage.2⟩⟩
    exact hconfig _ (hne key hkey) ▸ hnumbers key hkey
  · rintro ⟨hbuffer, hnumbers, hbaudrate, hmessage⟩
    rw [List.forall_mem_append] at hmessage
    refine ⟨(hconfig "buffer_size" (by decide)).symm ▸ hbuffer, fun key hkey => ?_, hserial.symm ▸ hbaudrate, ?_⟩
    · exact (hconfig _ (hne key hkey)).symm ▸ hnumbers key hkey
    · rw [hmessages, mappingsOf_assignedRoot, List.forall_mem_append]
      exact ⟨hall.mp hmessage.1, hmessage.2⟩

end Validated

/-- A path without an index asks for no length. -/
theorem rosPathShown_data {f : PyDict} (h : dictLookup f (.str "ros") = some (.str "data")) :
    RosPathShown (.map f) := by
  have hsegments : ∀ segment ∈ splitChars '.' "data".toList,
      rosFieldSegment segment = some ("data".toList, none) := by decide
  intro path hpath segment hsegment name digits n hindex
  obtain rfl : "data" = path := by
    have hindex := hpath.symm.trans (pyIndex_eq_ok.mpr ⟨f, rfl, h⟩)
    simpa using hindex.symm
  cases (hsegments segment hsegment).symm.trans hindex

/-- A field whose type and resolved type are strings. -/
theorem fieldGeneratable_of_str {tm f : PyDict} {type cType : String}
    (htype : (pyIndex (.map f) "type" : Check Yaml) = .ok (.str type))
    (hcType : fieldCType tm (.map f) = .ok (.str cType)) (hpath : RosPathShown (.map f)) :
    FieldGeneratable tm (.map f) := by
  refine ⟨fun ftype h => ?_, fun c h => ?_, hpath⟩
  · obtain rfl := Except.ok.inj (htype.symm.trans h)
    exact printable_str type
  · obtain rfl := Except.ok.inj (hcType.symm.trans h)
    exact printable_str cType

/-- `config/protocol.yaml` is generatable. -/
theorem generatable_demo : ∃ root, demoConfig = .map root ∧ Generatable root := by
  refine ⟨_, rfl, by decide +kernel, by decide +kernel, by decide +kernel, ?_⟩
  have hsystem : ∀ {tm : PyDict} {name notes : String} {id : Int} {items : List Yaml},
      (∀ field ∈ items, FieldGeneratable tm field) →
      MessageGeneratable tm (systemMessage name id notes items) := by
    intro tm name notes id items hfield
    refine ⟨by rintro ⟨⟩, by rintro ⟨⟩, ?_, ?_⟩
    · rintro _ ⟨⟩
      exact printable_str notes
    · rintro _ ⟨⟩
      exact hfield
  have hpath : ∀ proto type, RosPathShown (systemField proto type) := by
    rintro proto type path ⟨⟩
  refine List.forall_mem_append.mpr ⟨?_, ?_⟩
  · have hmessage : ∀ {tm msg f : PyDict} {name : String} {id : Int},
        (pyIndex (.map msg) "name" : Check Yaml) = .ok (.str name) →
        (pyIndex (.map msg) "id" : Check Yaml) = .ok (.int id) → dictLookup msg (.str "notes") = none →
        (pyIndex (.map msg) "fields" : Check Yaml) = .ok (.list [.map f]) →
        FieldGeneratable tm (.map f) → MessageGeneratable tm (.map msg) := by
      intro tm msg f name id hname hid hnotes hfields hfield
      refine ⟨by rw [hid]; rintro ⟨⟩, by rw [hname]; rintro ⟨⟩, fun notes h => ?_, fun items h => ?_⟩
      · obtain ⟨d, hd, hl⟩ := pyIndex_eq_ok.mp h
        obtain rfl := Yaml.map.inj hd
        cases hnotes.symm.trans hl
      · obtain rfl := Yaml.list.inj (Except.ok.inj (hfields.symm.trans h))
        exact List.forall_mem_singleton.mpr hfield
    show ∀ m ∈ [_, _, _], _
    simp only [List.forall_mem_cons]
    exact ⟨hmessage rfl rfl rfl rfl (fieldGeneratable_of_str rfl rfl (rosPathShown_data rfl)),
      hmessage rfl rfl rfl rfl (fieldGeneratable_of_str rfl rfl (rosPathShown_data rfl)),
      hmessage rfl rfl rfl rfl (fieldGeneratable_of_str rfl rfl (rosPathShown_data rfl)), List.forall_mem_nil _⟩
  · simp only [systemMessages, List.forall_mem_cons, ackMessage, heartbeatMessage, handshakeMessage]
    refine ⟨hsystem ?_, hsystem ?_, hsystem ?_, List.forall_mem_nil _⟩
    · simp only [List.forall_mem_cons]
      exact ⟨fieldGeneratable_of_str rfl rfl (hpath _ _), fieldGeneratable_of_str rfl rfl (hpath _ _), List.forall_mem_nil _⟩
    · simp only [List.forall_mem_cons]
      exact ⟨fieldGeneratable_of_str rfl rfl (hpath _ _), List.forall_mem_nil _⟩
    · simp only [List.forall_mem_cons]
      exact ⟨fieldGeneratable_of_str rfl rfl (hpath _ _), List.forall_mem_nil _⟩

/-- `config/protocol.yaml` with one message, whose id was left empty. -/
def nullIdConfig : Yaml :=
  .map [(.str "serial_controller", demoSerialController), (.str "config", demoSettings 1024),
    (.str "type_mappings", demoTypeMappings []),
    (.str "messages", .list [.map [(.str "name", .str "DemoCommand"), (.str "id", .null),
      (.str "direction", .str "tx"), (.str "sub_topic", .str "demo/command"),
      (.str "ros_msg", .str "std_msgs/msg/UInt32"), (.str "fields", .list [.map [
        (.str "proto", .str "value"), (.str "type", .str "u32"), (.str "ros", .str "data")]])]])]

end AutoSerialBridge
