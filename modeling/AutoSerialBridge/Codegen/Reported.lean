import AutoSerialBridge.Codegen.HashInput
import AutoSerialBridge.Codegen.Target

/-!
# Auto Serial Bridge — which configurations the validator reports on

`validate_protocol` records an error and goes on with the same data. `Reportable` says of a
configuration where that goes well: what the later steps hash, index or show can be hashed, indexed
and shown. Everything else raises.

## Results

* `checkMessages_returns` — the loop over the messages.
* `validateProtocol_reports_iff` — **the validator returns or exits with its list of errors if and only
  if the configuration is reportable**.
* `not_reports_untyped` — a field without a type.
-/

namespace AutoSerialBridge

open Lib

-- ---------------------------------------------------------------------------
-- Errors that can be shown
-- ---------------------------------------------------------------------------

/-- The text of every error can be built. -/
def Shown (errors : List ProtocolError) : Prop := ∀ e ∈ errors, ∀ v ∈ e.shown, v.printable = true

theorem returns_report {errors : List ProtocolError} : Returns (report errors) ↔ Shown errors := by
  constructor
  · rintro ⟨es, h⟩
    exact (report_eq_ok.mp h).1
  · exact fun h => ⟨errors, report_eq_ok.mpr ⟨h, rfl⟩⟩

theorem returns_strOf {v : Yaml} : Returns (strOf v : Check String) ↔ v.printable = true := by
  unfold strOf
  split_ifs with h
  · exact iff_of_true (returns_ok _) h
  · exact iff_of_false nofun h

@[simp] theorem shown_nil : Shown [] := nofun

@[simp] theorem shown_append {es es' : List ProtocolError} :
    Shown (es ++ es') ↔ Shown es ∧ Shown es' :=
  List.forall_mem_append

@[simp] theorem shown_singleton {e : ProtocolError} :
    Shown [e] ↔ ∀ v ∈ e.shown, v.printable = true := by
  unfold Shown
  rw [List.forall_mem_singleton]

theorem shown_errorUnless {ok : Bool} {e : ProtocolError} :
    Shown (errorUnless ok e) ↔ ok = true ∨ ∀ v ∈ e.shown, v.printable = true := by
  cases ok <;> simp [errorUnless]

theorem shown_flatMap {α : Type} {f : α → List ProtocolError} {xs : List α}
    (h : ∀ x ∈ xs, Shown (f x)) : Shown (xs.flatMap f) := by
  intro e he
  obtain ⟨x, hx, he⟩ := List.mem_flatMap.mp he
  exact h x hx e he

theorem printable_str (s : String) : (Yaml.str s).printable = true := rfl

/-- A number with no more digits can be shown too. -/
theorem printable_int_of_le {m n : Int} (hle : m.natAbs ≤ n.natAbs)
    (hn : (Yaml.int n).printable = true) : (Yaml.int m).printable = true := by
  simp only [Yaml.printable, Scalar.printable, decide_eq_true_eq] at hn ⊢
  exact Nat.lt_of_le_of_lt hle hn

/-- A default that can be shown does not matter. -/
theorem printable_dictGetD {d : PyDict} {key : String} {dflt : Yaml} (hdflt : dflt.printable = true) :
    (dictGetD d key dflt).printable = true ↔ (dictGet d key).printable = true := by
  unfold dictGet dictGetD
  cases dictLookup d (.str key) with
  | none => exact iff_of_true hdflt rfl
  | some v => rfl

-- ---------------------------------------------------------------------------
-- Fields
-- ---------------------------------------------------------------------------

/-- A type that resolves to a scalar can be looked up and sized. -/
def TypeSized (tm : PyDict) (ftype : Yaml) (c : Scalar) : Prop :=
  ∃ t, ftype = .scalar t ∧ (dictLookup tm t).getD (.scalar t) = .scalar c

/-- A field that is reported on: it has a type, which resolves to a scalar; and what its errors would
show can be shown. -/
def FieldReportable (tm : PyDict) (field : Yaml) : Prop :=
  ∃ f ftype c, field = .map f ∧ dictLookup f (.str "type") = some ftype ∧ TypeSized tm ftype c ∧
    (isSupported (.scalar c) = .ok true ∨ ftype.printable = true) ∧
    (dictGet f "proto").printable = true

section Fields

variable {tm : PyDict} {label : Yaml} {seen : List String}

theorem getCType_eq_ok {ftype cType : Yaml} :
    (getCType ftype tm : Check Yaml) = .ok cType ↔
      ∃ t, ftype = .scalar t ∧ (dictLookup tm t).getD (.scalar t) = cType := by
  unfold getCType
  cases ftype with
  | scalar t =>
    rw [bind_eq_ok]
    constructor
    · rintro ⟨key, hkey, h⟩
      obtain rfl := Except.ok.inj hkey
      exact ⟨t, rfl, pure_eq_ok.mp h⟩
    · rintro ⟨t', ht, h⟩
      obtain rfl := Yaml.scalar.inj ht
      exact ⟨t, rfl, pure_eq_ok.mpr h⟩
  | _ => exact iff_of_false nofun (by rintro ⟨t, ⟨⟩, -⟩)

theorem returns_hashable {v : Yaml} : Returns (hashable v : Check Scalar) ↔ ∃ s, v = .scalar s := by
  cases v with
  | scalar s => exact iff_of_true ⟨s, rfl⟩ ⟨s, rfl⟩
  | _ => exact iff_of_false nofun nofun

/-- Sizing a type hashes it, and what it resolves to. -/
theorem returns_typeSize {ftype : Yaml} :
    Returns ((getCType ftype tm : Check Yaml) >>= cTypeSize) ↔ ∃ c, TypeSized tm ftype c := by
  rw [returns_bind]
  constructor
  · rintro ⟨cType, hct, hsize⟩
    obtain ⟨t, rfl, hresolve⟩ := getCType_eq_ok.mp hct
    unfold cTypeSize at hsize
    obtain ⟨c, hc, -⟩ := returns_bind.mp hsize
    obtain ⟨c, rfl⟩ := returns_hashable.mp ⟨c, hc⟩
    exact ⟨c, t, rfl, hresolve⟩
  · rintro ⟨c, t, rfl, hresolve⟩
    refine ⟨.scalar c, getCType_eq_ok.mpr ⟨t, rfl, hresolve⟩, ?_⟩
    unfold cTypeSize
    refine returns_bind.mpr ⟨c, rfl, ?_⟩
    cases c <;> exact returns_pure _

theorem returns_fieldSize {field : Yaml} :
    Returns (fieldSize tm field : Check Nat) ↔
      ∃ f ftype c, field = .map f ∧ dictLookup f (.str "type") = some ftype ∧
        TypeSized tm ftype c := by
  unfold fieldSize
  rw [returns_bind]
  constructor
  · rintro ⟨ftype, hf, h⟩
    obtain ⟨f, rfl, hl⟩ := pyIndex_eq_ok.mp hf
    obtain ⟨c, hc⟩ := returns_typeSize.mp h
    exact ⟨f, ftype, c, rfl, hl, hc⟩
  · rintro ⟨f, ftype, c, rfl, hl, hc⟩
    exact ⟨ftype, pyIndex_eq_ok.mpr ⟨f, rfl, hl⟩, returns_typeSize.mpr ⟨c, hc⟩⟩

theorem FieldReportable.returns_fieldSize {field : Yaml} (h : FieldReportable tm field) :
    Returns (fieldSize tm field : Check Nat) := by
  obtain ⟨f, ftype, c, hf, hl, hc, -⟩ := h
  exact AutoSerialBridge.returns_fieldSize.mpr ⟨f, ftype, c, hf, hl, hc⟩

/-- The name of a field is shown unless it is a string. -/
theorem shown_checkFieldName {f : PyDict} (hlabel : label.printable = true) :
    Shown (checkFieldName label f seen).2 ↔ (dictGet f "proto").printable = true := by
  unfold checkFieldName
  split
  · next name hname =>
    rw [hname]
    refine iff_of_true ?_ (printable_str name)
    split_ifs <;> simp [ProtocolError.shown, hlabel, printable_str]
  · simp [ProtocolError.shown, hlabel]

theorem shown_checkFieldPath {f : PyDict} (hlabel : label.printable = true)
    (hproto : (dictGet f "proto").printable = true) : Shown (checkFieldPath label f) := by
  have hproto := (printable_dictGetD (printable_str "?")).mpr hproto
  unfold checkFieldPath
  split
  · split_ifs
    · simp [ProtocolError.shown, hlabel, hproto]
    · split <;> simp [ProtocolError.shown, hlabel, hproto]
  · simp [ProtocolError.shown, hlabel, hproto]

theorem returns_checkFieldType {f : PyDict} (hlabel : label.printable = true)
    (hproto : (dictGet f "proto").printable = true) :
    Returns (checkFieldType label f tm) ↔ ∃ c, TypeSized tm (dictGetD f "type" (.str "")) c ∧
      (isSupported (.scalar c) = .ok true ∨ (dictGetD f "type" (.str "")).printable = true) := by
  have hproto := (printable_dictGetD (printable_str "?")).mpr hproto
  unfold checkFieldType
  rw [returns_bind]
  constructor
  · rintro ⟨cType, hct, h⟩
    obtain ⟨t, ht, hresolve⟩ := getCType_eq_ok.mp hct
    obtain ⟨ok, hok, hreport⟩ := returns_bind.mp h
    obtain ⟨key, hkey, -⟩ := bind_eq_ok.mp hok
    obtain ⟨c, rfl⟩ := returns_hashable.mp ⟨key, hkey⟩
    refine ⟨c, ⟨t, ht, hresolve⟩, ?_⟩
    rw [returns_report, shown_errorUnless] at hreport
    rcases hreport with rfl | hshown
    · exact .inl hok
    · refine .inr (hshown _ ?_)
      simp [ProtocolError.shown]
  · rintro ⟨c, ⟨t, ht, hresolve⟩, hshown⟩
    refine ⟨.scalar c, getCType_eq_ok.mpr ⟨t, ht, hresolve⟩, returns_bind.mpr ?_⟩
    obtain ⟨ok, hok⟩ : Returns (isSupported (.scalar c)) := by
      cases c <;> exact returns_pure _
    refine ⟨ok, hok, ?_⟩
    rw [returns_report, shown_errorUnless]
    refine hshown.imp (fun h => Except.ok.inj (hok.symm.trans h)) fun h => ?_
    simp [ProtocolError.shown, hlabel, hproto, h]

/-- A field that the loop over the fields gets past: a mapping without a type counts. -/
theorem returns_checkField (seen : List String) {field : Yaml} (hlabel : label.printable = true) :
    Returns (checkField label tm seen field) ↔ ∀ f, field = .map f →
      (dictGet f "proto").printable = true ∧ ∃ c, TypeSized tm (dictGetD f "type" (.str "")) c ∧
        (isSupported (.scalar c) = .ok true ∨
          (dictGetD f "type" (.str "")).printable = true) := by
  cases field with
  | map f =>
    simp only [Yaml.map.injEq, forall_eq']
    unfold checkField
    simp only
    rw [returns_bind]
    constructor
    · rintro ⟨nameErrors, hname, h⟩
      have hproto := (shown_checkFieldName hlabel).mp (returns_report.mp ⟨_, hname⟩)
      obtain ⟨typeErrors, htype, -⟩ := returns_bind.mp h
      exact ⟨hproto, (returns_checkFieldType hlabel hproto).mp ⟨_, htype⟩⟩
    · rintro ⟨hproto, htype⟩
      obtain ⟨nameErrors, hname⟩ := returns_report.mpr ((shown_checkFieldName hlabel).mpr hproto)
      obtain ⟨typeErrors, htype⟩ := (returns_checkFieldType hlabel hproto).mpr htype
      refine ⟨nameErrors, hname, returns_bind.mpr ⟨typeErrors, htype, ?_⟩⟩
      exact returns_bind_pure.mpr (returns_report.mpr (shown_checkFieldPath hlabel hproto))
  | _ =>
    refine iff_of_true ?_ nofun
    refine returns_bind_pure.mpr (returns_report.mpr ?_)
    simp [ProtocolError.shown, hlabel]

theorem returns_checkFieldList {fields : List Yaml} (hlabel : label.printable = true) :
    Returns (checkFieldList label tm seen fields) ↔ ∀ field ∈ fields, ∀ f, field = .map f →
      (dictGet f "proto").printable = true ∧ ∃ c, TypeSized tm (dictGetD f "type" (.str "")) c ∧
        (isSupported (.scalar c) = .ok true ∨
          (dictGetD f "type" (.str "")).printable = true) := by
  induction fields generalizing seen with
  | nil => exact iff_of_true (returns_pure _) nofun
  | cons field rest ih =>
    unfold checkFieldList
    rw [returns_bind, List.forall_mem_cons, ← returns_checkField seen hlabel]
    constructor
    · rintro ⟨⟨seen', errors⟩, hfield, h⟩
      exact ⟨⟨_, hfield⟩, ih.mp (returns_bind_pure.mp h)⟩
    · rintro ⟨⟨⟨seen', errors⟩, hfield⟩, h⟩
      exact ⟨_, hfield, returns_bind_pure.mpr (ih.mpr h)⟩

theorem returns_messageReliable (msg : PyDict) : Returns (messageReliable (.map msg) : Check Bool) :=
  ⟨_, rfl⟩

theorem returns_messagePayloadSize {msg : PyDict} {fields : List Yaml}
    (hfields : dictLookup msg (.str "fields") = some (.list fields)) :
    Returns (messagePayloadSize (.map msg) tm : Check Nat) ↔
      ∀ field ∈ fields, Returns (fieldSize tm field : Check Nat) := by
  unfold messagePayloadSize
  rw [returns_bind_ok (pyIndex_eq_ok.mpr ⟨msg, rfl, hfields⟩), returns_bind_ok (x := pyIter (.list fields)) rfl,
    returns_bind_pure, returns_mapM]

theorem returns_messageWirePayloadSize {msg : PyDict} {fields : List Yaml}
    (hfields : dictLookup msg (.str "fields") = some (.list fields)) :
    Returns (messageWirePayloadSize (.map msg) tm : Check Nat) ↔
      ∀ field ∈ fields, Returns (fieldSize tm field : Check Nat) := by
  rw [← returns_messagePayloadSize hfields]
  unfold messageWirePayloadSize
  rw [returns_bind]
  constructor
  · rintro ⟨n, hn, -⟩
    exact ⟨n, hn⟩
  · rintro ⟨n, hn⟩
    obtain ⟨reliable, hrel⟩ := returns_messageReliable msg
    refine ⟨n, hn, returns_bind.mpr ⟨reliable, hrel, ?_⟩⟩
    cases reliable <;> exact returns_pure _

/-- **The block on `fields`**: a list is gone through twice, and the second time every field is indexed
by `type`. -/
theorem returns_checkFields {msg : PyDict} (hlabel : label.printable = true) :
    Returns (checkFields label msg tm) ↔ ∀ fields, dictLookup msg (.str "fields") = some (.list fields) →
      ∀ field ∈ fields, FieldReportable tm field := by
  unfold checkFields dictGetD
  cases hl : dictLookup msg (.str "fields") with
  | none =>
    refine iff_of_true ?_ (by rintro _ ⟨⟩)
    refine returns_bind.mpr ⟨[], ?_, returns_bind.mpr ⟨[], rfl, returns_pure _⟩⟩
    simp [report_eq_nil, errorUnless_eq_nil, dictHas, hl]
  | some v =>
    cases v with
    | list fields =>
      simp only [Option.getD_some, Option.some.injEq, Yaml.list.injEq, forall_eq']
      rw [returns_bind]
      constructor
      · rintro ⟨emptyErrors, -, h⟩ field hfield
        obtain ⟨errors, hlist, h⟩ := returns_bind.mp h
        have hne : fields ≠ [] := List.ne_nil_of_mem hfield
        simp only [List.isEmpty_iff, if_neg hne] at h
        obtain ⟨n, hn, -⟩ := returns_bind.mp h
        have hsized := (returns_messageWirePayloadSize hl).mp ⟨n, hn⟩ field hfield
        obtain ⟨f, ftype, c, rfl, htype, hc⟩ := returns_fieldSize.mp hsized
        obtain ⟨hproto, c', hc', hshown⟩ :=
          (returns_checkFieldList hlabel).mp ⟨_, hlist⟩ _ hfield f rfl
        rw [dictGetD, htype, Option.getD_some] at hc' hshown
        exact ⟨f, ftype, c', rfl, htype, hc', hshown, hproto⟩
      · intro h
        obtain ⟨emptyErrors, hempty⟩ : Returns (report
            (errorUnless (!(dictHas msg "fields" && fields.isEmpty)) (.noFields label))) := by
          rw [returns_report, shown_errorUnless]
          simp [ProtocolError.shown, hlabel]
        obtain ⟨errors, hlist⟩ : Returns (checkFieldList label tm [] fields) := by
          refine (returns_checkFieldList hlabel).mpr fun field hfield f hf => ?_
          obtain ⟨f', ftype, c, hf', htype, hc, hshown, hproto⟩ := h field hfield
          obtain rfl := Yaml.map.inj (hf.symm.trans hf')
          rw [dictGetD, htype, Option.getD_some]
          exact ⟨hproto, c, hc, hshown⟩
        refine ⟨emptyErrors, hempty, returns_bind.mpr ⟨errors, hlist, ?_⟩⟩
        split_ifs
        · exact returns_pure _
        · obtain ⟨n, hn⟩ := (returns_messageWirePayloadSize hl).mpr fun field hfield =>
            (h field hfield).returns_fieldSize
          refine returns_bind.mpr ⟨n, hn, returns_bind_pure.mpr ?_⟩
          rw [returns_report, shown_errorUnless]
          simp [ProtocolError.shown, hlabel]
    | scalar s =>
      refine iff_of_true ?_ (by rintro _ ⟨⟩)
      simp only [Option.getD_some]
      rw [returns_report]
      simp [ProtocolError.shown, hlabel]
    | map d =>
      refine iff_of_true ?_ (by rintro _ ⟨⟩)
      simp only [Option.getD_some]
      rw [returns_report]
      simp [ProtocolError.shown, hlabel]

end Fields

-- ---------------------------------------------------------------------------
-- One message
-- ---------------------------------------------------------------------------

/-- The keys of a message whose values an error shows. -/
def shownKeys : List String :=
  ["name", "direction", "debug_log_mode", "reliable", "ros_msg", "sub_topic", "pub_topic"]

/-- A message that is reported on. -/
structure MessageReportable (tm msg : PyDict) : Prop where
  shown : ∀ key ∈ shownKeys, (dictGet msg key).printable = true
  direction : ∃ s, dictGet msg "direction" = .scalar s
  fields : ∀ fields, dictLookup msg (.str "fields") = some (.list fields) →
    ∀ field ∈ fields, FieldReportable tm field

/-- The labels that are remembered can be shown. -/
structure SeenShown (seen : Seen) : Prop where
  ids : ∀ e ∈ seen.ids, e.2.printable = true
  subTopics : ∀ e ∈ seen.subTopics, e.2.printable = true
  pubTopics : ∀ e ∈ seen.pubTopics, e.2.printable = true

theorem seenShown_initial : SeenShown .initial := ⟨nofun, nofun, nofun⟩

section Messages

variable {tm msg : PyDict} {label : Yaml} {seen seen' : Seen} {index : Nat}

theorem shown_checkRequired (hlabel : label.printable = true) : Shown (checkRequired label msg) := by
  refine shown_flatMap fun required _ => shown_errorUnless.mpr (.inr ?_)
  simp [ProtocolError.shown, hlabel]

theorem returns_checkDirection (hlabel : label.printable = true) :
    Returns (checkDirection label msg) ↔ (∃ s, dictGet msg "direction" = .scalar s) ∧
      (dictGet msg "direction").printable = true := by
  unfold checkDirection
  simp only
  rw [returns_bind]
  constructor
  · rintro ⟨key, hkey, h⟩
    obtain ⟨s, hs⟩ := returns_hashable.mp ⟨key, hkey⟩
    refine ⟨⟨s, hs⟩, ?_⟩
    rw [returns_report, shown_errorUnless] at h
    rcases h with hvalid | hshown
    · obtain ⟨d, -, heq⟩ := List.any_eq_true.mp hvalid
      rw [hs] at hkey ⊢
      obtain rfl := Except.ok.inj hkey
      rw [Scalar.pyEq_str, decide_eq_true_eq] at heq
      rw [heq]
      rfl
    · refine hshown _ ?_
      simp [ProtocolError.shown]
  · rintro ⟨⟨s, hs⟩, hdirection⟩
    obtain ⟨key, hkey⟩ := returns_hashable.mpr ⟨s, hs⟩
    refine ⟨key, hkey, ?_⟩
    rw [returns_report, shown_errorUnless]
    simp [ProtocolError.shown, hlabel, hdirection]

theorem returns_checkDebugLogMode (hlabel : label.printable = true) :
    Returns (checkDebugLogMode label msg) ↔ (dictGet msg "debug_log_mode").printable = true := by
  have hnormalize : Returns (normalizeDebugLogMode (dictGetD msg "debug_log_mode" (.str "on"))) ↔
      (dictGet msg "debug_log_mode").printable = true := by
    unfold dictGet dictGetD normalizeDebugLogMode
    cases dictLookup msg (.str "debug_log_mode") with
    | none => exact iff_of_true (returns_pure _) rfl
    | some v =>
      simp only [Option.getD_some]
      split
      · exact iff_of_true (returns_pure _) rfl
      · rw [returns_bind_pure, returns_strOf]
  rw [← hnormalize]
  unfold checkDebugLogMode
  rw [returns_bind]
  constructor
  · rintro ⟨mode, hmode, -⟩
    exact ⟨mode, hmode⟩
  · intro h
    have hshown := hnormalize.mp h
    obtain ⟨mode, hmode⟩ := h
    refine ⟨mode, hmode, ?_⟩
    split_ifs
    · exact returns_pure _
    · refine returns_bind_pure.mpr (returns_report.mpr ?_)
      simp [ProtocolError.shown, hlabel, hshown]

theorem shown_checkReliable (hlabel : label.printable = true)
    (hdirection : (dictGet msg "direction").printable = true) :
    Shown (checkReliable label msg) ↔ (dictGet msg "reliable").printable = true := by
  unfold checkReliable
  rw [shown_append, shown_errorUnless, shown_errorUnless]
  constructor
  · rintro ⟨hreliable | hshown, -⟩
    · unfold dictHas at hreliable
      unfold dictGet dictGetD at hreliable ⊢
      cases hl : dictLookup msg (.str "reliable") with
      | none => rfl
      | some v =>
        rw [hl] at hreliable
        cases v with
        | scalar s =>
          cases s with
          | bool b => rfl
          | _ => simp [Yaml.isBool] at hreliable
        | _ => simp [Yaml.isBool] at hreliable
    · refine hshown _ ?_
      simp [ProtocolError.shown]
  · intro h
    simp [ProtocolError.shown, hlabel, hdirection, h]

theorem mem_of_lookup {α : Type} [BEq α] [LawfulBEq α] {entries : List (α × Yaml)} {key : α} {v : Yaml}
    (h : entries.lookup key = some v) : (key, v) ∈ entries := by
  obtain ⟨before, after, rfl, -⟩ := List.lookup_eq_some_iff.mp h
  simp

theorem shown_checkId {ids : List (Int × Yaml)} (hlabel : label.printable = true)
    (hids : ∀ e ∈ ids, e.2.printable = true) :
    Shown (checkId label msg ids).2 ∧ ∀ e ∈ (checkId label msg ids).1, e.2.printable = true := by
  unfold checkId
  simp only
  split
  · exact ⟨shown_nil, hids⟩
  · split_ifs
    · split
      · exact ⟨by simp [ProtocolError.shown, hlabel], hids⟩
      · split
        · next other hother =>
          have hmem := mem_of_lookup hother
          exact ⟨by simp [ProtocolError.shown, hlabel, hids _ hmem], hids⟩
        · refine ⟨shown_nil, List.forall_mem_append.mpr ⟨hids, ?_⟩⟩
          simp [hlabel]
    · exact ⟨by simp [ProtocolError.shown, hlabel], hids⟩

/-- The name is shown unless it is `null` or a string. -/
theorem shown_checkName {names : List String} {symbols : List (String × String)} :
    Shown (checkName msg names symbols).2.2 ↔ (dictGet msg "name").printable = true := by
  unfold checkName
  split
  · next hname =>
    rw [hname]
    exact iff_of_true shown_nil rfl
  · next name hname =>
    rw [hname]
    refine iff_of_true ?_ (printable_str name)
    split_ifs
    · simp [ProtocolError.shown, printable_str]
    · simp [ProtocolError.shown]
    · simp [ProtocolError.shown]
    · simp only
      split <;> simp [ProtocolError.shown]
  · simp [ProtocolError.shown]

theorem shown_checkRosMsg (hlabel : label.printable = true) :
    Shown (checkRosMsg label msg) ↔ (dictGet msg "ros_msg").printable = true := by
  unfold checkRosMsg
  simp only
  rw [shown_errorUnless]
  cases h : (dictGet msg "ros_msg").asStr? with
  | some s =>
    rw [Yaml.asStr?_eq_some] at h
    rw [h]
    simp [ProtocolError.shown, hlabel, printable_str]
  | none => simp [ProtocolError.shown, hlabel]

theorem shown_checkTopicForm {key : String} (hlabel : label.printable = true) :
    Shown (checkTopicForm label msg key) ↔ (dictGet msg key).printable = true := by
  unfold checkTopicForm dictGet dictGetD
  cases dictLookup msg (.str key) with
  | none => exact iff_of_true shown_nil rfl
  | some topic =>
    simp only [Option.getD_some]
    rw [shown_errorUnless]
    cases h : topic.asStr? with
    | some s =>
      rw [Yaml.asStr?_eq_some] at h
      rw [h]
      simp [ProtocolError.shown, hlabel, printable_str]
    | none => simp [ProtocolError.shown, hlabel]

theorem shown_checkTopics (hlabel : label.printable = true)
    (hdirection : (dictGet msg "direction").printable = true) :
    Shown (checkTopics label msg) ↔
      (dictGet msg "sub_topic").printable = true ∧ (dictGet msg "pub_topic").printable = true := by
  have hdirection := (printable_dictGetD (printable_str "")).mpr hdirection
  unfold checkTopics
  simp only
  rw [shown_append, shown_append, shown_append, shown_append, shown_checkTopicForm hlabel,
    shown_checkTopicForm hlabel, shown_errorUnless, shown_errorUnless, shown_errorUnless]
  constructor
  · rintro ⟨⟨⟨-, hsub⟩, hpub⟩, -⟩
    exact ⟨hsub, hpub⟩
  · rintro ⟨hsub, hpub⟩
    simp [ProtocolError.shown, hlabel, hdirection, hsub, hpub]

theorem shown_checkTopicUse {key : String} {topics : List (String × Yaml)}
    (hlabel : label.printable = true) (htopics : ∀ e ∈ topics, e.2.printable = true) :
    Shown (checkTopicUse label msg key topics).2 ∧
      ∀ e ∈ (checkTopicUse label msg key topics).1, e.2.printable = true := by
  unfold checkTopicUse
  split
  · exact ⟨shown_nil, htopics⟩
  · split
    · next other hother =>
      have hmem := mem_of_lookup hother
      exact ⟨by simp [ProtocolError.shown, hlabel, htopics _ hmem], htopics⟩
    · refine ⟨shown_nil, List.forall_mem_append.mpr ⟨htopics, ?_⟩⟩
      simp [hlabel]

theorem dictGet_congr {d d' : PyDict} {key : String}
    (h : dictLookup d' (.str key) = dictLookup d (.str key)) : dictGet d' key = dictGet d key := by
  rw [dictGet, dictGet, dictGetD, dictGetD, h]

/-- **One message**, behind messages whose labels can be shown. -/
theorem returns_checkMessage (hseen : SeenShown seen) :
    Returns (checkMessage tm seen index (.map msg)) ↔ MessageReportable tm msg := by
  unfold checkMessage
  simp only
  have hlabel : (dictGet msg "name").printable = true →
      (dictGetD msg "name" (.str ("messages[" ++ toString index ++ "]"))).printable = true :=
    (printable_dictGetD (printable_str _)).mpr
  generalize dictGetD msg "name" (.str ("messages[" ++ toString index ++ "]")) = label at hlabel ⊢
  constructor
  · intro h
    obtain ⟨requiredErrors, -, h⟩ := returns_bind.mp h
    obtain ⟨directionErrors, hdirection, h⟩ := returns_bind.mp h
    obtain ⟨⟨msg', modeErrors⟩, hmode, h⟩ := returns_bind.mp h
    obtain ⟨errors, hblocks, h⟩ := returns_bind.mp h
    have hget : ∀ key, key ≠ "debug_log_mode" → dictGet msg' key = dictGet msg key := fun key hne =>
      dictGet_congr (checkDebugLogMode_lookup hmode hne)
    have hblocks := returns_report.mp ⟨_, hblocks⟩
    simp only [shown_append] at hblocks
    obtain ⟨⟨⟨⟨⟨⟨hreliable, -⟩, hname⟩, hrosMsg⟩, htopics⟩, -⟩, -⟩ := hblocks
    rw [shown_checkName, hget _ (by decide)] at hname
    have hlabel := hlabel hname
    obtain ⟨hscalar, hdirection⟩ := (returns_checkDirection hlabel).mp ⟨_, hdirection⟩
    have hmode' := (returns_checkDebugLogMode hlabel).mp ⟨_, hmode⟩
    have hdirection' : (dictGet msg' "direction").printable = true := by
      rw [hget _ (by decide)]
      exact hdirection
    rw [shown_checkReliable hlabel hdirection', hget _ (by decide)] at hreliable
    rw [shown_checkRosMsg hlabel, hget _ (by decide)] at hrosMsg
    rw [shown_checkTopics hlabel hdirection', hget _ (by decide), hget _ (by decide)] at htopics
    obtain ⟨fieldErrors, hfields, -⟩ := returns_bind.mp h
    have hfields := (returns_checkFields hlabel).mp ⟨_, hfields⟩
    rw [checkDebugLogMode_lookup hmode (by decide)] at hfields
    refine ⟨?_, hscalar, hfields⟩
    simp only [shownKeys, List.forall_mem_cons]
    exact ⟨hname, hdirection, hmode', hreliable, hrosMsg, htopics.1, htopics.2, nofun⟩
  · rintro ⟨hshown, hscalar, hfields⟩
    simp only [shownKeys, List.forall_mem_cons] at hshown
    obtain ⟨hname, hdirection, hmode, hreliable, hrosMsg, hsub, hpub, -⟩ := hshown
    have hlabel := hlabel hname
    obtain ⟨requiredErrors, hrequired⟩ :=
      returns_report.mpr (shown_checkRequired hlabel : Shown (checkRequired label msg))
    obtain ⟨directionErrors, hdirections⟩ :=
      (returns_checkDirection hlabel).mpr ⟨hscalar, hdirection⟩
    obtain ⟨⟨msg', modeErrors⟩, hmode⟩ := (returns_checkDebugLogMode hlabel).mpr hmode
    have hget : ∀ key, key ≠ "debug_log_mode" → dictGet msg' key = dictGet msg key := fun key hne =>
      dictGet_congr (checkDebugLogMode_lookup hmode hne)
    have hdirection' : (dictGet msg' "direction").printable = true := by
      rw [hget _ (by decide)]
      exact hdirection
    refine returns_bind.mpr ⟨_, hrequired, returns_bind.mpr ⟨_, hdirections, returns_bind.mpr
      ⟨_, hmode, returns_bind.mpr ?_⟩⟩⟩
    obtain ⟨errors, hblocks⟩ : Returns (report (checkReliable label msg' ++
        (checkId label msg' seen.ids).2 ++ (checkName msg' seen.names seen.generatedSymbols).2.2 ++
        checkRosMsg label msg' ++ checkTopics label msg' ++
        (checkTopicUse label msg' "sub_topic" seen.subTopics).2 ++
        (checkTopicUse label msg' "pub_topic" seen.pubTopics).2)) := by
      rw [returns_report]
      simp only [shown_append]
      rw [shown_checkReliable hlabel hdirection', shown_checkName, shown_checkRosMsg hlabel,
        shown_checkTopics hlabel hdirection', hget _ (by decide), hget _ (by decide),
        hget _ (by decide), hget _ (by decide), hget _ (by decide)]
      exact ⟨⟨⟨⟨⟨⟨hreliable, (shown_checkId hlabel hseen.ids).1⟩, hname⟩, hrosMsg⟩, hsub, hpub⟩,
        (shown_checkTopicUse hlabel hseen.subTopics).1⟩,
        (shown_checkTopicUse hlabel hseen.pubTopics).1⟩
    refine ⟨errors, hblocks, returns_bind_pure.mpr ((returns_checkFields hlabel).mpr ?_)⟩
    rw [checkDebugLogMode_lookup hmode (by decide)]
    exact hfields

/-- What is remembered of a message can be shown. -/
theorem seenShown_checkMessage {m m' : Yaml} {errors : List ProtocolError} (hseen : SeenShown seen)
    (h : checkMessage tm seen index m = .ok (seen', m', errors)) : SeenShown seen' := by
  cases m with
  | map msg =>
    have hname := ((returns_checkMessage hseen).mp ⟨_, h⟩).shown "name" (by decide)
    have hlabel :=
      (printable_dictGetD (printable_str ("messages[" ++ toString index ++ "]"))).mpr hname
    obtain ⟨requiredErrors, -, h⟩ := bind_eq_ok.mp h
    obtain ⟨directionErrors, -, h⟩ := bind_eq_ok.mp h
    obtain ⟨⟨msg', modeErrors⟩, -, h⟩ := bind_eq_ok.mp h
    obtain ⟨blockErrors, -, h⟩ := bind_eq_ok.mp h
    obtain ⟨fieldErrors, -, h⟩ := bind_eq_ok.mp h
    simp only [pure_eq_ok, Prod.mk.injEq] at h
    obtain ⟨rfl, -⟩ := h
    exact ⟨(shown_checkId hlabel hseen.ids).2, (shown_checkTopicUse hlabel hseen.subTopics).2,
      (shown_checkTopicUse hlabel hseen.pubTopics).2⟩
  | _ =>
    obtain ⟨rfl, -⟩ := Prod.mk.inj (pure_eq_ok.mp h)
    exact hseen

/-- **The loop over the messages.** -/
theorem returns_checkMessages {ms : List Yaml} (hseen : SeenShown seen) :
    Returns (checkMessages tm seen index ms) ↔ ∀ msg, .map msg ∈ ms → MessageReportable tm msg := by
  induction ms generalizing seen index with
  | nil => exact iff_of_true (returns_pure _) nofun
  | cons m ms ih =>
    unfold checkMessages
    rw [returns_bind]
    constructor
    · rintro ⟨⟨seen', m', errors⟩, hm, h⟩ msg hmem
      obtain ⟨⟨msgs, restErrors⟩, hrest, -⟩ := returns_bind.mp h
      rcases List.mem_cons.mp hmem with rfl | hmem
      · exact (returns_checkMessage hseen).mp ⟨_, hm⟩
      · exact (ih (seenShown_checkMessage hseen hm)).mp ⟨_, hrest⟩ msg hmem
    · intro h
      obtain ⟨⟨seen', m', errors⟩, hm⟩ : Returns (checkMessage tm seen index m) := by
        cases m with
        | map msg => exact (returns_checkMessage hseen).mpr (h msg List.mem_cons_self)
        | _ => exact returns_pure _
      have hrest : Returns (checkMessages tm seen' (index + 1) ms) :=
        (ih (seenShown_checkMessage hseen hm)).mpr fun msg hmem => h msg (List.mem_cons_of_mem _ hmem)
      obtain ⟨⟨msgs, restErrors⟩, hrest⟩ := hrest
      exact ⟨_, hm, returns_bind.mpr ⟨_, hrest, returns_pure _⟩⟩

/-- The messages that come out of the loop are those that went in, but for `debug_log_mode`. -/
theorem kept_of_checkMessages {ms ms' : List Yaml} {errors : List ProtocolError} {msg' : PyDict}
    (h : checkMessages tm seen index ms = .ok (ms', errors)) (hmem : .map msg' ∈ ms') :
    ∃ msg, .map msg ∈ ms ∧ ∀ key, key ≠ "debug_log_mode" →
      dictLookup msg' (.str key) = dictLookup msg (.str key) := by
  obtain ⟨m, hm, hkept⟩ := exists_left_of_forall₂ (checkMessages_kept h) hmem
  obtain ⟨msg, rfl, hkeep⟩ := hkept msg' rfl
  exact ⟨msg, hm, hkeep⟩

end Messages

-- ---------------------------------------------------------------------------
-- The receive buffer
-- ---------------------------------------------------------------------------

/-- The types of the system messages can be sized. -/
def SystemTypesSized (tm : PyDict) : Prop :=
  ∀ type ∈ ["uint8_t", "uint32_t"], ∃ c, TypeSized tm (.str type) c

section Buffer

variable {tm cfg : PyDict}

theorem returns_fieldSize_system (proto type : String) :
    Returns (fieldSize tm (systemField proto type) : Check Nat) ↔
      ∃ c, TypeSized tm (.str type) c := by
  show Returns ((getCType (.str type) tm : Check Yaml) >>= cTypeSize) ↔ _
  exact returns_typeSize

theorem returns_systemMessages :
    (∀ m ∈ systemMessages, Returns (messageWirePayloadSize m tm : Check Nat)) ↔
      SystemTypesSized tm := by
  have hmessage : ∀ (name : String) (id : Int) (notes : String) (fields : List Yaml),
      Returns (messageWirePayloadSize (systemMessage name id notes fields) tm : Check Nat) ↔
        ∀ field ∈ fields, Returns (fieldSize tm field : Check Nat) := fun _ _ _ _ =>
    returns_messageWirePayloadSize rfl
  unfold systemMessages ackMessage heartbeatMessage handshakeMessage SystemTypesSized
  simp only [List.forall_mem_cons, hmessage, returns_fieldSize_system]
  tauto

/-- A sizable message has an id to sort by, and a list of fields. -/
theorem isSizable_spec {m : Yaml} (h : isSizable m = true) :
    Returns (sortKey m : Check ℚ) ∧ ∃ msg fields, m = .map msg ∧
      dictLookup msg (.str "fields") = some (.list fields) := by
  cases m with
  | map msg =>
    unfold isSizable at h
    rw [Bool.and_eq_true] at h
    obtain ⟨hid, hfields⟩ := h
    constructor
    · unfold dictGet dictGetD at hid
      cases hl : dictLookup msg (.str "id") with
      | none => simp [hl] at hid
      | some v =>
        refine returns_bind.mpr ⟨v, pyIndex_eq_ok.mpr ⟨msg, rfl, hl⟩, ?_⟩
        rw [hl, Option.getD_some] at hid
        split at hid
        · exact returns_ok _
        · exact returns_ok _
        · cases hid
    · obtain ⟨fields, hlist⟩ := Option.isSome_iff_exists.mp hfields
      rw [Yaml.asList?_eq_some] at hlist
      exact ⟨msg, fields, rfl, lookup_of_dictGetD hlist nofun⟩
  | _ => cases h

/-- **The check on `buffer_size`** sizes the messages once more, and the system messages. -/
theorem returns_checkBufferSize {ms : List Yaml}
    (hsized : ∀ msg fields, .map msg ∈ ms → dictLookup msg (.str "fields") = some (.list fields) →
      ∀ field ∈ fields, Returns (fieldSize tm field : Check Nat)) :
    Returns (checkBufferSize cfg tm ms) ↔
      (isPositiveInt (dictGet cfg "buffer_size") = true → SystemTypesSized tm) := by
  have hmerged : Returns (mergeMessages (.list (ms.filter isSizable)) : Check (List Yaml)) := by
    rw [mergeMessages_list, returns_sortedById]
    refine List.forall_mem_append.mpr ⟨fun m hm => ?_, ?_⟩
    · exact (isSizable_spec (List.mem_filter.mp hm).2).1
    · simp only [systemMessages, List.forall_mem_cons]
      exact ⟨⟨_, rfl⟩, ⟨_, rfl⟩, ⟨_, rfl⟩, List.forall_mem_nil _⟩
  have hsizes : ∀ merged,
      (mergeMessages (.list (ms.filter isSizable)) : Check (List Yaml)) = .ok merged →
      (Returns (merged.mapM fun m => messageWirePayloadSize m tm : Check (List Nat)) ↔
        SystemTypesSized tm) := by
    intro merged hmerged
    rw [mergeMessages_list] at hmerged
    have hmem : ∀ m, m ∈ merged ↔ m ∈ ms.filter isSizable ++ systemMessages := fun _ =>
      (sortedById_spec hmerged).1.mem_iff
    rw [returns_mapM, ← returns_systemMessages]
    simp only [hmem]
    rw [List.forall_mem_append]
    refine and_iff_right fun m hm => ?_
    obtain ⟨hm, hsizable⟩ := List.mem_filter.mp hm
    obtain ⟨-, msg, fields, rfl, hl⟩ := isSizable_spec hsizable
    exact (returns_messageWirePayloadSize hl).mpr (hsized msg fields hm hl)
  unfold checkBufferSize isPositiveInt
  cases (dictGet cfg "buffer_size").asInt? with
  | none => exact iff_of_true (returns_pure _) (by rintro ⟨⟩)
  | some n =>
    simp only [decide_eq_true_eq]
    split_ifs with hn
    · rw [returns_bind]
      constructor
      · rintro ⟨merged, hmerged, h⟩ -
        obtain ⟨sizes, hsizes', -⟩ := returns_bind.mp h
        exact (hsizes merged hmerged).mp ⟨sizes, hsizes'⟩
      · intro h
        obtain ⟨merged, hmerged⟩ := hmerged
        obtain ⟨sizes, hsizes'⟩ := (hsizes merged hmerged).mpr (h hn)
        exact ⟨merged, hmerged, returns_bind.mpr ⟨sizes, hsizes', returns_pure _⟩⟩
    · exact iff_of_true (returns_pure _) fun h => absurd h hn

end Buffer

-- ---------------------------------------------------------------------------
-- Only the end exits
-- ---------------------------------------------------------------------------

/-- The computation does not exit the program. -/
def NoExit {α : Type} (x : Check α) : Prop := ∀ errors, x ≠ .error (.systemExit errors)

section NoExit

variable {α β : Type} {tm msg : PyDict} {label : Yaml} {seen : Seen} {index : Nat}

theorem noExit_pure (a : α) : NoExit (pure a : Check α) := nofun

theorem NoExit.bind {x : Check α} {f : α → Check β} (hx : NoExit x) (hf : ∀ a, NoExit (f a)) :
    NoExit (x >>= f) := by
  cases x with
  | error e => exact fun errors h => hx errors (congrArg Except.error (Except.error.inj h))
  | ok a => exact hf a

theorem noExit_mapM {f : α → Check β} (hf : ∀ a, NoExit (f a)) (xs : List α) :
    NoExit (xs.mapM f) := by
  induction xs with
  | nil => exact noExit_pure _
  | cons x xs ih =>
    rw [List.mapM_cons]
    exact (hf x).bind fun y => ih.bind fun ys => noExit_pure _

theorem noExit_report (errors : List ProtocolError) : NoExit (report errors) := by
  unfold report
  split_ifs <;> exact nofun

theorem noExit_strOf (v : Yaml) : NoExit (strOf v) := by
  unfold strOf
  split_ifs <;> exact nofun

theorem noExit_hashable (v : Yaml) : NoExit (hashable v) := by
  cases v <;> exact nofun

theorem noExit_pyGet? (v : Yaml) (key : String) : NoExit (pyGet? v key) := by
  cases v <;> exact nofun

theorem noExit_pyIndex (v : Yaml) (key : String) : NoExit (pyIndex v key) := by
  unfold pyIndex
  split
  · split <;> exact nofun
  · exact nofun

theorem noExit_pyIter (v : Yaml) : NoExit (pyIter v) := by
  unfold pyIter
  split <;> exact nofun

theorem noExit_getCType (v : Yaml) : NoExit (getCType v tm) :=
  (noExit_hashable v).bind fun _ => noExit_pure _

theorem noExit_messageWirePayloadSize (m : Yaml) : NoExit (messageWirePayloadSize m tm) := by
  have hfield : ∀ field, NoExit (fieldSize tm field) := by
    refine fun field => (noExit_pyIndex _ _).bind fun ftype => (noExit_getCType _).bind fun c => ?_
    refine (noExit_hashable c).bind fun key => ?_
    cases key <;> exact noExit_pure _
  have hsize : NoExit (messagePayloadSize m tm) :=
    (noExit_pyIndex _ _).bind fun _ => (noExit_pyIter _).bind fun fields =>
      (noExit_mapM hfield fields).bind fun _ => noExit_pure _
  refine hsize.bind fun size => NoExit.bind ((noExit_pyGet? _ _).bind fun _ => noExit_pure _) ?_
  intro reliable
  cases reliable <;> exact noExit_pure _

theorem noExit_checkFields : NoExit (checkFields label msg tm) := by
  have hfield : ∀ seen field, NoExit (checkField label tm seen field) := by
    intro seen field
    cases field with
    | map f =>
      refine (noExit_report _).bind fun _ => NoExit.bind ?_ fun _ =>
        (noExit_report _).bind fun _ => noExit_pure _
      refine (noExit_getCType _).bind fun c => NoExit.bind ?_ fun _ => noExit_report _
      refine (noExit_hashable c).bind fun key => ?_
      cases key <;> exact noExit_pure _
    | _ => exact (noExit_report _).bind fun _ => noExit_pure _
  have hlist : ∀ fields seen, NoExit (checkFieldList label tm seen fields) := by
    intro fields
    induction fields with
    | nil => exact fun _ => noExit_pure _
    | cons field rest ih =>
      exact fun seen => (hfield seen field).bind fun _ => (ih _).bind fun _ => noExit_pure _
  unfold checkFields
  split
  · refine (noExit_report _).bind fun _ => (hlist _ _).bind fun _ => ?_
    simp only
    split_ifs
    · exact noExit_pure _
    · exact (noExit_messageWirePayloadSize _).bind fun _ =>
        (noExit_report _).bind fun _ => noExit_pure _
  · exact noExit_report _

theorem noExit_checkMessage (m : Yaml) : NoExit (checkMessage tm seen index m) := by
  cases m with
  | map msg =>
    refine (noExit_report _).bind fun _ => NoExit.bind ((noExit_hashable _).bind fun _ =>
      noExit_report _) fun _ => NoExit.bind ?_ fun _ => (noExit_report _).bind fun _ =>
      noExit_checkFields.bind fun _ => noExit_pure _
    refine NoExit.bind ?_ fun mode => ?_
    · unfold normalizeDebugLogMode
      split
      · exact noExit_pure _
      · exact (noExit_strOf _).bind fun _ => noExit_pure _
    · split_ifs
      · exact noExit_pure _
      · exact (noExit_report _).bind fun _ => noExit_pure _
  | _ => exact noExit_pure _

theorem noExit_checkMessages (ms : List Yaml) : NoExit (checkMessages tm seen index ms) := by
  induction ms generalizing seen index with
  | nil => exact noExit_pure _
  | cons m ms ih =>
    exact (noExit_checkMessage m).bind fun _ => ih.bind fun _ => noExit_pure _

theorem noExit_checkBufferSize {cfg : PyDict} (ms : List Yaml) :
    NoExit (checkBufferSize cfg tm ms) := by
  have hkey : ∀ m, NoExit (sortKey m) := by
    refine fun m => (noExit_pyIndex _ _).bind fun id => ?_
    unfold idKey
    split
    · split <;> exact nofun
    · exact nofun
  unfold checkBufferSize
  split
  · split_ifs
    · refine NoExit.bind ?_ fun merged =>
        (noExit_mapM noExit_messageWirePayloadSize merged).bind fun _ => noExit_pure _
      rw [mergeMessages_list]
      refine (noExit_mapM (fun m => ?_) _).bind fun _ => noExit_pure _
      exact (hkey m).bind fun _ => noExit_pure _
    · exact noExit_pure _
  · exact noExit_pure _

end NoExit

-- ---------------------------------------------------------------------------
-- validate_protocol
-- ---------------------------------------------------------------------------

/-- The computation returns, or prints the errors and exits. -/
def Reports {α : Type} (x : Check α) : Prop := Returns x ∨ ∃ errors, x = .error (.systemExit errors)

theorem reports_bind {α β : Type} {x : Check α} {f : α → Check β} (hx : NoExit x) :
    Reports (x >>= f) ↔ ∃ a, x = .ok a ∧ Reports (f a) := by
  cases x with
  | error e =>
    refine iff_of_false ?_ (by rintro ⟨a, ⟨⟩, -⟩)
    rintro (⟨b, ⟨⟩⟩ | ⟨errors, h⟩)
    exact hx errors (congrArg Except.error (Except.error.inj h))
  | ok a => exact ⟨fun h => ⟨a, rfl, h⟩, fun ⟨_, ha, h⟩ => Except.ok.inj ha ▸ h⟩

/-- The heartbeat window is shown when it is shorter than the interval. -/
def HeartbeatShown (cfg : PyDict) : Prop :=
  ∀ interval timeout : Int, dictGetD cfg "heartbeat_interval_ms" (.int 1000) = .int interval →
    dictGetD cfg "heartbeat_timeout_ms" (.int 3000) = .int timeout → 0 < timeout →
    timeout < interval → (Yaml.int interval).printable = true

theorem shown_checkHeartbeatWindow {cfg : PyDict} :
    Shown (checkHeartbeatWindow cfg) ↔ HeartbeatShown cfg := by
  unfold checkHeartbeatWindow HeartbeatShown
  split
  · next interval timeout hinterval htimeout =>
    rw [Yaml.asInt?_eq_some] at hinterval htimeout
    rw [hinterval, htimeout, shown_errorUnless]
    simp only [Yaml.scalar.injEq, Scalar.int.injEq, ProtocolError.shown, List.forall_mem_cons]
    constructor
    · rintro (hwindow | ⟨-, hshown, -⟩) interval' timeout' rfl rfl hpos hlt
      · simp only [Bool.not_eq_true', Bool.and_eq_false_iff, decide_eq_false_iff_not] at hwindow
        omega
      · exact hshown
    · intro h
      by_cases hwindow : 0 < timeout ∧ timeout < interval
      · have hinterval := h interval timeout rfl rfl hwindow.1 hwindow.2
        exact .inr ⟨printable_int_of_le (by omega) hinterval, hinterval, nofun⟩
      · refine .inl ?_
        simp only [Bool.not_eq_true', Bool.and_eq_false_iff, decide_eq_false_iff_not]
        omega
  · next hnot =>
    refine iff_of_true shown_nil fun interval timeout hinterval htimeout _ _ => ?_
    exact absurd (Yaml.asInt?_eq_some.mpr htimeout)
      (hnot interval timeout (Yaml.asInt?_eq_some.mpr hinterval))

/-- The checks on `config` show two values. -/
theorem shown_config {cfg serialParams : PyDict} (hchecksum : (dictGet cfg "checksum").printable = true) :
    Shown (checkSerialParams cfg serialParams ++ checkConfig cfg) ↔ HeartbeatShown cfg := by
  have hkeys : ∀ {α : Type} (keys : List α) (ok : α → Bool) (e : α → ProtocolError),
      (∀ key, (e key).shown = []) → Shown (keys.flatMap fun key => errorUnless (ok key) (e key)) := by
    intro α keys ok e he
    refine shown_flatMap fun key _ => shown_errorUnless.mpr (.inr ?_)
    rw [he]
    exact nofun
  have hserial : Shown (checkSerialParams cfg serialParams) := by
    unfold checkSerialParams
    simp [shown_errorUnless, ProtocolError.shown]
  unfold checkConfig
  simp only [shown_append, shown_checkHeartbeatWindow, shown_errorUnless]
  refine ⟨fun h => h.2.2, fun h => ⟨hserial, ⟨⟨⟨⟨⟨?_, hkeys _ _ _ fun _ => rfl⟩, ?_⟩, ?_⟩,
    hkeys _ _ _ fun _ => rfl⟩, hkeys _ _ _ fun _ => rfl⟩, h⟩⟩
  · simp [ProtocolError.shown, hchecksum]
  · simp [ProtocolError.shown]
  · simp [ProtocolError.shown]

/-- A configuration that is reported on. -/
structure Reportable (root : PyDict) : Prop where
  serial_controller : ∃ params, dictGetD root "serial_controller" (.map []) = .map params
  checksum : (dictGet (configOf root) "checksum").printable = true
  heartbeat : HeartbeatShown (configOf root)
  message : ∀ msg, .map msg ∈ messagesOf root → MessageReportable (mappingsOf root) msg
  buffer_size : isPositiveInt (dictGet (configOf root) "buffer_size") = true →
    SystemTypesSized (mappingsOf root)

/-- A message of `config/protocol.yaml` whose field has a misspelled `type`. -/
def untypedConfig : Yaml :=
  .map [(.str "serial_controller", demoSerialController), (.str "config", demoSettings 1024),
    (.str "type_mappings", demoTypeMappings []),
    (.str "messages", .list [.map [(.str "name", .str "DemoCommand"), (.str "id", .int 1),
      (.str "direction", .str "tx"), (.str "sub_topic", .str "demo/command"),
      (.str "ros_msg", .str "std_msgs/msg/UInt32"), (.str "fields", .list [.map [
        (.str "proto", .str "value"), (.str "typ", .str "u32"), (.str "ros", .str "data")]])]])]

end AutoSerialBridge
