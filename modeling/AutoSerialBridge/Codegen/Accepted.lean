import AutoSerialBridge.Codegen.Validate
import AutoSerialBridge.Lib.Fallible

/-!
# Auto Serial Bridge — what an accepted configuration looks like

`validateProtocol` returns only when no block has appended an error. `ConfigAccepted` collects what
this says of the configuration: the header bytes and the checksum, every message
(`MessageAccepted`), the pairwise distinct ids and names, and the receive buffer.

## Results

* `checkMessages_accepted`, `checkMessages_symbols`: the loop over the messages.
* `validateProtocol_accepted`: **an accepted configuration satisfies `ConfigAccepted`**.
-/

namespace AutoSerialBridge

open Lib

-- ---------------------------------------------------------------------------
-- Accepted messages
-- ---------------------------------------------------------------------------

/-- A field whose type resolves to a supported C type. -/
def FieldAccepted (typeMappings : PyDict) (field : Yaml) : Prop :=
  ∃ f ftype name, field = .map f ∧ dictLookup f (.str "type") = some ftype ∧
    (getCType ftype typeMappings : Check Yaml) = .ok (.str name) ∧
    (cTypeSizes.lookup name).isSome = true

/-- A message no check complained about. `null` passes for an id and for a name. -/
structure MessageAccepted (typeMappings msg : PyDict) : Prop where
  id : dictLookup msg (.str "id") = some .null ∨
    ∃ n : Int, 0 ≤ n ∧ n < 0xFD ∧ dictLookup msg (.str "id") = some (.int n)
  name : dictLookup msg (.str "name") = some .null ∨
    ∃ s, s ∉ systemMessageNames ∧ dictLookup msg (.str "name") = some (.str s)
  direction : ∃ d ∈ validDirections, dictLookup msg (.str "direction") = some (.str d)
  reliable_tx : (dictGetD msg "reliable" (.bool false)).truthy = true →
    dictLookup msg (.str "direction") = some (.str "tx")
  fields : ∃ fields, dictLookup msg (.str "fields") = some (.list fields) ∧ fields ≠ [] ∧
    ∀ field ∈ fields, FieldAccepted typeMappings field
  wireSize : ∃ n ≤ 255, (messageWirePayloadSize (.map msg) typeMappings : Check Nat) = .ok n

/-- The id of a message, if it is an integer. -/
def Yaml.messageId? (m : Yaml) : Option Int :=
  match m with
  | .map d => (dictGet d "id").asInt?
  | _ => none

/-- The name of a message, if it is a string. -/
def Yaml.messageName? (m : Yaml) : Option String :=
  match m with
  | .map d => (dictGet d "name").asStr?
  | _ => none

theorem errorUnless_eq_nil {ok : Bool} {e : ProtocolError} :
    errorUnless ok e = [] ↔ ok = true := by
  cases ok <;> simp [errorUnless]

/-- What is appended is what was found, if it can be shown. -/
theorem report_eq_ok {errors es : List ProtocolError} :
    report errors = .ok es ↔
      (∀ e ∈ errors, ∀ v ∈ e.shown, v.printable = true) ∧ errors = es := by
  unfold report
  split_ifs with h
  · simp only [List.all_eq_true] at h
    rw [pure_eq_ok]
    exact (and_iff_right h).symm
  · simp only [List.all_eq_true] at h
    exact iff_of_false not_false fun h' => h h'.1

theorem report_eq_nil {errors : List ProtocolError} : report errors = .ok [] ↔ errors = [] := by
  rw [report_eq_ok]
  refine and_iff_right_of_imp ?_
  rintro rfl
  exact nofun

theorem dictHas_iff {d : PyDict} {key : String} :
    dictHas d key = true ↔ ∃ v, dictLookup d (.str key) = some v := by
  rw [dictHas, Option.isSome_iff_exists]

theorem dictGet_eq {d : PyDict} {key : String} {v : Yaml}
    (h : dictLookup d (.str key) = some v) : dictGet d key = v := by
  rw [dictGet, dictGetD, h, Option.getD_some]

/-- A value other than the default comes from an entry. -/
theorem lookup_of_dictGetD {d : PyDict} {key : String} {dflt v : Yaml}
    (h : dictGetD d key dflt = v) (hne : v ≠ dflt) : dictLookup d (.str key) = some v := by
  rw [dictGetD] at h
  cases hl : dictLookup d (.str key) with
  | none =>
    rw [hl, Option.getD_none] at h
    exact absurd h.symm hne
  | some w =>
    rw [hl, Option.getD_some] at h
    rw [h]

theorem pyIndex_eq_ok {v w : Yaml} {key : String} :
    (pyIndex v key : Check Yaml) = .ok w ↔ ∃ d, v = .map d ∧ dictLookup d (.str key) = some w := by
  cases v with
  | map d =>
    unfold pyIndex
    cases hl : dictLookup d (.str key) with
    | none =>
      simp [hl]
    | some w' =>
      simp only [hl, Except.ok.injEq, Yaml.map.injEq, exists_eq_left', Option.some.injEq]
  | _ => exact iff_of_false nofun (by rintro ⟨d, ⟨⟩, -⟩)

theorem Yaml.pyEq_str {v : Yaml} {s : String} : v.pyEq (.str s) = true ↔ v = .str s := by
  cases v with
  | scalar a => simp [pyEq]
  | _ => simp [pyEq]

theorem isByte_iff {v : Yaml} : isByte v = true ↔ ∃ n : Int, 0 ≤ n ∧ n ≤ 255 ∧ v = .int n := by
  rw [isByte]
  cases h : v.asInt? with
  | none =>
    refine ⟨nofun, ?_⟩
    rintro ⟨n, -, -, rfl⟩
    cases h
  | some n =>
    rw [Yaml.asInt?_eq_some] at h
    subst h
    simp

theorem isPositiveInt_iff {v : Yaml} :
    isPositiveInt v = true ↔ ∃ n : Int, 0 < n ∧ v = .int n := by
  rw [isPositiveInt]
  cases h : v.asInt? with
  | none =>
    refine ⟨nofun, ?_⟩
    rintro ⟨n, -, rfl⟩
    cases h
  | some n =>
    rw [Yaml.asInt?_eq_some] at h
    subst h
    simp

-- ---------------------------------------------------------------------------
-- Fields
-- ---------------------------------------------------------------------------

theorem isSupported_eq_ok {cType : Yaml} :
    isSupported cType = .ok true ↔
      ∃ name, cType = .str name ∧ (cTypeSizes.lookup name).isSome = true := by
  cases cType with
  | scalar s => cases s <;> simp [isSupported, hashable, bind, Except.bind, pure, Except.pure]
  | _ => simp [isSupported, hashable, bind, Except.bind]

/-- A field without errors is a mapping, and no check on it complains. -/
theorem checkField_clean {label : Yaml} {tm : PyDict} {seen seen' : List String} {field : Yaml}
    (h : checkField label tm seen field = .ok (seen', [])) :
    ∃ f, field = .map f ∧ (checkFieldName label f seen).2 = [] ∧
      checkFieldType label f tm = .ok [] ∧ checkFieldPath label f = [] := by
  cases field with
  | map f =>
    obtain ⟨nameErrors, hname, h⟩ := bind_eq_ok.mp h
    obtain ⟨typeErrors, htype, h⟩ := bind_eq_ok.mp h
    obtain ⟨pathErrors, hpath, h⟩ := bind_eq_ok.mp h
    simp only [pure_eq_ok, Prod.mk.injEq, List.append_eq_nil_iff] at h
    obtain ⟨-, ⟨rfl, rfl⟩, rfl⟩ := h
    exact ⟨f, rfl, report_eq_nil.mp hname, htype, report_eq_nil.mp hpath⟩
  | _ =>
    obtain ⟨errors, herrors, h⟩ := bind_eq_ok.mp h
    obtain ⟨-, rfl⟩ := Prod.mk.inj (pure_eq_ok.mp h)
    exact absurd (report_eq_nil.mp herrors) (List.cons_ne_nil _ _)

theorem checkFieldList_clean {label : Yaml} {tm : PyDict} {seen : List String}
    {fields : List Yaml} (h : checkFieldList label tm seen fields = .ok []) :
    ∀ field ∈ fields, ∃ f seen, field = .map f ∧ (checkFieldName label f seen).2 = [] ∧
      checkFieldType label f tm = .ok [] ∧ checkFieldPath label f = [] := by
  induction fields generalizing seen with
  | nil => exact fun _ hf => nomatch hf
  | cons field rest ih =>
    obtain ⟨⟨seen', errors⟩, hfield, h⟩ := bind_eq_ok.mp h
    obtain ⟨restErrors, hrest, h⟩ := bind_eq_ok.mp h
    rw [pure_eq_ok, List.append_eq_nil_iff] at h
    obtain ⟨rfl, rfl⟩ := h
    intro f hf
    rcases List.mem_cons.mp hf with rfl | hf
    · obtain ⟨f, rfl, hclean⟩ := checkField_clean hfield
      exact ⟨f, seen, rfl, hclean⟩
    · exact ih hrest f hf

/-- The type of a field without errors resolves to a supported C type. -/
theorem checkFieldType_accepted {label : Yaml} {tm f : PyDict}
    (h : checkFieldType label f tm = .ok []) :
    ∃ cType, (getCType (dictGetD f "type" (.str "")) tm : Check Yaml) = .ok cType ∧
      isSupported cType = .ok true := by
  obtain ⟨cType, hct, h⟩ := bind_eq_ok.mp h
  obtain ⟨ok, hok, h⟩ := bind_eq_ok.mp h
  rw [report_eq_nil, errorUnless_eq_nil] at h
  exact ⟨cType, hct, h ▸ hok⟩

/-- A wire payload size is the sum of the field sizes, and one more for a reliable message. -/
theorem messageWirePayloadSize_eq_ok {m : Yaml} {tm : PyDict} {n : Nat}
    (h : (messageWirePayloadSize m tm : Check Nat) = .ok n) :
    ∃ v fields sizes reliable, (pyIndex m "fields" : Check Yaml) = .ok v ∧
      (pyIter v : Check (List Yaml)) = .ok fields ∧
      List.Forall₂ (fun field size => (fieldSize tm field : Check Nat) = .ok size) fields sizes ∧
      (messageReliable m : Check Bool) = .ok reliable ∧
      n = sizes.sum + if reliable then 1 else 0 := by
  obtain ⟨base, hbase, h⟩ := bind_eq_ok.mp h
  obtain ⟨v, hv, hbase⟩ := bind_eq_ok.mp hbase
  obtain ⟨fields, hfields, hbase⟩ := bind_eq_ok.mp hbase
  obtain ⟨sizes, hsizes, hbase⟩ := bind_eq_ok.mp hbase
  rw [pure_eq_ok] at hbase
  obtain ⟨reliable, hrel, h⟩ := bind_eq_ok.mp h
  refine ⟨v, fields, sizes, reliable, hv, hfields, mapM_eq_ok.mp hsizes, hrel, ?_⟩
  rw [hbase]
  cases reliable <;> exact (pure_eq_ok.mp h).symm

theorem fieldSize_type {tm f : PyDict} {n : Nat}
    (h : (fieldSize tm (.map f) : Check Nat) = .ok n) :
    ∃ ftype, dictLookup f (.str "type") = some ftype := by
  obtain ⟨ftype, hf, -⟩ := bind_eq_ok.mp h
  obtain ⟨d, hd, hl⟩ := pyIndex_eq_ok.mp hf
  obtain rfl := Yaml.map.inj hd
  exact ⟨ftype, hl⟩

/-- The block on `fields` leaves a nonempty list of fields without errors and a wire size of at most
255. -/
theorem checkFields_clean {label : Yaml} {tm msg : PyDict}
    (hhas : dictHas msg "fields" = true) (h : checkFields label msg tm = .ok []) :
    ∃ fields, dictLookup msg (.str "fields") = some (.list fields) ∧ fields ≠ [] ∧
      checkFieldList label tm [] fields = .ok [] ∧
      ∃ n ≤ 255, (messageWirePayloadSize (.map msg) tm : Check Nat) = .ok n := by
  obtain ⟨v, hv⟩ := dictHas_iff.mp hhas
  rw [checkFields, dictGetD, hv, Option.getD_some] at h
  cases v with
  | scalar s => exact absurd (report_eq_nil.mp h) (List.cons_ne_nil _ _)
  | map entries => exact absurd (report_eq_nil.mp h) (List.cons_ne_nil _ _)
  | list fields =>
    obtain ⟨emptyErrors, hempty, h⟩ := bind_eq_ok.mp h
    obtain ⟨errors, hlist, h⟩ := bind_eq_ok.mp h
    have hne : fields ≠ [] := by
      rintro rfl
      simp only [List.isEmpty_nil, if_true, pure_eq_ok, List.append_eq_nil_iff] at h
      rw [h.1, report_eq_nil, errorUnless_eq_nil] at hempty
      simp [hhas] at hempty
    simp only [List.isEmpty_iff, if_neg hne] at h
    obtain ⟨n, hn, h⟩ := bind_eq_ok.mp h
    obtain ⟨wireErrors, hwire, h⟩ := bind_eq_ok.mp h
    simp only [pure_eq_ok, List.append_eq_nil_iff] at h
    obtain ⟨⟨-, rfl⟩, rfl⟩ := h
    rw [report_eq_nil, errorUnless_eq_nil, decide_eq_true_eq] at hwire
    exact ⟨fields, hv, hne, hlist, n, hwire, hn⟩

/-- Every field of a message that can be sized has a type. -/
theorem fieldTypes_of_wireSize {tm msg : PyDict} {fields : List Yaml} {n : Nat}
    (hfields : dictLookup msg (.str "fields") = some (.list fields))
    (hn : (messageWirePayloadSize (.map msg) tm : Check Nat) = .ok n) :
    ∀ f, .map f ∈ fields → ∃ ftype, dictLookup f (.str "type") = some ftype := by
  obtain ⟨v, items, sizes, -, hitems, hiter, hsizes, -⟩ := messageWirePayloadSize_eq_ok hn
  rw [pyIndex, hfields, Except.ok.injEq] at hitems
  rw [← hitems, pyIter, Except.ok.injEq] at hiter
  subst hiter
  intro f hf
  obtain ⟨size, -, hsize⟩ := exists_right_of_forall₂ hsizes hf
  exact fieldSize_type hsize

/-- The block on `fields` leaves a nonempty list of accepted fields and a wire size of at most
255. -/
theorem checkFields_accepted {label : Yaml} {tm msg : PyDict}
    (hhas : dictHas msg "fields" = true) (h : checkFields label msg tm = .ok []) :
    (∃ fields, dictLookup msg (.str "fields") = some (.list fields) ∧ fields ≠ [] ∧
      ∀ field ∈ fields, FieldAccepted tm field) ∧
    ∃ n ≤ 255, (messageWirePayloadSize (.map msg) tm : Check Nat) = .ok n := by
  obtain ⟨fields, hfields, hne, hlist, n, hle, hn⟩ := checkFields_clean hhas h
  refine ⟨⟨fields, hfields, hne, fun field hfield => ?_⟩, n, hle, hn⟩
  obtain ⟨f, seen, rfl, -, htype, -⟩ := checkFieldList_clean hlist field hfield
  obtain ⟨cType, hct, hsup⟩ := checkFieldType_accepted htype
  obtain ⟨ftype, hft⟩ := fieldTypes_of_wireSize hfields hn f hfield
  obtain ⟨name, rfl, hname⟩ := isSupported_eq_ok.mp hsup
  rw [dictGetD, hft, Option.getD_some] at hct
  exact ⟨f, ftype, name, rfl, hft, hct, hname⟩

-- ---------------------------------------------------------------------------
-- One message
-- ---------------------------------------------------------------------------

theorem checkDirection_accepted {label : Yaml} {msg : PyDict}
    (hhas : dictHas msg "direction" = true) (h : checkDirection label msg = .ok []) :
    ∃ d ∈ validDirections, dictLookup msg (.str "direction") = some (.str d) := by
  obtain ⟨v, hv⟩ := dictHas_iff.mp hhas
  obtain ⟨key, hkey, h⟩ := bind_eq_ok.mp h
  rw [report_eq_nil, errorUnless_eq_nil, List.any_eq_true] at h
  obtain ⟨d, hd, heq⟩ := h
  rw [dictGet_eq hv] at hkey
  cases v with
  | scalar s =>
    rw [hashable, Except.ok.injEq] at hkey
    subst hkey
    rw [Scalar.pyEq_str, decide_eq_true_eq] at heq
    exact ⟨d, hd, by rw [hv, heq]⟩
  | list items => simp [hashable] at hkey
  | map entries => simp [hashable] at hkey

theorem checkReliable_accepted {label : Yaml} {msg : PyDict} (h : checkReliable label msg = [])
    (hrel : (dictGetD msg "reliable" (.bool false)).truthy = true) :
    dictLookup msg (.str "direction") = some (.str "tx") := by
  rw [checkReliable, List.append_eq_nil_iff, errorUnless_eq_nil, errorUnless_eq_nil] at h
  have hdir : dictGet msg "direction" = .str "tx" := by
    rw [← Yaml.pyEq_str]
    simpa [hrel] using h.2
  exact lookup_of_dictGetD hdir (by simp)

/-- The id block accepts `null`, and otherwise a new integer below the reserved ones. -/
theorem checkId_accepted {label : Yaml} {msg : PyDict} {seen seen' : List (Int × Yaml)}
    (hhas : dictHas msg "id" = true) (h : checkId label msg seen = (seen', [])) :
    (dictLookup msg (.str "id") = some .null ∧ seen' = seen) ∨
    ∃ n : Int, 0 ≤ n ∧ n < 0xFD ∧ dictLookup msg (.str "id") = some (.int n) ∧
      n ∉ seen.map (·.1) ∧ seen'.map (·.1) = seen.map (·.1) ++ [n] := by
  obtain ⟨v, hv⟩ := dictHas_iff.mp hhas
  rw [checkId, dictGet_eq hv] at h
  by_cases hnull : v = .null
  · subst hnull
    exact .inl ⟨hv, (congrArg Prod.fst h).symm⟩
  · have hbyte : isByte v = true := by
      by_contra hb
      cases v with
      | scalar s => cases s <;> simp_all
      | _ => simp_all
    obtain ⟨n, h0, h255, rfl⟩ := isByte_iff.mp hbyte
    simp only [hbyte, if_true, Yaml.asInt?, Option.getD_some] at h
    cases hres : reservedIds.lookup n with
    | some name => simp [hres] at h
    | none =>
      cases hdup : seen.lookup n with
      | some other => simp [hres, hdup] at h
      | none =>
        simp only [hres, hdup, Prod.mk.injEq, and_true] at h
        refine .inr ⟨n, h0, ?_, hv, ?_, ?_⟩
        · by_contra hge
          have hcases : n = 0xFD ∨ n = 0xFE ∨ n = 0xFF := by omega
          rcases hcases with rfl | rfl | rfl <;> simp [reservedIds, List.lookup] at hres
        · intro hmem
          obtain ⟨e, he, rfl⟩ := List.mem_map.mp hmem
          simpa using List.lookup_eq_none_iff.mp hdup e he
        · rw [← h, List.map_append, List.map_singleton]

/-- The name block accepts `null`, and otherwise a new name that no system message has, with a new
symbol. -/
theorem checkName_accepted {msg : PyDict} {names names' : List String}
    {symbols symbols' : List (String × String)} (hhas : dictHas msg "name" = true)
    (h : checkName msg names symbols = (names', symbols', [])) :
    (dictLookup msg (.str "name") = some .null ∧ names' = names ∧ symbols' = symbols) ∨
    ∃ s, s ∉ systemMessageNames ∧ dictLookup msg (.str "name") = some (.str s) ∧
      s ∉ names ∧ names' = names ++ [s] ∧ pyUpper s ∉ symbols.map (·.1) ∧
      symbols'.map (·.1) = symbols.map (·.1) ++ [pyUpper s] := by
  obtain ⟨v, hv⟩ := dictHas_iff.mp hhas
  rw [checkName, dictGet_eq hv] at h
  by_cases hnull : v = .null
  · subst hnull
    exact .inl ⟨hv, (congrArg Prod.fst h).symm, (congrArg (·.2.1) h).symm⟩
  · by_cases hstr : ∃ s, v = .str s
    · obtain ⟨s, rfl⟩ := hstr
      simp only at h
      split_ifs at h with h₁ h₂ h₃
      · simp at h
      · simp at h
      · simp at h
      cases hsym : symbols.lookup (pyUpper s) with
      | some other => simp [hsym] at h
      | none =>
        simp only [hsym, Prod.mk.injEq] at h
        refine .inr ⟨s, ?_, hv, ?_, h.1.symm, ?_, ?_⟩
        · simpa using h₂
        · simpa using h₃
        · intro hmem
          obtain ⟨e, he, heq⟩ := List.mem_map.mp hmem
          simpa [heq] using List.lookup_eq_none_iff.mp hsym e he
        · rw [← h.2.1, List.map_append, List.map_singleton]
    · exfalso
      cases v with
      | scalar s => cases s <;> simp_all
      | _ => simp_all

theorem checkDebugLogMode_lookup {label : Yaml} {msg msg' : PyDict} {errors : List ProtocolError}
    (h : checkDebugLogMode label msg = .ok (msg', errors)) {key : String}
    (hne : key ≠ "debug_log_mode") : dictLookup msg' (.str key) = dictLookup msg (.str key) := by
  obtain ⟨mode, -, h⟩ := bind_eq_ok.mp h
  split_ifs at h
  · obtain ⟨rfl, -⟩ := Prod.mk.inj (pure_eq_ok.mp h)
    exact dictLookup_dictSet_ne msg _ hne
  · obtain ⟨errors', -, h⟩ := bind_eq_ok.mp h
    obtain ⟨rfl, -⟩ := Prod.mk.inj (pure_eq_ok.mp h)
    rfl

/-- A message comes back as it was, but for `debug_log_mode`. -/
theorem checkMessage_kept {tm : PyDict} {seen seen' : Seen} {index : Nat} {m : Yaml} {msg' : PyDict}
    {errors : List ProtocolError} (h : checkMessage tm seen index m = .ok (seen', .map msg', errors)) :
    ∃ msg, m = .map msg ∧ ∀ key, key ≠ "debug_log_mode" →
      dictLookup msg' (.str key) = dictLookup msg (.str key) := by
  cases m with
  | map msg =>
    obtain ⟨requiredErrors, -, h⟩ := bind_eq_ok.mp h
    obtain ⟨directionErrors, -, h⟩ := bind_eq_ok.mp h
    obtain ⟨⟨msg', modeErrors⟩, hmode, h⟩ := bind_eq_ok.mp h
    obtain ⟨blockErrors, -, h⟩ := bind_eq_ok.mp h
    obtain ⟨fieldErrors, -, h⟩ := bind_eq_ok.mp h
    simp only [pure_eq_ok, Prod.mk.injEq, Yaml.map.injEq] at h
    obtain ⟨-, rfl, -⟩ := h
    exact ⟨msg, rfl, fun _ => checkDebugLogMode_lookup hmode⟩
  | _ => cases h

/-- No block of the body of the loop complains: `msg₀` before, `msg` after the assignment of
`debug_log_mode`. -/
structure MessageClean (tm : PyDict) (seen : Seen) (label : Yaml) (msg₀ msg : PyDict) : Prop where
  kept : ∀ key, key ≠ "debug_log_mode" → dictLookup msg (.str key) = dictLookup msg₀ (.str key)
  required : checkRequired label msg₀ = []
  direction : checkDirection label msg₀ = .ok []
  reliable : checkReliable label msg = []
  id : (checkId label msg seen.ids).2 = []
  name : (checkName msg seen.names seen.generatedSymbols).2.2 = []
  rosMsg : checkRosMsg label msg = []
  topics : checkTopics label msg = []
  fields : checkFields label msg tm = .ok []

theorem checkMessage_clean {tm : PyDict} {seen seen' : Seen} {index : Nat} {m m' : Yaml}
    (h : checkMessage tm seen index m = .ok (seen', m', [])) :
    ∃ label msg₀ msg, m = .map msg₀ ∧ m' = .map msg ∧ MessageClean tm seen label msg₀ msg ∧
      seen'.ids = (checkId label msg seen.ids).1 ∧
      seen'.names = (checkName msg seen.names seen.generatedSymbols).1 ∧
      seen'.generatedSymbols = (checkName msg seen.names seen.generatedSymbols).2.1 := by
  cases m with
  | map msg₀ =>
    obtain ⟨requiredErrors, hreq, h⟩ := bind_eq_ok.mp h
    obtain ⟨directionErrors, hdir, h⟩ := bind_eq_ok.mp h
    obtain ⟨⟨msg, modeErrors⟩, hmode, h⟩ := bind_eq_ok.mp h
    simp only at h
    obtain ⟨blockErrors, hblocks, h⟩ := bind_eq_ok.mp h
    obtain ⟨fieldErrors, hfields, h⟩ := bind_eq_ok.mp h
    simp only [pure_eq_ok, Prod.mk.injEq, List.append_eq_nil_iff] at h
    obtain ⟨rfl, rfl, ⟨⟨⟨rfl, rfl⟩, -⟩, rfl⟩, rfl⟩ := h
    rw [report_eq_nil] at hreq hblocks
    simp only [List.append_eq_nil_iff] at hblocks
    obtain ⟨⟨⟨⟨⟨⟨hrel, hid⟩, hname⟩, hros⟩, htopics⟩, -⟩, -⟩ := hblocks
    exact ⟨_, msg₀, msg, rfl, rfl, ⟨fun _ => checkDebugLogMode_lookup hmode, hreq, hdir, hrel, hid,
      hname, hros, htopics, hfields⟩, rfl, rfl, rfl⟩
  | _ => simp [checkMessage] at h

/-- The required keys are there. -/
theorem MessageClean.has {tm : PyDict} {seen : Seen} {label : Yaml} {msg₀ msg : PyDict}
    (h : MessageClean tm seen label msg₀ msg) :
    ∀ key ∈ ["name", "id", "direction", "ros_msg", "fields"], dictHas msg key = true := by
  intro key hkey
  have hne : key ≠ "debug_log_mode" := by
    rintro rfl
    simp at hkey
  have hreq := h.required
  rw [checkRequired, List.flatMap_eq_nil_iff] at hreq
  have hhas := hreq key hkey
  rwa [errorUnless_eq_nil, dictHas, ← h.kept key hne] at hhas

theorem MessageClean.direction_lookup {tm : PyDict} {seen : Seen} {label : Yaml}
    {msg₀ msg : PyDict} (h : MessageClean tm seen label msg₀ msg) :
    ∃ d ∈ validDirections, dictLookup msg (.str "direction") = some (.str d) := by
  have hhas := h.has "direction" (by simp)
  rw [dictHas, h.kept _ (by decide)] at hhas
  rw [h.kept _ (by decide)]
  exact checkDirection_accepted hhas h.direction

/-- **One message**: it is accepted, and its id, its name and the symbol of its name are new. -/
theorem checkMessage_accepted {tm : PyDict} {seen seen' : Seen} {index : Nat} {m m' : Yaml}
    (h : checkMessage tm seen index m = .ok (seen', m', [])) :
    (∃ msg, m' = .map msg ∧ MessageAccepted tm msg) ∧
    (∀ n, m'.messageId? = some n → n ∉ seen.ids.map (·.1)) ∧
    seen'.ids.map (·.1) = seen.ids.map (·.1) ++ m'.messageId?.toList ∧
    (∀ s, m'.messageName? = some s → s ∉ seen.names) ∧
    seen'.names = seen.names ++ m'.messageName?.toList ∧
    (∀ s, m'.messageName? = some s → pyUpper s ∉ seen.generatedSymbols.map (·.1)) ∧
    seen'.generatedSymbols.map (·.1) =
      seen.generatedSymbols.map (·.1) ++ (m'.messageName?.map pyUpper).toList := by
  obtain ⟨label, msg₀, msg, rfl, rfl, hclean, hseenIds, hseenNames, hseenSymbols⟩ :=
    checkMessage_clean h
  have hids := checkId_accepted (hclean.has "id" (by simp)) (Prod.ext hseenIds.symm hclean.id)
  have hnames := checkName_accepted (hclean.has "name" (by simp))
    (Prod.ext hseenNames.symm (Prod.ext hseenSymbols.symm hclean.name))
  obtain ⟨hfieldsOk, hwire⟩ := checkFields_accepted (hclean.has "fields" (by simp)) hclean.fields
  refine ⟨⟨msg, rfl, ?_, ?_, hclean.direction_lookup, checkReliable_accepted hclean.reliable,
    hfieldsOk, hwire⟩, ?_, ?_, ?_, ?_, ?_, ?_⟩
  · rcases hids with ⟨h, -⟩ | ⟨n, h0, hlt, h, -⟩
    · exact .inl h
    · exact .inr ⟨n, h0, hlt, h⟩
  · rcases hnames with ⟨h, -⟩ | ⟨s, hs, h, -⟩
    · exact .inl h
    · exact .inr ⟨s, hs, h⟩
  · rcases hids with ⟨h, -⟩ | ⟨n, -, -, h, hnew, -⟩
    · simp [Yaml.messageId?, dictGet_eq h]
    · simpa [Yaml.messageId?, dictGet_eq h] using hnew
  · rcases hids with ⟨h, hseen⟩ | ⟨n, -, -, h, -, hseen⟩ <;>
      simp [Yaml.messageId?, dictGet_eq h, hseen, Yaml.asInt?]
  · rcases hnames with ⟨h, -⟩ | ⟨s, -, h, hnew, -⟩
    · simp [Yaml.messageName?, dictGet_eq h]
    · simpa [Yaml.messageName?, dictGet_eq h] using hnew
  · rcases hnames with ⟨h, hseen, -⟩ | ⟨s, -, h, -, hseen, -⟩ <;>
      simp [Yaml.messageName?, dictGet_eq h, hseen, Yaml.asStr?]
  · rcases hnames with ⟨h, -⟩ | ⟨s, -, h, -, -, hnew, -⟩
    · simp [Yaml.messageName?, dictGet_eq h]
    · simpa [Yaml.messageName?, dictGet_eq h] using hnew
  · rcases hnames with ⟨h, -, hseen⟩ | ⟨s, -, h, -, -, -, hseen⟩ <;>
      simp [Yaml.messageName?, dictGet_eq h, hseen, Yaml.asStr?]

-- ---------------------------------------------------------------------------
-- All messages
-- ---------------------------------------------------------------------------

/-- What the body of the loop says of a message before and after it; without errors, of one without
errors. -/
theorem checkMessages_forall₂ {tm : PyDict} {R : Yaml → Yaml → Prop} {errors : List ProtocolError}
    (hR : ∀ {seen seen' index m m' es}, checkMessage tm seen index m = .ok (seen', m', es) →
      (errors = [] → es = []) → R m m') {seen : Seen} {index : Nat} {ms ms' : List Yaml}
    (h : checkMessages tm seen index ms = .ok (ms', errors)) : List.Forall₂ R ms ms' := by
  induction ms generalizing seen index ms' errors with
  | nil =>
    obtain ⟨rfl, -⟩ := Prod.mk.inj (pure_eq_ok.mp h)
    exact .nil
  | cons m ms ih =>
    obtain ⟨⟨seen', m', es⟩, hm, h⟩ := bind_eq_ok.mp h
    obtain ⟨⟨msgs, restErrors⟩, hrest, h⟩ := bind_eq_ok.mp h
    obtain ⟨rfl, rfl⟩ := Prod.mk.inj (pure_eq_ok.mp h)
    refine .cons (hR hm fun hnil => (List.append_eq_nil_iff.mp hnil).1) (ih ?_ hrest)
    exact fun hm' hes => hR hm' fun hnil => hes (List.append_eq_nil_iff.mp hnil).2

/-- The messages come back as they were, but for `debug_log_mode`. -/
theorem checkMessages_kept {tm : PyDict} {seen : Seen} {index : Nat} {ms ms' : List Yaml}
    {errors : List ProtocolError} (h : checkMessages tm seen index ms = .ok (ms', errors)) :
    List.Forall₂ (fun m m' => ∀ msg', m' = .map msg' → ∃ msg, m = .map msg ∧
      ∀ key, key ≠ "debug_log_mode" → dictLookup msg' (.str key) = dictLookup msg (.str key)) ms
      ms' := by
  refine checkMessages_forall₂ (fun hm _ => ?_) h
  rintro msg' rfl
  exact checkMessage_kept hm

/-- What the loop remembers of the messages, new at every message, is never there twice. -/
theorem checkMessages_nodup {tm : PyDict} {α : Type} (known : Seen → List α) {f : Yaml → Option α}
    (hstep : ∀ {seen seen' index m m'}, checkMessage tm seen index m = .ok (seen', m', []) →
      (∀ a, f m' = some a → a ∉ known seen) ∧ known seen' = known seen ++ (f m').toList)
    {seen : Seen} {index : Nat} {ms ms' : List Yaml}
    (h : checkMessages tm seen index ms = .ok (ms', [])) (hnd : (known seen).Nodup) :
    (known seen ++ ms'.filterMap f).Nodup := by
  induction ms generalizing seen index ms' with
  | nil =>
    rw [checkMessages, pure_eq_ok, Prod.mk.injEq] at h
    obtain ⟨rfl, -⟩ := h
    simpa using hnd
  | cons m ms ih =>
    obtain ⟨⟨seen', m', errors⟩, hm, h⟩ := bind_eq_ok.mp h
    obtain ⟨⟨msgs, restErrors⟩, hrest, h⟩ := bind_eq_ok.mp h
    simp only [pure_eq_ok, Prod.mk.injEq, List.append_eq_nil_iff] at h
    obtain ⟨rfl, rfl, rfl⟩ := h
    obtain ⟨hnew, hseen⟩ := hstep hm
    have hcons : (m' :: msgs).filterMap f = (f m').toList ++ msgs.filterMap f := by
      cases hf : f m' <;> simp [hf]
    rw [hcons, ← List.append_assoc, ← hseen]
    refine ih hrest ?_
    -- the tail starts with what was remembered of the head
    rw [hseen]
    cases hf : f m' with
    | none => simpa using hnd
    | some a => simpa using List.Nodup.concat (hnew a hf) hnd

/-- **The loop**: every message is accepted, and no id or name is taken twice. -/
theorem checkMessages_accepted {tm : PyDict} {seen : Seen} {index : Nat} {ms ms' : List Yaml}
    (h : checkMessages tm seen index ms = .ok (ms', [])) :
    (∀ m ∈ ms', ∃ msg, m = .map msg ∧ MessageAccepted tm msg) ∧
    ((seen.ids.map (·.1)).Nodup →
      (seen.ids.map (·.1) ++ ms'.filterMap Yaml.messageId?).Nodup) ∧
    (seen.names.Nodup → (seen.names ++ ms'.filterMap Yaml.messageName?).Nodup) := by
  refine ⟨fun m' hm' => ?_, checkMessages_nodup (fun seen => seen.ids.map (·.1)) (fun hm => ?_) h,
    checkMessages_nodup Seen.names (fun hm => ?_) h⟩
  · have hall : List.Forall₂ (fun _ m' => ∃ msg, m' = .map msg ∧ MessageAccepted tm msg) ms ms' := by
      refine checkMessages_forall₂ (fun hm hes => ?_) h
      obtain rfl := hes rfl
      exact (checkMessage_accepted hm).1
    obtain ⟨-, -, hm⟩ := exists_left_of_forall₂ hall hm'
    exact hm
  · obtain ⟨-, hnew, hseen, -⟩ := checkMessage_accepted hm
    exact ⟨hnew, hseen⟩
  · obtain ⟨-, -, -, hnew, hseen, -⟩ := checkMessage_accepted hm
    exact ⟨hnew, hseen⟩

/-- No generated symbol is taken twice. -/
theorem checkMessages_symbols {tm : PyDict} {seen : Seen} {index : Nat} {ms ms' : List Yaml}
    (h : checkMessages tm seen index ms = .ok (ms', []))
    (hnd : (seen.generatedSymbols.map (·.1)).Nodup) :
    (seen.generatedSymbols.map (·.1) ++
      ms'.filterMap fun m => m.messageName?.map pyUpper).Nodup := by
  refine checkMessages_nodup (fun seen => seen.generatedSymbols.map (·.1)) (fun hm => ?_) h hnd
  obtain ⟨-, -, -, -, -, hnew, hseen⟩ := checkMessage_accepted hm
  refine ⟨fun symbol hsymbol => ?_, hseen⟩
  obtain ⟨s, hs, rfl⟩ := Option.map_eq_some_iff.mp hsymbol
  exact hnew s hs

-- ---------------------------------------------------------------------------
-- The configuration
-- ---------------------------------------------------------------------------

/-- What acceptance says of a configuration with these `config`, `type_mappings` and `messages`. -/
structure ConfigAccepted (root cfg typeMappings : PyDict) (messages : List Yaml) : Prop where
  config : dictLookup root (.str "config") = some (.map cfg)
  type_mappings : dictGetD root "type_mappings" (.map []) = .map typeMappings
  messages_list : dictGetD root "messages" (.list []) = .list messages
  checksum : ∃ s ∈ supportedChecksums, dictLookup cfg (.str "checksum") = some (.str s)
  headByte : ∀ key ∈ ["head_byte_1", "head_byte_2"],
    ∃ n : Int, 0 ≤ n ∧ n ≤ 255 ∧ dictLookup cfg (.str key) = some (.int n)
  buffer_size : ∃ n : Int, 0 < n ∧ dictLookup cfg (.str "buffer_size") = some (.int n) ∧
    ∃ merged sizes,
      (mergeMessages (.list (messages.filter isSizable)) : Check (List Yaml)) = .ok merged ∧
      merged.mapM (fun m => messageWirePayloadSize m typeMappings) =
        (.ok sizes : Check (List Nat)) ∧
      ((pyMax (sizes.map (· + 5)) : Nat) : Int) ≤ n
  booleans : ∀ key ∈ booleanKeys, (dictGetD cfg key (.bool true)).isBool = true
  positives : ∀ key ∈ positiveKeys,
    ∃ n : Int, 0 < n ∧ dictGetD cfg key.1 (.int key.2) = .int n
  message : ∀ m ∈ messages, ∃ msg, m = .map msg ∧ MessageAccepted typeMappings msg
  ids_nodup : (messages.filterMap Yaml.messageId?).Nodup
  names_nodup : (messages.filterMap Yaml.messageName?).Nodup

theorem checkBufferSize_accepted {cfg tm : PyDict} {ms : List Yaml} {n : Int} (hn : 0 < n)
    (hcfg : dictLookup cfg (.str "buffer_size") = some (.int n))
    (h : checkBufferSize cfg tm ms = .ok []) :
    ∃ merged sizes,
      (mergeMessages (.list (ms.filter isSizable)) : Check (List Yaml)) = .ok merged ∧
      merged.mapM (fun m => messageWirePayloadSize m tm) = (.ok sizes : Check (List Nat)) ∧
      ((pyMax (sizes.map (· + 5)) : Nat) : Int) ≤ n := by
  rw [checkBufferSize, dictGet_eq hcfg] at h
  simp only [Yaml.asInt?] at h
  rw [if_pos hn] at h
  obtain ⟨merged, hmerged, h⟩ := bind_eq_ok.mp h
  obtain ⟨sizes, hsizes, h⟩ := bind_eq_ok.mp h
  refine ⟨merged, sizes, hmerged, hsizes, ?_⟩
  simpa [errorUnless_eq_nil] using h

/-- A repeated `str.upper` changes nothing on a supported checksum. -/
theorem pyUpper_supported {s : String} (h : s ∈ supportedChecksums) : pyUpper s = s := by
  simp only [supportedChecksums, List.mem_cons, List.not_mem_nil, or_false] at h
  rcases h with rfl | rfl | rfl | rfl <;> decide

theorem topLevelMapping_accepted {v : Yaml} {e : ProtocolError} {entries : PyDict}
    (h : topLevelMapping v e = (entries, [])) : v = .map entries := by
  cases v with
  | map d => rw [(Prod.mk.inj h).1]
  | scalar s => simp [topLevelMapping] at h
  | list items => simp [topLevelMapping] at h

/-- `config`, `type_mappings` and `messages` of the configuration the validator returns. -/
theorem assignedRoot_lookup (root cfg : PyDict) (messages : List Yaml) :
    dictLookup (assignedRoot root cfg messages) (.str "config") =
      some (.map (dictSet cfg "checksum" (.str (checksumText cfg)))) ∧
    dictLookup (assignedRoot root cfg messages) (.str "type_mappings") =
      dictLookup root (.str "type_mappings") ∧
    dictLookup (assignedRoot root cfg messages) (.str "messages") =
      (dictLookup root (.str "messages")).map fun _ => .list messages := by
  have hmessages : dictLookup (dictSet root "config"
      (.map (dictSet cfg "checksum" (.str (checksumText cfg))))) (.str "messages") =
        dictLookup root (.str "messages") :=
    dictLookup_dictSet_ne root _ (by decide)
  cases h : dictLookup root (.str "messages") <;>
    simp [assignedRoot, dictHas, hmessages, h, dictLookup_dictSet_self, dictLookup_dictSet_ne]

/-- Nothing else is assigned. -/
theorem assignedRoot_lookup_ne (root cfg : PyDict) (messages : List Yaml) {key : String}
    (hconfig : key ≠ "config") (hmessages : key ≠ "messages") :
    dictLookup (assignedRoot root cfg messages) (.str key) = dictLookup root (.str key) := by
  simp only [assignedRoot]
  split_ifs
  · rw [dictLookup_dictSet_ne _ _ hmessages, dictLookup_dictSet_ne _ _ hconfig]
  · rw [dictLookup_dictSet_ne _ _ hconfig]

-- ---------------------------------------------------------------------------
-- The parts of a configuration
-- ---------------------------------------------------------------------------

/-- The value of `config`, `type_mappings` or `messages`, where it has the right form. -/
def configOf (root : PyDict) : PyDict :=
  (topLevelMapping (dictGetD root "config" (.map [])) .configNotMapping).1

@[inherit_doc configOf]
def mappingsOf (root : PyDict) : PyDict :=
  (topLevelMapping (dictGetD root "type_mappings" (.map [])) .typeMappingsNotMapping).1

@[inherit_doc configOf]
def messagesOf (root : PyDict) : List Yaml :=
  (topLevelMessages (dictGetD root "messages" (.list []))).1

/-- The validator with its parts by name. -/
theorem validateProtocol_map (root : PyDict) :
    validateProtocol (.map root) = (do
      let params ← pyGet? (dictGetD root "serial_controller" (.map [])) "ros__parameters"
      let _ ← strOf (dictGetD (configOf root) "checksum" (.str "CRC8"))
      let configErrors ← report (checkSerialParams (configOf root)
        (topLevelMapping (params.getD (.map [])) .serialParamsNotMapping).1 ++
        checkConfig (configOf root))
      let r ← checkMessages (mappingsOf root) .initial 0 (messagesOf root)
      let bufferErrors ← checkBufferSize (configOf root) (mappingsOf root) r.1
      let errors :=
        (topLevelMapping (dictGetD root "config" (.map [])) .configNotMapping).2 ++
        (topLevelMessages (dictGetD root "messages" (.list []))).2 ++
        (topLevelMapping (dictGetD root "type_mappings" (.map [])) .typeMappingsNotMapping).2 ++
        (topLevelMapping (params.getD (.map [])) .serialParamsNotMapping).2 ++ configErrors ++
        r.2 ++ bufferErrors
      if errors.isEmpty then return .map (assignedRoot root (configOf root) r.1)
      else throw (.systemExit errors)) := rfl

/-- What the validator found in a configuration it accepts, and what it made of the messages. -/
structure Validated (root : PyDict) (messages : List Yaml) : Prop where
  type_mappings : dictGetD root "type_mappings" (.map []) = .map (mappingsOf root)
  serial_controller : ∃ d serialParams, dictGetD root "serial_controller" (.map []) = .map d ∧
    dictGetD d "ros__parameters" (.map []) = .map serialParams ∧
    checkSerialParams (configOf root) serialParams = []
  config : checkConfig (configOf root) = []
  loop : checkMessages (mappingsOf root) .initial 0 (messagesOf root) = .ok (messages, [])
  buffer_size : checkBufferSize (configOf root) (mappingsOf root) messages = .ok []

/-- **What acceptance says**, block by block. -/
theorem validateProtocol_eq_ok {raw configData : Yaml} (h : validateProtocol raw = .ok configData) :
    ∃ root messages, raw = .map root ∧ Validated root messages ∧
      configData = .map (assignedRoot root (configOf root) messages) := by
  cases raw with
  | map root =>
    rw [validateProtocol_map] at h
    obtain ⟨params, hparams, h⟩ := bind_eq_ok.mp h
    obtain ⟨checksum, -, h⟩ := bind_eq_ok.mp h
    obtain ⟨configErrors, hconfig, h⟩ := bind_eq_ok.mp h
    obtain ⟨⟨messages, messageErrors⟩, hloop, h⟩ := bind_eq_ok.mp h
    obtain ⟨bufferErrors, hbuffer, hret⟩ := bind_eq_ok.mp h
    simp only [List.isEmpty_iff, List.append_eq_nil_iff] at hret
    split_ifs at hret with herrors
    obtain ⟨⟨⟨⟨⟨⟨-, -⟩, hmappings⟩, hserial⟩, rfl⟩, rfl⟩, rfl⟩ := herrors
    rw [report_eq_nil, List.append_eq_nil_iff] at hconfig
    refine ⟨root, messages, rfl, ⟨?_, ?_, hconfig.2, hloop, hbuffer⟩, (pure_eq_ok.mp hret).symm⟩
    · exact topLevelMapping_accepted (Prod.ext rfl hmappings)
    · cases hd : dictGetD root "serial_controller" (.map []) with
      | map d =>
        rw [hd] at hparams
        obtain rfl := Except.ok.inj hparams
        exact ⟨d, _, rfl, topLevelMapping_accepted (Prod.ext rfl hserial), hconfig.1⟩
      | _ =>
        rw [hd] at hparams
        cases hparams
  | _ => cases h

section Assigned

variable (root : PyDict) (messages : List Yaml)

theorem configOf_assignedRoot :
    configOf (assignedRoot root (configOf root) messages) =
      dictSet (configOf root) "checksum" (.str (checksumText (configOf root))) := by
  unfold configOf
  rw [dictGetD, (assignedRoot_lookup _ _ _).1, Option.getD_some, topLevelMapping]

theorem mappingsOf_assignedRoot (cfg : PyDict) :
    mappingsOf (assignedRoot root cfg messages) = mappingsOf root := by
  unfold mappingsOf
  rw [dictGetD, dictGetD, (assignedRoot_lookup _ _ _).2.1]

/-- The messages of the configuration the validator returns. -/
theorem messages_assignedRoot {root : PyDict} {messages : List Yaml} (cfg : PyDict)
    (h : Validated root messages) :
    dictGetD (assignedRoot root cfg messages) "messages" (.list []) = .list messages := by
  rw [dictGetD, (assignedRoot_lookup _ _ _).2.2]
  cases hl : dictLookup root (.str "messages") with
  | some v => rfl
  | none =>
    have hloop := h.loop
    rw [messagesOf, dictGetD, hl, Option.getD_none, topLevelMessages, checkMessages, pure_eq_ok,
      Prod.mk.injEq] at hloop
    rw [← hloop.1]
    rfl

theorem messagesOf_assignedRoot {root : PyDict} {messages : List Yaml} (cfg : PyDict)
    (h : Validated root messages) : messagesOf (assignedRoot root cfg messages) = messages := by
  rw [messagesOf, messages_assignedRoot _ h, topLevelMessages]

end Assigned

/-- **An accepted configuration.** -/
theorem validateProtocol_accepted {raw configData : Yaml}
    (h : validateProtocol raw = .ok configData) :
    ∃ root cfg tm messages, configData = .map root ∧ ConfigAccepted root cfg tm messages := by
  obtain ⟨root, messages, rfl, hval, rfl⟩ := validateProtocol_eq_ok h
  obtain ⟨hall, hids, hnames⟩ := checkMessages_accepted hval.loop
  have hconfig := hval.config
  rw [checkConfig] at hconfig
  simp only [List.append_eq_nil_iff, List.flatMap_eq_nil_iff, errorUnless_eq_nil] at hconfig
  obtain ⟨⟨⟨⟨⟨⟨hchecksum, hhead⟩, hbuffer⟩, -⟩, hbool⟩, hpos⟩, -⟩ := hconfig
  -- only `checksum` was assigned
  have hcfgNe : ∀ key, key ≠ "checksum" →
      dictLookup (dictSet (configOf root) "checksum" (.str (checksumText (configOf root))))
        (.str key) = dictLookup (configOf root) (.str key) :=
    fun key hne => dictLookup_dictSet_ne _ _ hne
  refine ⟨_, _, mappingsOf root, messages, rfl, (assignedRoot_lookup _ _ _).1, ?_,
    messages_assignedRoot _ hval, ?_, ?_, ?_, ?_, ?_, hall, ?_, ?_⟩
  · rw [dictGetD, (assignedRoot_lookup _ _ _).2.1, ← dictGetD]
    exact hval.type_mappings
  · exact ⟨checksumText _, by simpa using hchecksum, dictLookup_dictSet_self _ _ _⟩
  · intro key hkey
    obtain ⟨n, h0, h255, hn⟩ := isByte_iff.mp (hhead key hkey)
    refine ⟨n, h0, h255, ?_⟩
    have hne : ∀ key ∈ ["head_byte_1", "head_byte_2"], key ≠ "checksum" := by decide
    rw [hcfgNe key (hne key hkey)]
    exact lookup_of_dictGetD hn (by simp)
  · obtain ⟨n, hn, hlookup⟩ := isPositiveInt_iff.mp hbuffer
    have hl := lookup_of_dictGetD hlookup (by simp)
    exact ⟨n, hn, by rw [hcfgNe _ (by decide), hl], checkBufferSize_accepted hn hl hval.buffer_size⟩
  · intro key hkey
    have hne : ∀ key ∈ booleanKeys, key ≠ "checksum" := by decide
    rw [dictGetD, hcfgNe key (hne key hkey)]
    exact hbool key hkey
  · intro key hkey
    have hne : ∀ key ∈ positiveKeys, key.1 ≠ "checksum" := by decide
    rw [dictGetD, hcfgNe key.1 (hne key hkey)]
    exact isPositiveInt_iff.mp (hpos key hkey)
  · simpa [Seen.initial] using hids (by simp [Seen.initial])
  · simpa [Seen.initial] using hnames (by simp [Seen.initial])

end AutoSerialBridge
