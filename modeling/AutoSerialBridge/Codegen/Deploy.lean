import AutoSerialBridge.Codegen.Accepted
import AutoSerialBridge.Codegen.Generate

/-!
# Auto Serial Bridge — from an accepted configuration to the compiled protocol

Every protocol compiled from an accepted configuration is `WellFormed`: its ids and names are
distinct, its constants are consistent with its messages, and the system messages are there. The
sizes that `codegen.py` computes are those of the compiled structs for every message of the
configuration (`CompiledFrom.wireSize_eq`), because their types are checked against the table. The
injected system messages go through `type_mappings` as well, but nothing checks what comes out.

## Results

* `Deployed.wellFormed`: **a deployed protocol is well-formed**.
-/

namespace AutoSerialBridge

open Lib

-- ---------------------------------------------------------------------------
-- Sorting and merging
-- ---------------------------------------------------------------------------

/-- The order `sorted` leaves messages in. -/
def IdLe (m m' : Yaml) : Prop :=
  ∃ q q', (sortKey m : Check ℚ) = .ok q ∧ (sortKey m' : Check ℚ) = .ok q' ∧ q ≤ q'

theorem sortedById_spec {ms out : List Yaml}
    (h : (sortedById ms : Check (List Yaml)) = .ok out) :
    out.Perm ms ∧ out.Pairwise IdLe ∧ ∀ m ∈ ms, ∃ q, (sortKey m : Check ℚ) = .ok q := by
  obtain ⟨keyed, hkeyed, h⟩ := bind_eq_ok.mp h
  rw [pure_eq_ok] at h
  have hpairs := mapM_eq_ok.mp hkeyed
  have hone : ∀ (m : Yaml) (e : ℚ × Yaml),
      (do return (← sortKey m, m) : Check (ℚ × Yaml)) = .ok e →
      m = e.2 ∧ (sortKey m : Check ℚ) = .ok e.1 := by
    intro m e he
    obtain ⟨q, hq, he⟩ := bind_eq_ok.mp he
    rw [pure_eq_ok] at he
    exact ⟨by rw [← he], by rw [hq, ← he]⟩
  refine ⟨?_, ?_, ?_⟩
  · have hsnd : ms.map id = keyed.map (·.2) :=
      map_eq_of_forall₂ hpairs fun m e hm he => (hone m e he).1
    rw [← h, ← List.map_id ms, hsnd]
    exact (List.perm_insertionSort _ _).map _
  · have htotal : Std.Total fun a b : ℚ × Yaml => a.1 ≤ b.1 := ⟨fun a b => le_total a.1 b.1⟩
    have htrans : IsTrans (ℚ × Yaml) fun a b => a.1 ≤ b.1 := ⟨fun _ _ _ => le_trans⟩
    have hsorted := List.pairwise_insertionSort (fun a b : ℚ × Yaml => a.1 ≤ b.1) keyed
    have hkey : ∀ e ∈ keyed.insertionSort fun a b => a.1 ≤ b.1,
        (sortKey e.2 : Check ℚ) = .ok e.1 := by
      intro e he
      obtain ⟨m, -, he⟩ :=
        exists_left_of_forall₂ hpairs ((List.perm_insertionSort _ _).mem_iff.mp he)
      obtain ⟨rfl, hq⟩ := hone m e he
      exact hq
    rw [← h, List.pairwise_map]
    exact hsorted.imp_of_mem fun ha hb hle => ⟨_, _, hkey _ ha, hkey _ hb, hle⟩
  · intro m hm
    obtain ⟨e, -, he⟩ := exists_right_of_forall₂ hpairs hm
    exact ⟨e.1, (hone m e he).2⟩

theorem returns_sortedById {ms : List Yaml} :
    Returns (sortedById ms : Check (List Yaml)) ↔ ∀ m ∈ ms, Returns (sortKey m : Check ℚ) := by
  unfold sortedById
  rw [returns_bind_pure, returns_mapM]
  simp only [returns_bind_pure]

/-- `merge_messages` sorts the business and the system messages. -/
theorem mergeMessages_list (ms : List Yaml) :
    (mergeMessages (.list ms) : Check (List Yaml)) = sortedById (ms ++ systemMessages) := by
  cases ms <;> rfl

-- ---------------------------------------------------------------------------
-- Sizes
-- ---------------------------------------------------------------------------

theorem cTypeSize_bounds {cType : Yaml} {n : Nat} (h : (cTypeSize cType : Check Nat) = .ok n) :
    1 ≤ n ∧ n ≤ 4 := by
  obtain ⟨key, -, h⟩ := bind_eq_ok.mp h
  cases key with
  | str name =>
    rw [pure_eq_ok] at h
    subst h
    have htable : ∀ e ∈ cTypeSizes, 1 ≤ e.2 ∧ e.2 ≤ 4 := by decide
    cases hl : cTypeSizes.lookup name with
    | none => exact ⟨Nat.le_refl 1, by decide⟩
    | some n =>
      obtain ⟨l₁, l₂, heq, -⟩ := List.lookup_eq_some_iff.mp hl
      exact htable (name, n) (by rw [heq]; simp)
  | _ =>
    rw [pure_eq_ok] at h
    omega

/-- The table agrees with the compiler on the supported types. -/
theorem CTarget.size_supported (t : CTarget) {name : String} {n : Nat} {c : CType}
    (hn : cTypeSizes.lookup name = some n) (hc : t.typeOf name = some c) : c.size = n := by
  obtain ⟨l₁, l₂, heq, -⟩ := List.lookup_eq_some_iff.mp hn
  have hmem : (name, n) ∈ cTypeSizes := by rw [heq]; simp
  simp only [cTypeSizes, List.mem_cons, Prod.mk.injEq, List.not_mem_nil, or_false] at hmem
  obtain ⟨f, hf, hfsize, -⟩ := t.float
  rcases hmem with ⟨rfl, rfl⟩ | ⟨rfl, rfl⟩ | ⟨rfl, rfl⟩ | ⟨rfl, rfl⟩ | ⟨rfl, rfl⟩
  · rw [t.uint8_t, Option.some.injEq] at hc
    rw [← hc, CType.integer]
  · rw [t.uint16_t, Option.some.injEq] at hc
    rw [← hc, CType.integer]
  · rw [t.uint32_t, Option.some.injEq] at hc
    rw [← hc, CType.integer]
  · rw [t.int32_t, Option.some.injEq] at hc
    rw [← hc, CType.integer]
  · rw [hf, Option.some.injEq] at hc
    rw [← hc, hfsize]

theorem fieldSize_bounds {tm : PyDict} {field : Yaml} {n : Nat}
    (h : (fieldSize tm field : Check Nat) = .ok n) : 1 ≤ n ∧ n ≤ 4 := by
  obtain ⟨ftype, -, h⟩ := bind_eq_ok.mp h
  obtain ⟨cType, -, h⟩ := bind_eq_ok.mp h
  exact cTypeSize_bounds h

theorem sum_bounds (lo hi : Nat) {sizes : List Nat} (h : ∀ n ∈ sizes, lo ≤ n ∧ n ≤ hi) :
    lo * sizes.length ≤ sizes.sum ∧ sizes.sum ≤ hi * sizes.length := by
  induction sizes with
  | nil => simp
  | cons n sizes ih =>
    have hn := h n List.mem_cons_self
    have := ih fun n hn => h n (List.mem_cons_of_mem _ hn)
    rw [List.sum_cons, List.length_cons, Nat.mul_succ, Nat.mul_succ]
    omega

/-- A member is compiled from a field. -/
def FieldCompiled (t : CTarget) (tm : PyDict) (field : Yaml) (f : Field) : Prop :=
  ∃ ftype cType, (pyIndex field "type" : Check Yaml) = .ok ftype ∧
    (getCType ftype tm : Check Yaml) = .ok cType ∧ t.typeOf (pyStr cType) = some f.cType

/-- The generator knows the size of a field whose type it checked. -/
theorem fieldSize_eq {t : CTarget} {tm : PyDict} {field : Yaml} {f : Field} {n : Nat}
    (hacc : FieldAccepted tm field) (hsize : (fieldSize tm field : Check Nat) = .ok n)
    (hf : FieldCompiled t tm field f) : f.cType.size = n := by
  obtain ⟨d, ftype, name, rfl, hl, hct, hname⟩ := hacc
  obtain ⟨ftype', cType, hftype, hctype, htype⟩ := hf
  rw [pyIndex, hl, Except.ok.injEq] at hftype
  subst hftype
  rw [hct, Except.ok.injEq] at hctype
  subst hctype
  obtain ⟨k, hk⟩ := Option.isSome_iff_exists.mp hname
  have hpy : (fieldSize tm (.map d) : Check Nat) = .ok k := by
    refine bind_eq_ok.mpr ⟨ftype, by rw [pyIndex, hl], bind_eq_ok.mpr ⟨_, hct, ?_⟩⟩
    refine bind_eq_ok.mpr ⟨.str name, rfl, ?_⟩
    rw [pure_eq_ok, hk, Option.getD_some]
  rw [hpy, Except.ok.injEq] at hsize
  rw [t.size_supported hk htype, hsize]

/-- The sizes of all members, if the generator knows the size of every one. -/
theorem fieldSizes_eq {t : CTarget} {tm : PyDict} {fields : List Yaml} {sizes : List Nat}
    {fs : List Field}
    (hall : ∀ field ∈ fields, ∀ {f : Field} {n : Nat},
      (fieldSize tm field : Check Nat) = .ok n → FieldCompiled t tm field f → f.cType.size = n)
    (hsizes : List.Forall₂ (fun field size => (fieldSize tm field : Check Nat) = .ok size)
      fields sizes)
    (hfields : List.Forall₂ (FieldCompiled t tm) fields fs) :
    fs.map (·.cType.size) = sizes := by
  induction hsizes generalizing fs with
  | nil =>
    rw [List.forall₂_nil_left_iff.mp hfields]
    rfl
  | cons hsize _ ih =>
    obtain ⟨f, fs, hf, hrest, rfl⟩ := List.forall₂_cons_left_iff.mp hfields
    rw [List.map_cons, hall _ List.mem_cons_self hsize hf,
      ih (fun field hfield => hall field (List.mem_cons_of_mem _ hfield)) hrest]

-- ---------------------------------------------------------------------------
-- One message
-- ---------------------------------------------------------------------------

/-- `message` is generated and compiled from the YAML value `m`. -/
structure CompiledFrom (t : CTarget) (tm : PyDict) (m : Yaml) (wirePayloadSize : Nat)
    (message : Message) : Prop where
  name : (pyIndex m "name" : Check Yaml) = .ok (.str message.name)
  id : ∃ v, (pyIndex m "id" : Check Yaml) = .ok v ∧ byteLiteral? v = some message.id
  reliable : (messageReliable m : Check Bool) = .ok message.reliable
  fields : ∃ v fields, (pyIndex m "fields" : Check Yaml) = .ok v ∧
    (pyIter v : Check (List Yaml)) = .ok fields ∧
    List.Forall₂ (FieldCompiled t tm) fields message.fields
  wirePayloadSize : (messageWirePayloadSize m tm : Check Nat) = .ok wirePayloadSize

/-- The members of a struct, pointwise. -/
theorem compileFields_of_generate {t : CTarget} {tm : PyDict} {fields : List Yaml}
    {gfields : List GeneratedField} {cfields : List Field}
    (hgen : List.Forall₂
      (fun field g => (generateField tm field : Check GeneratedField) = .ok g) fields gfields)
    (hcomp : List.Forall₂ (fun g f => compileField t g = some f) gfields cfields) :
    List.Forall₂ (FieldCompiled t tm) fields cfields := by
  induction hgen generalizing cfields with
  | nil =>
    rw [List.forall₂_nil_left_iff.mp hcomp]
    exact .nil
  | cons hfield _ ih =>
    obtain ⟨f, cfields, hf, hrest, rfl⟩ := List.forall₂_cons_left_iff.mp hcomp
    refine .cons ?_ (ih hrest)
    obtain ⟨ftype, hftype, hfield⟩ := bind_eq_ok.mp hfield
    obtain ⟨cType, hctype, hfield⟩ := bind_eq_ok.mp hfield
    obtain ⟨proto, -, hfield⟩ := bind_eq_ok.mp hfield
    rw [pure_eq_ok] at hfield
    subst hfield
    obtain ⟨c, hc, rfl⟩ := Option.map_eq_some_iff.mp hf
    exact ⟨ftype, cType, hftype, hctype, hc⟩

theorem compiledFrom_of_generate {t : CTarget} {tm : PyDict} {m : Yaml} {g : GeneratedMessage}
    {message : Message} (hg : (generateMessage tm m : Check GeneratedMessage) = .ok g)
    (hc : compileMessage t g = some message) :
    CompiledFrom t tm m g.wirePayloadSize message := by
  obtain ⟨name, hname, hg⟩ := bind_eq_ok.mp hg
  obtain ⟨s, rfl⟩ : ∃ s, name = .str s := by
    cases name with
    | scalar s => cases s <;> simp at hg ⊢
    | _ => simp at hg
  obtain ⟨id, hid, hg⟩ := bind_eq_ok.mp hg
  obtain ⟨reliable, hrel, hg⟩ := bind_eq_ok.mp hg
  obtain ⟨v, hv, hg⟩ := bind_eq_ok.mp hg
  obtain ⟨fields, hfields, hg⟩ := bind_eq_ok.mp hg
  obtain ⟨gfields, hgfields, hg⟩ := bind_eq_ok.mp hg
  obtain ⟨size, hsize, hg⟩ := bind_eq_ok.mp hg
  rw [pure_eq_ok] at hg
  subst hg
  simp only [compileMessage, Option.bind_eq_bind, Option.bind_eq_some_iff, Option.pure_def,
    Option.some.injEq] at hc
  obtain ⟨idByte, hbyte, cfields, hcfields, rfl⟩ := hc
  exact ⟨hname, ⟨id, hid, hbyte⟩, hrel, ⟨v, fields, hv, hfields,
    compileFields_of_generate (mapM_eq_ok.mp hgfields) (mapM_eq_some.mp hcfields)⟩, hsize⟩

namespace CompiledFrom

variable {t : CTarget} {tm : PyDict} {m : Yaml} {n : Nat} {message : Message}

theorem messageName (h : CompiledFrom t tm m n message) :
    m.messageName? = some message.name := by
  have hname := h.name
  cases m with
  | map d =>
    rw [pyIndex] at hname
    cases hl : dictLookup d (.str "name") with
    | none => simp [hl] at hname
    | some v =>
      simp only [hl, Except.ok.injEq] at hname
      rw [Yaml.messageName?, dictGet_eq hl, hname]
      rfl
  | scalar s => simp [pyIndex] at hname
  | list items => simp [pyIndex] at hname

theorem messageId (h : CompiledFrom t tm m n message) :
    ∃ k : Int, m.messageId? = some k ∧ 0 ≤ k ∧ k ≤ 255 ∧ message.id = UInt8.ofNat k.toNat := by
  obtain ⟨v, hv, hbyte⟩ := h.id
  cases m with
  | map d =>
    rw [pyIndex] at hv
    cases hl : dictLookup d (.str "id") with
    | none => simp [hl] at hv
    | some w =>
      simp only [hl, Except.ok.injEq] at hv
      subst hv
      rw [byteLiteral?] at hbyte
      cases hint : w.asInt? with
      | none => simp [hint] at hbyte
      | some k =>
        simp only [hint, Option.ite_none_right_eq_some, Option.some.injEq] at hbyte
        refine ⟨k, ?_, hbyte.1.1, hbyte.1.2, hbyte.2.symm⟩
        rw [Yaml.messageId?, dictGet_eq hl, hint]
  | scalar s => simp [pyIndex] at hv
  | list items => simp [pyIndex] at hv

/-- The wire payload of a generated message, field by field. -/
theorem wirePayload (h : CompiledFrom t tm m n message) :
    ∃ fields sizes, (∃ v, (pyIndex m "fields" : Check Yaml) = .ok v ∧
        (pyIter v : Check (List Yaml)) = .ok fields) ∧
      List.Forall₂ (fun field size => (fieldSize tm field : Check Nat) = .ok size) fields sizes ∧
      n = sizes.sum + (if message.reliable then 1 else 0) ∧
      List.Forall₂ (FieldCompiled t tm) fields message.fields := by
  obtain ⟨v, fields, hv, hiter, hfields⟩ := h.fields
  obtain ⟨v', fields', sizes, reliable, hv', hiter', hsizes, hrel, hn⟩ :=
    messageWirePayloadSize_eq_ok h.wirePayloadSize
  rw [hv, Except.ok.injEq] at hv'
  subst hv'
  rw [hiter, Except.ok.injEq] at hiter'
  subst hiter'
  rw [h.reliable, Except.ok.injEq] at hrel
  exact ⟨fields, sizes, ⟨v, hv, hiter⟩, hsizes, hrel ▸ hn, hfields⟩

/-- Every member has between 1 and 32 bytes, every size of the table between 1 and 4. -/
theorem size_bounds (h : CompiledFrom t tm m n message) :
    message.fields.length ≤ message.sizeofPacket ∧
    message.sizeofPacket ≤ 32 * message.fields.length ∧
    message.fields.length + (if message.reliable then 1 else 0) ≤ n ∧
    n ≤ 4 * message.fields.length + if message.reliable then 1 else 0 := by
  obtain ⟨fields, sizes, -, hsizes, hn, hfields⟩ := h.wirePayload
  have hlen := hfields.length_eq
  have hlen' := hsizes.length_eq
  have hpy : 1 * sizes.length ≤ sizes.sum ∧ sizes.sum ≤ 4 * sizes.length :=
    sum_bounds 1 4 fun size hsize => by
      obtain ⟨field, -, hsize⟩ := exists_left_of_forall₂ hsizes hsize
      exact fieldSize_bounds hsize
  have hc : 1 * (message.fields.map (·.cType.size)).length ≤
        (message.fields.map (·.cType.size)).sum ∧
      (message.fields.map (·.cType.size)).sum ≤
        32 * (message.fields.map (·.cType.size)).length :=
    sum_bounds 1 32 fun size hsize => by
      obtain ⟨f, hf, rfl⟩ := List.mem_map.mp hsize
      obtain ⟨field, -, ftype, cType, -, -, htype⟩ := exists_left_of_forall₂ hfields hf
      exact ⟨t.size_pos htype, t.size_le htype⟩
  rw [List.length_map] at hc
  rw [Message.sizeofPacket]
  omega

/-- **The generator's size of a message of the configuration is that of the struct.** -/
theorem wireSize_eq (h : CompiledFrom t tm m n message) {msg : PyDict} (hm : m = .map msg)
    (hacc : MessageAccepted tm msg) :
    message.wireSize = n ∧ 0 < message.sizeofPacket := by
  subst hm
  obtain ⟨items, hitems, hne, hall⟩ := hacc.fields
  obtain ⟨fields, sizes, ⟨v, hv, hiter⟩, hsizes, hn, hfields⟩ := h.wirePayload
  have heq : fields = items := by
    rw [pyIndex, hitems, Except.ok.injEq] at hv
    rw [← hv, pyIter, Except.ok.injEq] at hiter
    exact hiter.symm
  subst heq
  have hsum : message.fields.map (·.cType.size) = sizes :=
    fieldSizes_eq (fun field hfield => fieldSize_eq (hall field hfield)) hsizes hfields
  have hbounds := h.size_bounds
  have hlen : message.fields.length ≠ 0 := by
    rw [← hfields.length_eq]
    simpa using hne
  refine ⟨?_, by omega⟩
  rw [Message.wireSize, Message.sizeofPacket, hsum, hn]

end CompiledFrom

-- ---------------------------------------------------------------------------
-- The whole configuration
-- ---------------------------------------------------------------------------

theorem le_pyMax {sizes : List Nat} {n : Nat} (h : n ∈ sizes) : n ≤ pyMax sizes := by
  have hfold : ∀ (l : List Nat) (a : Nat), a ≤ l.foldl max a ∧ ∀ n ∈ l, n ≤ l.foldl max a := by
    intro l
    induction l with
    | nil => simp
    | cons x l ih =>
      intro a
      obtain ⟨hge, hall⟩ := ih (max a x)
      refine ⟨by rw [List.foldl_cons]; omega, fun n hn => ?_⟩
      rw [List.foldl_cons]
      rcases List.mem_cons.mp hn with rfl | hn
      · omega
      · exact hall n hn
  exact (hfold sizes 0).2 n h

theorem pyMax_mem {sizes : List Nat} (h : sizes ≠ []) : pyMax sizes ∈ sizes := by
  have hfold : ∀ (l : List Nat) (a : Nat), l.foldl max a = a ∨ l.foldl max a ∈ l := by
    intro l
    induction l with
    | nil => simp
    | cons x l ih =>
      intro a
      rw [List.foldl_cons]
      rcases ih (max a x) with h | h
      · rw [h]
        rcases Nat.le_total a x with hle | hle
        · exact .inr (by simp [Nat.max_eq_right hle])
        · exact .inl (Nat.max_eq_left hle)
      · exact .inr (List.mem_cons_of_mem _ h)
  rcases hfold sizes 0 with h0 | hmem
  · obtain ⟨n, hn⟩ := List.exists_mem_of_ne_nil _ h
    have := le_pyMax hn
    have hzero : n = pyMax sizes := by rw [pyMax] at this ⊢; omega
    exact hzero ▸ hn
  · exact hmem

/-- A deployed protocol beside the configuration it comes from: `merged` are the messages after
`merge_messages` and `sizes` their wire payload sizes as the generator computes them. -/
structure Deployment (t : CTarget) (root cfg tm : PyDict) (messages merged : List Yaml)
    (sizes : List Nat) (p : Protocol) : Prop where
  accepted : ConfigAccepted root cfg tm messages
  perm : merged.Perm (messages ++ systemMessages)
  sizable : ∀ m ∈ messages, isSizable m = true
  sizes_eq : List.Forall₂
    (fun m n => (messageWirePayloadSize m tm : Check Nat) = .ok n) merged sizes
  compiled : List.Forall₂ (fun m message => ∃ n, CompiledFrom t tm m n message) merged p.messages
  max_eq : p.maxPacketPayloadSize = pyMax sizes
  merge_eq : (mergeMessages (.list messages) : Check (List Yaml)) = .ok merged
  hashInput : ∃ hi, (protocolHashInput (.map root) : Check ProtocolHashInput) = .ok hi
  header1 : ∃ v, (pyIndex (.map cfg) "head_byte_1" : Check Yaml) = .ok v ∧
    byteLiteral? v = some p.frameHeader1
  header2 : ∃ v, (pyIndex (.map cfg) "head_byte_2" : Check Yaml) = .ok v ∧
    byteLiteral? v = some p.frameHeader2
  checksumAlgo : checksumAlgo? (checksumText cfg) = some p.checksumAlgo
  requireHandshake :
    p.requireHandshake = (dictGetD cfg "require_handshake" (.bool true)).truthy
  bufferSize : ∃ n : Int, 0 < n ∧ n < 2 ^ 64 ∧ dictLookup cfg (.str "buffer_size") = some (.int n) ∧
    p.bufferSize = UInt64.ofNat n.toNat

/-- The ids of the merged messages, as integers, are distinct. -/
theorem ConfigAccepted.merged_ids_nodup {root cfg tm : PyDict} {messages merged : List Yaml}
    (hacc : ConfigAccepted root cfg tm messages)
    (hperm : merged.Perm (messages ++ systemMessages)) :
    (merged.filterMap Yaml.messageId?).Nodup := by
  refine ((hperm.filterMap _).nodup_iff).mpr ?_
  rw [List.filterMap_append]
  refine List.Nodup.append hacc.ids_nodup (by decide +kernel) ?_
  intro n hn hsys
  obtain ⟨m, hm, hid⟩ := List.mem_filterMap.mp hn
  obtain ⟨msg, rfl, hmsg⟩ := hacc.message m hm
  have hge : ∀ k ∈ systemMessages.filterMap Yaml.messageId?, (0xFD : Int) ≤ k := by decide +kernel
  have := hge n hsys
  rcases hmsg.id with hnull | ⟨k, -, hlt, hk⟩
  · rw [Yaml.messageId?, dictGet_eq hnull] at hid
    simp [Yaml.asInt?] at hid
  · rw [Yaml.messageId?, dictGet_eq hk, Yaml.asInt?, Option.some.injEq] at hid
    omega

@[inherit_doc ConfigAccepted.merged_ids_nodup]
theorem ConfigAccepted.merged_names_nodup {root cfg tm : PyDict} {messages merged : List Yaml}
    (hacc : ConfigAccepted root cfg tm messages)
    (hperm : merged.Perm (messages ++ systemMessages)) :
    (merged.filterMap Yaml.messageName?).Nodup := by
  refine ((hperm.filterMap _).nodup_iff).mpr ?_
  rw [List.filterMap_append]
  refine List.Nodup.append hacc.names_nodup (by decide +kernel) ?_
  intro s hs hsys
  obtain ⟨m, hm, hname⟩ := List.mem_filterMap.mp hs
  obtain ⟨msg, rfl, hmsg⟩ := hacc.message m hm
  have hmem : ∀ k ∈ systemMessages.filterMap Yaml.messageName?, k ∈ systemMessageNames := by
    decide +kernel
  rcases hmsg.name with hnull | ⟨k, hk, hl⟩
  · rw [Yaml.messageName?, dictGet_eq hnull] at hname
    simp [Yaml.asStr?] at hname
  · rw [Yaml.messageName?, dictGet_eq hl, Yaml.asStr?, Option.some.injEq] at hname
    exact hk (hname ▸ hmem s hsys)

/-- A message whose id is a number is sizable once it is accepted. -/
theorem isSizable_of_accepted {tm msg : PyDict} (hacc : MessageAccepted tm msg)
    (hkey : ∃ q, (sortKey (.map msg) : Check ℚ) = .ok q) : isSizable (.map msg) = true := by
  obtain ⟨fields, hfields, -, -⟩ := hacc.fields
  rcases hacc.id with hid | ⟨n, -, -, hid⟩
  · obtain ⟨q, hq⟩ := hkey
    obtain ⟨v, hv, hq⟩ := bind_eq_ok.mp hq
    rw [pyIndex, hid, Except.ok.injEq] at hv
    subst hv
    simp [idKey, Scalar.number?] at hq
  · rw [isSizable, dictGet_eq hid, dictGet_eq hfields]
    rfl

/-- The wire payload sizes of compiled messages are those the generator wrote. -/
theorem compiledFrom_of_mapM {t : CTarget} {tm : PyDict} {merged : List Yaml}
    {gs : List GeneratedMessage} {ms : List Message}
    (hg : List.Forall₂
      (fun m g => (generateMessage tm m : Check GeneratedMessage) = .ok g) merged gs)
    (hc : List.Forall₂ (fun g m => compileMessage t g = some m) gs ms) :
    List.Forall₂ (fun m n => (messageWirePayloadSize m tm : Check Nat) = .ok n) merged
      (gs.map (·.wirePayloadSize)) ∧
    List.Forall₂ (fun m message => ∃ n, CompiledFrom t tm m n message) merged ms := by
  induction hg generalizing ms with
  | nil =>
    rw [List.forall₂_nil_left_iff.mp hc]
    exact ⟨.nil, .nil⟩
  | cons hm _ ih =>
    obtain ⟨message, ms, hmessage, hrest, rfl⟩ := List.forall₂_cons_left_iff.mp hc
    have hcomp := compiledFrom_of_generate hm hmessage
    obtain ⟨hsizes, hms⟩ := ih hrest
    exact ⟨.cons hcomp.wirePayloadSize hsizes, .cons ⟨_, hcomp⟩ hms⟩

/-- `generate` step by step. -/
structure GeneratedFrom (hash : ProtocolHashInput → UInt32) (root cfg tm : PyDict)
    (messages merged : List Yaml) (g : Generated) : Prop where
  merge_eq : (mergeMessages (.list messages) : Check (List Yaml)) = .ok merged
  hashInput : ∃ hi, (protocolHashInput (.map root) : Check ProtocolHashInput) = .ok hi
  messages : List.Forall₂
    (fun m g => (generateMessage tm m : Check GeneratedMessage) = .ok g) merged g.messages
  headByte1 : (pyIndex (.map cfg) "head_byte_1" : Check Yaml) = .ok g.headByte1
  headByte2 : (pyIndex (.map cfg) "head_byte_2" : Check Yaml) = .ok g.headByte2
  checksum : g.checksum = checksumText cfg
  requireHandshake : g.requireHandshake = (dictGetD cfg "require_handshake" (.bool true)).truthy
  bufferSize : (pyIndex (.map cfg) "buffer_size" : Check Yaml) = .ok g.bufferSize
  maxPayloadSize : g.maxPayloadSize = pyMax (g.messages.map (·.wirePayloadSize))

theorem ConfigAccepted.generatedFrom {hash : ProtocolHashInput → UInt32} {root cfg tm : PyDict}
    {messages : List Yaml} {g : Generated} (hacc : ConfigAccepted root cfg tm messages)
    (hgen : (generate hash (.map root) : Check Generated) = .ok g) :
    ∃ merged, GeneratedFrom hash root cfg tm messages merged g := by
  obtain ⟨config, hconfig, hgen⟩ := bind_eq_ok.mp hgen
  rw [pyIndex, hacc.config, Except.ok.injEq] at hconfig
  subst hconfig
  obtain ⟨tmv, htmv, hgen⟩ := bind_eq_ok.mp hgen
  obtain ⟨tm', htm, hgen⟩ := bind_eq_ok.mp hgen
  have htm : tm' = tm := by
    rw [pyGet?, Except.ok.injEq] at htmv
    have := hacc.type_mappings
    rw [dictGetD, htmv] at this
    rw [this] at htm
    cases tm with
    | nil => simpa [Yaml.truthy, typeMappingsOf, eq_comm] using htm
    | cons e es => simpa [Yaml.truthy, typeMappingsOf, eq_comm] using htm
  subst htm
  obtain ⟨msgs, hmsgs, hgen⟩ := bind_eq_ok.mp hgen
  obtain ⟨merged, hmerged, hgen⟩ := bind_eq_ok.mp hgen
  have hmsgs : msgs.getD (.list []) = .list messages := by
    rw [pyGet?, Except.ok.injEq] at hmsgs
    rw [← hmsgs, ← hacc.messages_list, dictGetD]
  rw [hmsgs] at hmerged
  obtain ⟨hi, hhash, hgen⟩ := bind_eq_ok.mp hgen
  obtain ⟨gs, hgs, hgen⟩ := bind_eq_ok.mp hgen
  obtain ⟨head1, hhead1, hgen⟩ := bind_eq_ok.mp hgen
  obtain ⟨head2, hhead2, hgen⟩ := bind_eq_ok.mp hgen
  obtain ⟨checksum, hchecksum, hgen⟩ := bind_eq_ok.mp hgen
  obtain ⟨handshake, hhandshake, hgen⟩ := bind_eq_ok.mp hgen
  obtain ⟨mismatch, -, hgen⟩ := bind_eq_ok.mp hgen
  obtain ⟨strict, -, hgen⟩ := bind_eq_ok.mp hgen
  obtain ⟨timeout, -, hgen⟩ := bind_eq_ok.mp hgen
  obtain ⟨retries, -, hgen⟩ := bind_eq_ok.mp hgen
  obtain ⟨buf, hbuf, hgen⟩ := bind_eq_ok.mp hgen
  rw [pure_eq_ok] at hgen
  subst hgen
  rw [pyGet?, Except.ok.injEq] at hchecksum hhandshake
  subst hchecksum hhandshake
  exact ⟨merged, hmerged, ⟨hi, hhash⟩, mapM_eq_ok.mp hgs, hhead1, hhead2, rfl, rfl, hbuf, rfl⟩

theorem Deployed.deployment {t : CTarget} {hash : ProtocolHashInput → UInt32} {raw : Yaml}
    {p : Protocol} (h : Deployed t hash raw p) :
    ∃ root cfg tm messages merged sizes, validateProtocol raw = .ok (.map root) ∧
      Deployment t root cfg tm messages merged sizes p := by
  obtain ⟨configData, g, hval, hgen, hcomp⟩ := h
  obtain ⟨root, cfg, tm, messages, rfl, hacc⟩ := validateProtocol_accepted hval
  obtain ⟨merged, hg⟩ := hacc.generatedFrom hgen
  simp only [compile, Option.bind_eq_bind, Option.bind_eq_some_iff, Option.pure_def,
    Option.some.injEq] at hcomp
  obtain ⟨b1, hb1, b2, hb2, algo, halgo, _, -, _, -, bufferSize, hsize, ms, hms, rfl⟩ := hcomp
  obtain ⟨hsizes, hcompiled⟩ := compiledFrom_of_mapM hg.messages (mapM_eq_some.mp hms)
  obtain ⟨hperm, -, hkeys⟩ := sortedById_spec (mergeMessages_list messages ▸ hg.merge_eq)
  refine ⟨root, cfg, tm, messages, merged, _, hval, hacc, hperm, ?_, hsizes, hcompiled,
    hg.maxPayloadSize, hg.merge_eq, hg.hashInput, ⟨_, hg.headByte1, hb1⟩, ⟨_, hg.headByte2, hb2⟩,
    hg.checksum ▸ halgo, hg.requireHandshake, ?_⟩
  · intro m hm
    obtain ⟨msg, rfl, hmsg⟩ := hacc.message m hm
    exact isSizable_of_accepted hmsg (hkeys _ (List.mem_append_left _ hm))
  · obtain ⟨n, hn, hl, -⟩ := hacc.buffer_size
    have hbuf := hg.bufferSize
    rw [pyIndex, hl, Except.ok.injEq] at hbuf
    rw [← hbuf] at hsize
    simp only [sizeLiteral?, Yaml.asInt?, Option.ite_none_right_eq_some,
      Option.some.injEq] at hsize
    exact ⟨n, hn, hsize.1.2, hl, hsize.2.symm⟩

namespace Deployment

variable {t : CTarget} {root cfg tm : PyDict} {messages merged : List Yaml} {sizes : List Nat}
  {p : Protocol}

/-- Every message of the protocol comes from a message of the configuration or is one of the
system messages; its size by the generator is at most `MAX_PACKET_PAYLOAD_SIZE`. -/
theorem message_source (d : Deployment t root cfg tm messages merged sizes p) {message : Message}
    (hm : message ∈ p.messages) :
    ∃ m n, CompiledFrom t tm m n message ∧ n ≤ p.maxPacketPayloadSize ∧ n ∈ sizes ∧
      (m ∈ messages ∨ m ∈ systemMessages) := by
  obtain ⟨m, hmem, n, hcomp⟩ := exists_left_of_forall₂ d.compiled hm
  obtain ⟨n', hn', hsize⟩ := exists_right_of_forall₂ d.sizes_eq hmem
  have heq : n = n' := Except.ok.inj (hcomp.wirePayloadSize.symm.trans hsize)
  subst heq
  exact ⟨m, n, hcomp, d.max_eq ▸ le_pyMax hn', hn', List.mem_append.mp (d.perm.mem_iff.mp hmem)⟩

/-- A system message of the protocol: its name, id and number of fields are fixed. -/
theorem compiledFrom_system {m : Yaml} {n : Nat} {message : Message}
    (hcomp : CompiledFrom t tm m n message) {name notes : String} {id : Int} {fields : List Yaml}
    (hm : m = systemMessage name id notes fields) :
    message.name = name ∧ message.id = UInt8.ofNat id.toNat ∧ message.reliable = false ∧
      message.fields.length = fields.length := by
  subst hm
  have hname := hcomp.name
  obtain ⟨k, hk, -, -, hid⟩ := hcomp.messageId
  have hrel := hcomp.reliable
  obtain ⟨v, items, hv, hiter, hfields⟩ := hcomp.fields
  simp only [systemMessage, pyIndex, dictLookup_cons, Scalar.str.injEq, String.reduceEq, if_false,
    if_true, Except.ok.injEq, Yaml.scalar.injEq] at hname hv
  simp only [Yaml.messageId?, systemMessage, dictGet, dictGetD, dictLookup_cons,
    Scalar.str.injEq, String.reduceEq, if_false, if_true, Option.getD_some, Yaml.asInt?,
    Option.some.injEq] at hk
  subst hk
  subst hv
  rw [pyIter, Except.ok.injEq] at hiter
  subst hiter
  have hplain : (messageReliable (systemMessage name id notes fields) : Check Bool) = .ok false :=
    rfl
  exact ⟨hname.symm, hid, Except.ok.inj (hrel.symm.trans hplain), hfields.length_eq.symm⟩

/-- A system message is in the protocol. -/
theorem exists_system (d : Deployment t root cfg tm messages merged sizes p)
    (name : String) (id : Int) {notes : String} {fields : List Yaml}
    (hm : systemMessage name id notes fields ∈ systemMessages) :
    ∃ message ∈ p.messages, message.id = UInt8.ofNat id.toNat ∧ message.name = name ∧
      message.reliable = false ∧ message.fields.length = fields.length := by
  have hmem := d.perm.mem_iff.mpr (List.mem_append_right messages hm)
  obtain ⟨message, hmessage, n, hcomp⟩ := exists_right_of_forall₂ d.compiled hmem
  obtain ⟨hname, hid, hrel, hlen⟩ := compiledFrom_system hcomp rfl
  exact ⟨message, hmessage, hid, hname, hrel, hlen⟩

/-- The three system messages have between one and two fields. -/
theorem systemMessages_eq {m : Yaml} (hm : m ∈ systemMessages) :
    ∃ name id notes fields, m = systemMessage name id notes fields ∧ 1 ≤ fields.length ∧
      fields.length ≤ 2 := by
  simp only [systemMessages, List.mem_cons, List.not_mem_nil, or_false] at hm
  rcases hm with rfl | rfl | rfl
  · exact ⟨_, _, _, _, rfl, by simp⟩
  · exact ⟨_, _, _, _, rfl, by simp⟩
  · exact ⟨_, _, _, _, rfl, by simp⟩

/-- The generator's wire payload sizes are between 1 and 255. -/
theorem size_le (d : Deployment t root cfg tm messages merged sizes p) {n : Nat} (hn : n ∈ sizes) :
    n ≤ 255 := by
  obtain ⟨m, hmem, hsize⟩ := exists_left_of_forall₂ d.sizes_eq hn
  obtain ⟨message, -, n', hcomp⟩ := exists_right_of_forall₂ d.compiled hmem
  have heq : n' = n := Except.ok.inj (hcomp.wirePayloadSize.symm.trans hsize)
  subst heq
  rcases List.mem_append.mp (d.perm.mem_iff.mp hmem) with hbus | hsys
  · obtain ⟨msg, rfl, hacc⟩ := d.accepted.message m hbus
    obtain ⟨k, hk, hok⟩ := hacc.wireSize
    rw [hsize, Except.ok.injEq] at hok
    omega
  · obtain ⟨name, id, notes, fields, rfl, -, hlen⟩ := systemMessages_eq hsys
    obtain ⟨-, -, hrel, hlen'⟩ := compiledFrom_system hcomp rfl
    have := hcomp.size_bounds
    rw [hrel, hlen'] at this
    simp only [Bool.false_eq_true, if_false] at this
    omega

/-- **A deployed protocol is well-formed.** -/
theorem wellFormed (d : Deployment t root cfg tm messages merged sizes p) : p.WellFormed := by
  have hack := d.exists_system "Ack" 0xFD List.mem_cons_self
  have hheartbeat := d.exists_system "Heartbeat" 0xFE
    (List.mem_cons_of_mem _ List.mem_cons_self)
  have hhandshake := d.exists_system "Handshake" 0xFF
    (List.mem_cons_of_mem _ (List.mem_cons_of_mem _ List.mem_cons_self))
  have hsizesNe : sizes ≠ [] := by
    obtain ⟨message, hmem, -⟩ := hack
    obtain ⟨m, n, -, -, hn, -⟩ := d.message_source hmem
    exact List.ne_nil_of_mem hn
  have hmax : p.maxPacketPayloadSize ≤ 255 := d.max_eq ▸ d.size_le (pyMax_mem hsizesNe)
  refine ⟨?_, ?_, ?_, ?_, ?_, ?_, ?_, hmax, ?_, hack, hheartbeat, hhandshake⟩
  · -- distinct integers in [0, 255] are distinct bytes
    have hids : merged.filterMap Yaml.messageId? |>.map (fun n => UInt8.ofNat n.toNat) |>.Nodup := by
      refine (d.accepted.merged_ids_nodup d.perm).map_on fun n hn k hk heq => ?_
      have hrange : ∀ n ∈ merged.filterMap Yaml.messageId?, 0 ≤ n ∧ n ≤ 255 := by
        intro n hn
        obtain ⟨m, hm, hid⟩ := List.mem_filterMap.mp hn
        obtain ⟨message, -, _, hcomp⟩ := exists_right_of_forall₂ d.compiled hm
        obtain ⟨k, hk, h0, h255, -⟩ := hcomp.messageId
        rw [hid, Option.some.injEq] at hk
        exact hk ▸ ⟨h0, h255⟩
      have hnr := hrange n hn
      have hkr := hrange k hk
      have := congrArg UInt8.toNat heq
      rw [UInt8.toNat_ofNat', UInt8.toNat_ofNat'] at this
      omega
    have heq : (merged.filterMap Yaml.messageId?).map (fun n => UInt8.ofNat n.toNat) =
        p.messages.map (·.id) := by
      rw [List.map_filterMap]
      exact filterMap_eq_of_forall₂ d.compiled fun m message h => by
        obtain ⟨n, hcomp⟩ := h
        obtain ⟨k, hk, -, -, hid⟩ := hcomp.messageId
        rw [hk, Option.map_some, hid]
    exact heq ▸ hids
  · have heq : merged.filterMap Yaml.messageName? = p.messages.map (·.name) :=
      filterMap_eq_of_forall₂ d.compiled fun m message ⟨n, hcomp⟩ => hcomp.messageName
    exact heq ▸ d.accepted.merged_names_nodup d.perm
  · intro message hm
    obtain ⟨m, n, hcomp, -, -, hbus | hsys⟩ := d.message_source hm
    · obtain ⟨msg, rfl, hacc⟩ := d.accepted.message m hbus
      exact (hcomp.wireSize_eq rfl hacc).2
    · obtain ⟨name, id, notes, fields, rfl, hpos, -⟩ := systemMessages_eq hsys
      obtain ⟨-, -, -, hlen⟩ := compiledFrom_system hcomp rfl
      have := hcomp.size_bounds
      omega
  · intro message hm f hf v
    obtain ⟨m, n, hcomp, -⟩ := d.message_source hm
    obtain ⟨fields, sizes, -, -, -, hfields⟩ := hcomp.wirePayload
    obtain ⟨field, -, ftype, cType, -, -, htype⟩ := exists_left_of_forall₂ hfields hf
    exact t.store_length htype v
  · intro message hm
    obtain ⟨m, n, hcomp, -, hn, hbus | hsys⟩ := d.message_source hm
    · obtain ⟨msg, rfl, hacc⟩ := d.accepted.message m hbus
      rw [(hcomp.wireSize_eq rfl hacc).1]
      exact d.size_le hn
    · obtain ⟨name, id, notes, fields, rfl, -, hlen⟩ := systemMessages_eq hsys
      obtain ⟨-, -, hrel, hlen'⟩ := compiledFrom_system hcomp rfl
      have := hcomp.size_bounds
      rw [message.wireSize_of_plain hrel]
      omega
  · intro message hm hrel
    obtain ⟨m, n, hcomp, hle, -, hbus | hsys⟩ := d.message_source hm
    · obtain ⟨msg, rfl, hacc⟩ := d.accepted.message m hbus
      rw [(hcomp.wireSize_eq rfl hacc).1]
      exact hle
    · obtain ⟨name, id, notes, fields, rfl, -, -⟩ := systemMessages_eq hsys
      obtain ⟨-, -, hplain, -⟩ := compiledFrom_system hcomp rfl
      rw [hplain] at hrel
      cases hrel
  · obtain ⟨message, hmem, -, -, hrel, hlen⟩ := hack
    obtain ⟨m, n, hcomp, hle, -⟩ := d.message_source hmem
    have := hcomp.size_bounds
    rw [hlen] at this
    simp only [List.length_cons, List.length_nil] at this
    omega
  · -- the validator's largest frame is that of the messages the generator writes
    obtain ⟨n, hn, hlt, hl, hbuf⟩ := d.bufferSize
    obtain ⟨n', -, hl', merged', sizes', hmerged', hsizes', hle⟩ := d.accepted.buffer_size
    rw [hl, Option.some.injEq, Yaml.scalar.injEq, Scalar.int.injEq] at hl'
    subst hl'
    rw [List.filter_eq_self.mpr d.sizable, d.merge_eq, Except.ok.injEq] at hmerged'
    subst hmerged'
    have hsame : sizes' = sizes := forall₂_ok_unique (mapM_eq_ok.mp hsizes') d.sizes_eq
    subst hsame
    have hmem := pyMax_mem hsizesNe
    have := le_pyMax (List.mem_map_of_mem (f := (· + 5)) hmem)
    rw [hbuf, d.max_eq, UInt64.toNat_ofNat']
    omega

end Deployment

/-- **A protocol deployed from an accepted configuration is well-formed.** -/
theorem Deployed.wellFormed {t : CTarget} {hash : ProtocolHashInput → UInt32} {raw : Yaml}
    {p : Protocol} (h : Deployed t hash raw p) : p.WellFormed := by
  obtain ⟨root, cfg, tm, messages, merged, sizes, -, d⟩ := h.deployment
  exact d.wellFormed

end AutoSerialBridge
