import AutoSerialBridge.Codegen.Deploy
import Mathlib

/-!
# Auto Serial Bridge — the protocol hash input

Only wire-relevant data enters `_protocol_hash_input`. `SameWire` says when two YAML configurations
agree on that data: the header bytes, the checksum, the handshake flag, and, up to the order of the
messages, every message's id, direction, reliable flag and the C types its fields resolve to. Names,
topics, notes, type aliases and every other setting are free.

## Results

* `SameWire.protocolHashInput_iff` — **configurations with the same wire data have the same hash
  input**: sorting by distinct ids undoes a permutation.
* `Deployment.hashedAs` — what the hash input of a deployed protocol says about its messages.
-/

namespace AutoSerialBridge

open Lib

-- ---------------------------------------------------------------------------
-- The same wire data
-- ---------------------------------------------------------------------------

/-- The C type a field resolves to. -/
def fieldCType (tm : PyDict) (field : Yaml) : Check Yaml := do
  getCType (← pyIndex field "type") tm

/-- Two messages that are the same on the wire, each read with its own type aliases. -/
structure SameWireMessage (tm₁ tm₂ : PyDict) (m₁ m₂ : Yaml) : Prop where
  id : (pyIndex m₁ "id" : Check Yaml) = pyIndex m₂ "id"
  direction : (pyIndex m₁ "direction" : Check Yaml) = pyIndex m₂ "direction"
  reliable : (messageReliable m₁ : Check Bool) = messageReliable m₂
  fields : ∃ fs₁ fs₂, (pyGet? m₁ "fields" : Check (Option Yaml)) = .ok (some (.list fs₁)) ∧
    (pyGet? m₂ "fields" : Check (Option Yaml)) = .ok (some (.list fs₂)) ∧
    fs₁.map (fieldCType tm₁) = fs₂.map (fieldCType tm₂)

/-- Two configurations that differ only in what is not on the wire. -/
structure SameWire (root₁ root₂ : PyDict) : Prop where
  headByte : ∀ key ∈ ["head_byte_1", "head_byte_2"],
    dictLookup (configOf root₁) (.str key) = dictLookup (configOf root₂) (.str key)
  checksum : checksumText (configOf root₁) = checksumText (configOf root₂)
  requireHandshake : (dictGetD (configOf root₁) "require_handshake" (.bool true)).truthy =
    (dictGetD (configOf root₂) "require_handshake" (.bool true)).truthy
  /-- The injected messages are read with the type aliases too. -/
  system : ∀ m ∈ systemMessages, SameWireMessage (mappingsOf root₁) (mappingsOf root₂) m m
  messages : ∃ ms, List.Forall₂ (SameWireMessage (mappingsOf root₁) (mappingsOf root₂))
    (messagesOf root₁) ms ∧ ms.Perm (messagesOf root₂)

namespace SameWireMessage

variable {tm₁ tm₂ tm₃ : PyDict} {m₁ m₂ m₃ : Yaml}

theorem symm (h : SameWireMessage tm₁ tm₂ m₁ m₂) : SameWireMessage tm₂ tm₁ m₂ m₁ := by
  obtain ⟨fs₁, fs₂, h₁, h₂, hmap⟩ := h.fields
  exact ⟨h.id.symm, h.direction.symm, h.reliable.symm, fs₂, fs₁, h₂, h₁, hmap.symm⟩

theorem trans (h : SameWireMessage tm₁ tm₂ m₁ m₂) (h' : SameWireMessage tm₂ tm₃ m₂ m₃) :
    SameWireMessage tm₁ tm₃ m₁ m₃ := by
  obtain ⟨fs₁, fs₂, h₁, h₂, hmap⟩ := h.fields
  obtain ⟨fs₂', fs₃, h₂', h₃, hmap'⟩ := h'.fields
  obtain rfl : fs₂ = fs₂' := by
    rw [h₂] at h₂'
    simpa using h₂'
  exact ⟨h.id.trans h'.id, h.direction.trans h'.direction, h.reliable.trans h'.reliable,
    fs₁, fs₃, h₁, h₃, hmap.trans hmap'⟩

/-- They are hashed alike. -/
theorem hashedMessage_eq (h : SameWireMessage tm₁ tm₂ m₁ m₂) :
    (hashedMessage tm₁ m₁ : Check HashedMessage) = hashedMessage tm₂ m₂ := by
  obtain ⟨fs₁, fs₂, h₁, h₂, hmap⟩ := h.fields
  have htypes : fs₁.mapM (fieldCType tm₁) = fs₂.mapM (fieldCType tm₂) := by
    have := congrArg (List.mapM fun c : Check Yaml => c) hmap
    rwa [List.mapM_map, List.mapM_map] at this
  unfold hashedMessage
  unfold fieldCType at htypes
  simp only [h.id, h.direction, h.reliable, h₁, h₂, bind, Except.bind, Option.getD_some,
    pyIter] at htypes ⊢
  rw [htypes]

theorem sortKey_eq (h : SameWireMessage tm₁ tm₂ m₁ m₂) :
    (sortKey m₁ : Check ℚ) = sortKey m₂ := by
  rw [sortKey, sortKey, h.id]

end SameWireMessage

theorem SameWire.symm {root₁ root₂ : PyDict} (h : SameWire root₁ root₂) :
    SameWire root₂ root₁ := by
  obtain ⟨ms, hms, hperm⟩ := h.messages
  have hflip : List.Forall₂ (SameWireMessage (mappingsOf root₂) (mappingsOf root₁)) ms
      (messagesOf root₁) :=
    (hms.imp fun m m' hm => hm.symm).flip
  obtain ⟨ms', hms', hperm'⟩ := List.perm_comp_forall₂ hperm.symm hflip
  exact ⟨fun key hkey => (h.headByte key hkey).symm, h.checksum.symm, h.requireHandshake.symm,
    fun m hm => (h.system m hm).symm, ms', hms', hperm'⟩

theorem SameWire.trans {root₁ root₂ root₃ : PyDict} (h : SameWire root₁ root₂)
    (h' : SameWire root₂ root₃) : SameWire root₁ root₃ := by
  obtain ⟨ms, hms, hperm⟩ := h.messages
  obtain ⟨ms', hms', hperm'⟩ := h'.messages
  obtain ⟨ms'', hms'', hperm''⟩ := List.perm_comp_forall₂ hperm hms'
  exact ⟨fun key hkey => (h.headByte key hkey).trans (h'.headByte key hkey),
    h.checksum.trans h'.checksum, h.requireHandshake.trans h'.requireHandshake,
    fun m hm => (h.system m hm).trans (h'.system m hm),
    ms'', forall₂_comp (fun _ _ _ hm hm' => hm.trans hm') hms hms'', hperm''.trans hperm'⟩

-- ---------------------------------------------------------------------------
-- The validator keeps the wire data
-- ---------------------------------------------------------------------------

/-- The validator leaves a message with the same wire data. -/
theorem sameWireMessage_of_accepted {tm msg msg' : PyDict} (hacc : MessageAccepted tm msg')
    (hkeep : ∀ key, key ≠ "debug_log_mode" →
      dictLookup msg (.str key) = dictLookup msg' (.str key)) :
    SameWireMessage tm tm (.map msg) (.map msg') := by
  obtain ⟨fields, hfields, -, -⟩ := hacc.fields
  refine ⟨?_, ?_, ?_, fields, fields, ?_, ?_, rfl⟩
  · rw [pyIndex, pyIndex, hkeep "id" (by decide)]
  · rw [pyIndex, pyIndex, hkeep "direction" (by decide)]
  · rw [messageReliable, messageReliable, pyGet?, pyGet?, hkeep "reliable" (by decide)]
  · rw [pyGet?, hkeep "fields" (by decide), hfields]
  · rw [pyGet?, hfields]

theorem checkMessages_keeps {tm : PyDict} {seen : Seen} {index : Nat} {ms ms' : List Yaml}
    (h : checkMessages tm seen index ms = .ok (ms', [])) :
    List.Forall₂ (SameWireMessage tm tm) ms ms' := by
  refine checkMessages_forall₂ (fun hm hes => ?_) h
  rw [hes rfl] at hm
  obtain ⟨⟨msg', rfl, hacc⟩, -⟩ := checkMessage_accepted hm
  obtain ⟨msg, rfl, hkeep⟩ := checkMessage_kept hm
  exact sameWireMessage_of_accepted hacc fun key hne => (hkeep key hne).symm

/-- A system message has a list of fields, whatever it is read with. -/
theorem sameWireMessage_system (tm : PyDict) {m : Yaml} (hm : m ∈ systemMessages) :
    SameWireMessage tm tm m m := by
  have hfields : ∃ fs, (pyGet? m "fields" : Check (Option Yaml)) = .ok (some (.list fs)) := by
    simp only [systemMessages, List.mem_cons, List.not_mem_nil, or_false] at hm
    rcases hm with rfl | rfl | rfl <;> exact ⟨_, rfl⟩
  obtain ⟨fs, hfs⟩ := hfields
  exact ⟨rfl, rfl, rfl, fs, fs, hfs, hfs, rfl⟩

section Accepted

variable {root cfg tm : PyDict} {messages : List Yaml}

theorem ConfigAccepted.configOf_eq (hacc : ConfigAccepted root cfg tm messages) :
    configOf root = cfg := by
  rw [configOf, dictGetD, hacc.config, Option.getD_some, topLevelMapping]

theorem ConfigAccepted.mappingsOf_eq (hacc : ConfigAccepted root cfg tm messages) :
    mappingsOf root = tm := by
  rw [mappingsOf, hacc.type_mappings, topLevelMapping]

theorem ConfigAccepted.messagesOf_eq (hacc : ConfigAccepted root cfg tm messages) :
    messagesOf root = messages := by
  rw [messagesOf, hacc.messages_list, topLevelMessages]

end Accepted

/-- **The validator keeps the wire data**: what it assigns is a normal form of `checksum` and of
every `debug_log_mode`. -/
theorem sameWire_validated {raw : PyDict} {configData : Yaml}
    (h : validateProtocol (.map raw) = .ok configData) :
    ∃ root cfg tm messages, configData = .map root ∧ ConfigAccepted root cfg tm messages ∧
      SameWire raw root := by
  obtain ⟨root', cfg', tm', messages', rfl, hacc⟩ := validateProtocol_accepted h
  refine ⟨root', cfg', tm', messages', rfl, hacc, ?_⟩
  obtain ⟨raw', msgs, hraw, hval, hroot⟩ := validateProtocol_eq_ok h
  obtain rfl := Yaml.map.inj hraw
  obtain rfl := Yaml.map.inj hroot
  have hcfg := configOf_assignedRoot raw msgs
  have htm := mappingsOf_assignedRoot raw msgs (configOf raw)
  have hmessages : messagesOf (assignedRoot raw (configOf raw) msgs) = msgs :=
    messagesOf_assignedRoot _ hval
  have hconfig := hval.config
  refine ⟨fun key hkey => ?_, ?_, ?_, fun m hm => ?_, ?_⟩
  · have hne : ∀ key ∈ ["head_byte_1", "head_byte_2"], key ≠ "checksum" := by decide
    exact hcfg ▸ (dictLookup_dictSet_ne _ _ (hne key hkey)).symm
  · rw [checkConfig] at hconfig
    simp only [List.append_eq_nil_iff, errorUnless_eq_nil] at hconfig
    have hsupported : checksumText (configOf raw) ∈ supportedChecksums := by
      simpa using hconfig.1.1.1.1.1.1
    change checksumText (configOf raw) = checksumText (configOf (assignedRoot raw (configOf raw) msgs))
    rw [hcfg]
    conv_rhs => rw [checksumText, dictGetD, dictLookup_dictSet_self, Option.getD_some]
    exact (pyUpper_supported hsupported).symm
  · rw [hcfg, dictGetD, dictGetD, dictLookup_dictSet_ne _ _ (by decide)]
  · rw [htm]
    exact sameWireMessage_system _ hm
  · rw [htm, hmessages]
    exact ⟨msgs, checkMessages_keeps hval.loop, .refl _⟩

-- ---------------------------------------------------------------------------
-- The hash input of an accepted configuration
-- ---------------------------------------------------------------------------

section Accepted

variable {root cfg tm : PyDict} {messages : List Yaml}

/-- `_protocol_hash_input` step by step. -/
theorem ConfigAccepted.protocolHashInput_eq_ok (hacc : ConfigAccepted root cfg tm messages)
    (hi : ProtocolHashInput) :
    (protocolHashInput (.map root) : Check ProtocolHashInput) = .ok hi ↔
      ∃ merged, (sortedById (messages ++ systemMessages) : Check (List Yaml)) = .ok merged ∧
        List.Forall₂ (fun m hm => (hashedMessage tm m : Check HashedMessage) = .ok hm) merged
          hi.messages ∧
        dictLookup cfg (.str "head_byte_1") = some hi.headByte1 ∧
        dictLookup cfg (.str "head_byte_2") = some hi.headByte2 ∧
        hi.checksum = checksumText cfg ∧
        hi.requireHandshake = (dictGetD cfg "require_handshake" (.bool true)).truthy := by
  obtain ⟨n₁, -, -, h₁⟩ := hacc.headByte "head_byte_1" (by simp)
  obtain ⟨n₂, -, -, h₂⟩ := hacc.headByte "head_byte_2" (by simp)
  have htm : (typeMappingsOf ((dictLookup root (.str "type_mappings")).getD (.map [])) :
      Check PyDict) = .ok tm := by
    rw [← dictGetD, hacc.type_mappings, typeMappingsOf]
  have hms : (dictLookup root (.str "messages")).getD (.list []) = .list messages :=
    hacc.messages_list
  have hchecksum : pyUpper (pyStr ((dictLookup cfg (.str "checksum")).getD (.str "CRC8"))) =
      checksumText cfg := rfl
  unfold protocolHashInput
  simp only [hacc.config, bind_eq_ok, Except.ok.injEq, pyGet?, pyIndex, htm, hms, mergeMessages_list,
    h₁, h₂, exists_eq_left', Option.getD_some, mapM_eq_ok, pure_eq_ok, hchecksum]
  constructor
  · rintro ⟨merged, hmerged, hashed, hhashed, rfl⟩
    exact ⟨merged, hmerged, hhashed, rfl, rfl, rfl, rfl⟩
  · rintro ⟨merged, hmerged, hhashed, hh₁, hh₂, hcs, hhs⟩
    refine ⟨merged, hmerged, hi.messages, hhashed, ?_⟩
    obtain ⟨b₁, b₂, checksum, handshake, hashed⟩ := hi
    simp only [Option.some.injEq] at hh₁ hh₂ hcs hhs
    rw [hh₁, hh₂, hcs, hhs]
    rfl

/-- A merged message with a sort key has an integer id, which is the key. -/
theorem ConfigAccepted.messageId_of_sortKey (hacc : ConfigAccepted root cfg tm messages) {m : Yaml}
    (hm : m ∈ messages ++ systemMessages) {q : ℚ} (hq : (sortKey m : Check ℚ) = .ok q) :
    ∃ n : Int, m.messageId? = some n ∧ q = n := by
  rcases List.mem_append.mp hm with hm | hm
  · obtain ⟨msg, rfl, hmsg⟩ := hacc.message m hm
    obtain ⟨v, hv, hq⟩ := bind_eq_ok.mp hq
    rcases hmsg.id with hnull | ⟨n, -, -, hn⟩
    · rw [pyIndex, hnull, Except.ok.injEq] at hv
      subst hv
      simp [idKey, Scalar.number?] at hq
    · rw [pyIndex, hn, Except.ok.injEq] at hv
      subst hv
      refine ⟨n, by rw [Yaml.messageId?, dictGet_eq hn]; rfl, ?_⟩
      simpa [idKey, Scalar.number?, eq_comm] using hq
  · have hkey : ∀ m ∈ systemMessages, ∃ n : Int, m.messageId? = some n ∧
        (sortKey m : Check ℚ) = .ok (n : ℚ) := by
      simp only [systemMessages, List.forall_mem_cons, List.not_mem_nil, false_implies,
        implies_true, and_true]
      exact ⟨⟨0xFD, rfl, rfl⟩, ⟨0xFE, rfl, rfl⟩, ⟨0xFF, rfl, rfl⟩⟩
    obtain ⟨n, hn, hkey⟩ := hkey m hm
    rw [hq, Except.ok.injEq] at hkey
    exact ⟨n, hn, hkey⟩

/-- Merged messages with the same key are the same message: `sorted` has one possible result. -/
theorem ConfigAccepted.eq_of_idLe (hacc : ConfigAccepted root cfg tm messages) {m m' : Yaml}
    (hm : m ∈ messages ++ systemMessages) (hm' : m' ∈ messages ++ systemMessages)
    (h : IdLe m m') (h' : IdLe m' m) : m = m' := by
  obtain ⟨q, q', hq, hq', hle⟩ := h
  obtain ⟨r', r, hr', hr, hle'⟩ := h'
  obtain rfl : r' = q' := Except.ok.inj (hr'.symm.trans hq')
  obtain rfl : r = q := Except.ok.inj (hr.symm.trans hq)
  obtain ⟨n, hn, rfl⟩ := hacc.messageId_of_sortKey hm hr
  obtain ⟨n', hn', rfl⟩ := hacc.messageId_of_sortKey hm' hr'
  have hnn : n = n' := by
    have heq : (n : ℚ) = n' := le_antisymm hle hle'
    exact_mod_cast heq
  exact eq_of_nodup_filterMap (hacc.merged_ids_nodup (.refl _)) hm hm' hn (hnn ▸ hn')

end Accepted

/-- One direction of `SameWire.protocolHashInput_iff`, after validation. -/
theorem SameWire.protocolHashInput_of {root₁ cfg₁ tm₁ root₂ cfg₂ tm₂ : PyDict}
    {messages₁ messages₂ : List Yaml} (h : SameWire root₁ root₂)
    (hacc₁ : ConfigAccepted root₁ cfg₁ tm₁ messages₁)
    (hacc₂ : ConfigAccepted root₂ cfg₂ tm₂ messages₂) {hi : ProtocolHashInput}
    (hok : (protocolHashInput (.map root₁) : Check ProtocolHashInput) = .ok hi) :
    (protocolHashInput (.map root₂) : Check ProtocolHashInput) = .ok hi := by
  obtain ⟨hhead, hchecksum, hshake, hsystem, ms, hms, hperm⟩ := h
  rw [hacc₁.configOf_eq, hacc₂.configOf_eq] at hhead hchecksum hshake
  rw [hacc₁.mappingsOf_eq, hacc₂.mappingsOf_eq] at hsystem hms
  rw [hacc₁.messagesOf_eq] at hms
  rw [hacc₂.messagesOf_eq] at hperm
  obtain ⟨merged₁, hmerged₁, hhashed, hh₁, hh₂, hcs, hhs⟩ := (hacc₁.protocolHashInput_eq_ok _).mp hok
  obtain ⟨hperm₁, hsorted₁, hkeys₁⟩ := sortedById_spec hmerged₁
  -- the merged messages of both sides correspond, up to their order
  have hall : List.Forall₂ (SameWireMessage tm₁ tm₂) (messages₁ ++ systemMessages)
      (ms ++ systemMessages) :=
    List.rel_append hms (List.forall₂_same.mpr hsystem)
  obtain ⟨out, hout, houtPerm⟩ := List.perm_comp_forall₂ hperm₁ hall
  have houtPerm : out.Perm (messages₂ ++ systemMessages) :=
    houtPerm.trans (hperm.append_right _)
  have hkeys₂ : ∀ m ∈ messages₂ ++ systemMessages, ∃ q, (sortKey m : Check ℚ) = .ok q := by
    intro m hm
    obtain ⟨m₁, hm₁, hsame⟩ := exists_left_of_forall₂ hout (houtPerm.mem_iff.mpr hm)
    obtain ⟨q, hq⟩ := hkeys₁ m₁ (hperm₁.mem_iff.mp hm₁)
    exact ⟨q, hsame.sortKey_eq ▸ hq⟩
  obtain ⟨merged₂, hmerged₂⟩ := returns_sortedById.mpr hkeys₂
  obtain ⟨hperm₂, hsorted₂, -⟩ := sortedById_spec hmerged₂
  -- both are sorted by the same distinct keys
  have houtSorted : out.Pairwise IdLe :=
    pairwise_of_forall₂ hout hsorted₁ fun m₁ m₂ m₁' m₂' hsame hsame' ⟨q, q', hq, hq', hle⟩ =>
      ⟨q, q', hsame.sortKey_eq ▸ hq, hsame'.sortKey_eq ▸ hq', hle⟩
  have heq : out = merged₂ :=
    List.Perm.eq_of_pairwise
      (fun m m' hm hm' => hacc₂.eq_of_idLe (houtPerm.mem_iff.mp hm) (hperm₂.mem_iff.mp hm'))
      houtSorted hsorted₂ (houtPerm.trans hperm₂.symm)
  subst heq
  refine (hacc₂.protocolHashInput_eq_ok _).mpr ⟨out, hmerged₂, ?_, ?_, ?_, ?_, ?_⟩
  · exact forall₂_comp (fun m₂ m₁ hm hsame hhash => hsame.hashedMessage_eq ▸ hhash)
      (hout.imp fun m₁ m₂ hsame => hsame).flip hhashed
  · exact hhead "head_byte_1" (by simp) ▸ hh₁
  · exact hhead "head_byte_2" (by simp) ▸ hh₂
  · exact hcs.trans hchecksum
  · exact hhs.trans hshake

/-- **Only wire-relevant data enters the hash input.** Two accepted configurations with the same
wire data have the same hash input, if they have one. -/
theorem SameWire.protocolHashInput_iff {raw₁ raw₂ : PyDict} {config₁ config₂ : Yaml}
    (h : SameWire raw₁ raw₂) (h₁ : validateProtocol (.map raw₁) = .ok config₁)
    (h₂ : validateProtocol (.map raw₂) = .ok config₂) (hi : ProtocolHashInput) :
    (protocolHashInput config₁ : Check ProtocolHashInput) = .ok hi ↔
      (protocolHashInput config₂ : Check ProtocolHashInput) = .ok hi := by
  obtain ⟨root₁, cfg₁, tm₁, messages₁, rfl, hacc₁, hsame₁⟩ := sameWire_validated h₁
  obtain ⟨root₂, cfg₂, tm₂, messages₂, rfl, hacc₂, hsame₂⟩ := sameWire_validated h₂
  have hsame : SameWire root₁ root₂ := (hsame₁.symm.trans h).trans hsame₂
  exact ⟨hsame.protocolHashInput_of hacc₁ hacc₂, hsame.symm.protocolHashInput_of hacc₂ hacc₁⟩

-- ---------------------------------------------------------------------------
-- What the hash input fixes
-- ---------------------------------------------------------------------------

/-- `message_wire_payload_size`, from the entry in the hash input. -/
def HashedMessage.wirePayloadSize (hm : HashedMessage) : Check Nat := do
  let sizes ← hm.fieldTypes.mapM cTypeSize
  return sizes.sum + if hm.reliable then 1 else 0

/-- An entry of the hash input describes a compiled message. -/
structure HashedAs (t : CTarget) (hm : HashedMessage) (message : Message) : Prop where
  id : byteLiteral? hm.id = some message.id
  reliable : hm.reliable = message.reliable
  fields : List.Forall₂ (fun ct f => t.typeOf (pyStr ct) = some f.cType) hm.fieldTypes
    message.fields

theorem CompiledFrom.hashedAs {t : CTarget} {tm : PyDict} {m : Yaml} {n : Nat} {message : Message}
    (hcomp : CompiledFrom t tm m n message) {hm : HashedMessage}
    (h : (hashedMessage tm m : Check HashedMessage) = .ok hm) :
    HashedAs t hm message ∧ hm.wirePayloadSize = .ok n := by
  obtain ⟨id, hid, h⟩ := bind_eq_ok.mp h
  obtain ⟨direction, -, h⟩ := bind_eq_ok.mp h
  obtain ⟨reliable, hrel, h⟩ := bind_eq_ok.mp h
  obtain ⟨v, hv, h⟩ := bind_eq_ok.mp h
  obtain ⟨items, hitems, h⟩ := bind_eq_ok.mp h
  obtain ⟨types, htypes, h⟩ := bind_eq_ok.mp h
  rw [pure_eq_ok] at h
  subst h
  obtain ⟨v', hid', hbyte⟩ := hcomp.id
  obtain rfl : v' = id := Except.ok.inj (hid'.symm.trans hid)
  obtain rfl : reliable = message.reliable := Except.ok.inj (hrel.symm.trans hcomp.reliable)
  obtain ⟨fields, sizes, ⟨w, hw, hiter⟩, hsizes, hn, hfields⟩ := hcomp.wirePayload
  -- `message['fields']` and `message.get('fields', [])` are the same value
  have hsame : v.getD (.list []) = w := by
    cases m with
    | scalar s => simp [pyIndex] at hw
    | list items => simp [pyIndex] at hw
    | map d =>
      rw [pyGet?, Except.ok.injEq] at hv
      rw [pyIndex, hv] at hw
      cases v with
      | none => simp at hw
      | some w' => exact Except.ok.inj hw
  rw [hsame, hiter, Except.ok.injEq] at hitems
  subst hitems
  rw [mapM_eq_ok] at htypes
  refine ⟨⟨hbyte, rfl, ?_⟩, bind_eq_ok.mpr ⟨sizes, mapM_eq_ok.mpr ?_, pure_eq_ok.mpr hn.symm⟩⟩
  · refine forall₂_comp (fun ct field f hct hf => ?_) htypes.flip hfields
    obtain ⟨ftype, cType, hftype, hcType, htype⟩ := hf
    obtain ⟨ftype', hftype', hct⟩ := bind_eq_ok.mp hct
    obtain rfl : ftype' = ftype := Except.ok.inj (hftype'.symm.trans hftype)
    obtain rfl : ct = cType := Except.ok.inj (hct.symm.trans hcType)
    exact htype
  · refine forall₂_comp (fun ct field size hct hsize => ?_) htypes.flip hsizes
    obtain ⟨ftype, hftype, hct⟩ := bind_eq_ok.mp hct
    obtain ⟨ftype', hftype', hsize⟩ := bind_eq_ok.mp hsize
    obtain rfl : ftype = ftype' := Except.ok.inj (hftype.symm.trans hftype')
    obtain ⟨ct', hct', hsize⟩ := bind_eq_ok.mp hsize
    obtain rfl : ct = ct' := Except.ok.inj (hct.symm.trans hct')
    exact hsize

/-- What the hash input fixes of a compiled protocol. -/
structure Protocol.HashedFrom (t : CTarget) (hi : ProtocolHashInput) (p : Protocol) : Prop where
  header1 : byteLiteral? hi.headByte1 = some p.frameHeader1
  header2 : byteLiteral? hi.headByte2 = some p.frameHeader2
  checksumAlgo : checksumAlgo? hi.checksum = some p.checksumAlgo
  requireHandshake : hi.requireHandshake = p.requireHandshake
  messages : List.Forall₂ (HashedAs t) hi.messages p.messages
  sizes : ∃ sizes, List.Forall₂ (fun hm n => hm.wirePayloadSize = .ok n) hi.messages sizes ∧
    p.maxPacketPayloadSize = pyMax sizes

/-- **The hash input of a deployed protocol** describes it. -/
theorem Deployment.hashedFrom {t : CTarget} {root cfg tm : PyDict} {messages merged : List Yaml}
    {sizes : List Nat} {p : Protocol} (d : Deployment t root cfg tm messages merged sizes p)
    {hi : ProtocolHashInput}
    (h : (protocolHashInput (.map root) : Check ProtocolHashInput) = .ok hi) :
    p.HashedFrom t hi := by
  obtain ⟨merged', hmerged, hhashed, hh₁, hh₂, hcs, hhs⟩ := (d.accepted.protocolHashInput_eq_ok _).mp h
  obtain rfl : merged' = merged :=
    Except.ok.inj (hmerged.symm.trans (mergeMessages_list messages ▸ d.merge_eq))
  obtain ⟨v₁, hv₁, hb₁⟩ := d.header1
  obtain ⟨v₂, hv₂, hb₂⟩ := d.header2
  rw [pyIndex, hh₁, Except.ok.injEq] at hv₁
  rw [pyIndex, hh₂, Except.ok.injEq] at hv₂
  refine ⟨hv₁ ▸ hb₁, hv₂ ▸ hb₂, hcs ▸ d.checksumAlgo, hhs.trans d.requireHandshake.symm, ?_,
    sizes, ?_, d.max_eq⟩
  · refine forall₂_comp (fun hm m message hhash hcomp => ?_) hhashed.flip d.compiled
    obtain ⟨n, hcomp⟩ := hcomp
    exact (hcomp.hashedAs hhash).1
  · refine forall₂_comp (fun hm m n hhash hboth => ?_) hhashed.flip
      (forall₂_and_of_common d.compiled d.sizes_eq)
    obtain ⟨message, ⟨n', hcomp⟩, hsize⟩ := hboth
    obtain rfl : n' = n := Except.ok.inj (hcomp.wirePayloadSize.symm.trans hsize)
    exact (hcomp.hashedAs hhash).2

end AutoSerialBridge
