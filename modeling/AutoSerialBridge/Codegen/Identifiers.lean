import AutoSerialBridge.Codegen.Complete
import AutoSerialBridge.Codegen.McuFiles
import Mathlib

/-!
# Auto Serial Bridge — the identifiers of protocol.h and protocol.c

The identifiers that the two files introduce at file scope, and the values of the `case` labels of
`protocol_fsm_feed`. The validator compares the upper-cased names, so that the enumerators differ; every
other identifier of a message is a prefix of its own and the name. The words of the generator begin
with none of these prefixes, `send_reliable_ack` apart.

## Results

* `namedParts_mcuHeaderLines`, `namedParts_mcuSourceLines`: what the files introduce, by messages.
* `mcuFiles_identifiers_iff`: **the identifiers, and the values of the labels, are pairwise distinct
  exactly if no message is called `reliable_ack` next to a reliable one**.
-/

namespace AutoSerialBridge

open Lib

-- ---------------------------------------------------------------------------
-- Reading the lines
-- ---------------------------------------------------------------------------

def Part.isText : Part → Bool
  | text _ => true
  | _ => false

/-- The parts that are no plain text. -/
def namedParts (lines : List Line) : List Part := (codeParts lines).filter fun part => !part.isText

/-- The identifier a part introduces. -/
def Part.identifier? : Part → Option String
  | declared identifier => some identifier
  | constant identifier _ => some identifier
  | _ => none

/-- An enumerator with a value. -/
def Part.constant? : Part → Option (String × String)
  | constant identifier value => some (identifier, value)
  | _ => none

def Part.label? : Part → Option String
  | label identifier => some identifier
  | _ => none

/-- The identifiers at file scope. -/
def identifiers (lines : List Line) : List String := (namedParts lines).filterMap Part.identifier?

/-- The values of the `case` labels of `protocol.c`, by the enumerators of `protocol.h`. -/
def caseValues (header source : List Line) : List (Option Int) :=
  ((namedParts source).filterMap Part.label?).map fun label =>
    (((namedParts header).filterMap Part.constant?).lookup label).bind String.toInt?

@[simp] theorem namedParts_nil : namedParts [] = [] := rfl

@[simp] theorem namedParts_append (lines lines' : List Line) :
    namedParts (lines ++ lines') = namedParts lines ++ namedParts lines' := by
  simp [namedParts, codeParts]

@[simp] theorem namedParts_code (parts : List Part) (lines : List Line) :
    namedParts (.code parts :: lines) =
      parts.filter (fun part => !part.isText) ++ namedParts lines := by
  simp [namedParts, codeParts]

@[simp] theorem namedParts_block (key : String) (lines : List Line) :
    namedParts (.block key :: lines) = namedParts lines := by
  simp [namedParts, codeParts]

@[simp] theorem namedParts_plain (s : String) (lines : List Line) :
    namedParts (plain s :: lines) = namedParts lines := by
  simp [plain, Part.isText]

@[simp] theorem namedParts_map_plain (texts : List String) : namedParts (texts.map plain) = [] := by
  induction texts with
  | nil => rfl
  | cons s texts ih => rw [List.map_cons, namedParts_plain, ih]

/-- Blocks of lines that come one by one from the elements of a list. -/
theorem namedParts_flatten {α β : Type} {R : α → β → Prop} {S : α → List Line → Prop}
    {parts : β → List Part} {xs : List α} {ys : List β} {blocks : List (List Line)}
    (hxs : List.Forall₂ R xs ys) (hblocks : List.Forall₂ S xs blocks)
    (hS : ∀ x y lines, R x y → S x lines → namedParts lines = parts y) :
    namedParts blocks.flatten = ys.flatMap parts := by
  induction hxs generalizing blocks with
  | nil =>
    rw [List.forall₂_nil_left_iff.mp hblocks, List.flatten_nil, namedParts_nil, List.flatMap_nil]
  | cons hx _ ih =>
    obtain ⟨lines, rest, hlines, hrest, rfl⟩ := List.forall₂_cons_left_iff.mp hblocks
    rw [List.flatten_cons, namedParts_append, hS _ _ _ hx hlines, ih hrest, List.flatMap_cons]

/-- The same with one line for each element. -/
theorem namedParts_lines {α β : Type} {R : α → β → Prop} {g : α → Check Line}
    {parts : β → List Part} {xs : List α} {ys : List β} {lines : List Line}
    (hxs : List.Forall₂ R xs ys) (h : xs.mapM g = .ok lines)
    (hg : ∀ x y line, R x y → g x = .ok line → namedParts [line] = parts y) :
    namedParts lines = ys.flatMap parts := by
  have hblocks : List.Forall₂ (fun x block => ∃ line, g x = .ok line ∧ block = [line]) xs
      (lines.map fun line => [line]) :=
    List.forall₂_map_right_iff.mpr ((mapM_eq_ok.mp h).imp fun _ line hline => ⟨line, hline, rfl⟩)
  have hflatten : (lines.map fun line => [line]).flatten = lines := by
    rw [← List.flatMap_def, List.flatMap_singleton']
  rw [← hflatten]
  refine namedParts_flatten hxs hblocks ?_
  rintro x y block hx ⟨line, hline, rfl⟩
  exact hg x y line hx hline

-- ---------------------------------------------------------------------------
-- The lines of a message
-- ---------------------------------------------------------------------------

/-- The name and the id of a message. -/
def Listed (m : Yaml) (e : String × Int) : Prop :=
  m.messageName? = some e.1 ∧ m.messageId? = some e.2

/-- `PACKET_ID_{name.upper()}`. -/
def packetIdOf (name : String) : String := "PACKET_ID_" ++ pyUpper name

section Message

variable {m : Yaml} {e : String × Int} {tm : PyDict}

theorem Yaml.messageName?_eq_some {s : String} :
    m.messageName? = some s ↔ (pyIndex m "name" : Check Yaml) = .ok (.str s) := by
  rw [pyIndex_eq_ok]
  cases m with
  | map d =>
    simp only [messageName?, asStr?_eq_some, map.injEq, exists_eq_left']
    exact ⟨fun h => lookup_of_dictGetD h (by rintro ⟨⟩), dictGet_eq⟩
  | scalar s => exact iff_of_false (by rintro ⟨⟩) (by rintro ⟨d, ⟨⟩, -⟩)
  | list items => exact iff_of_false (by rintro ⟨⟩) (by rintro ⟨d, ⟨⟩, -⟩)

theorem Yaml.messageId?_eq_some {n : Int} :
    m.messageId? = some n ↔ (pyIndex m "id" : Check Yaml) = .ok (.int n) := by
  rw [pyIndex_eq_ok]
  cases m with
  | map d =>
    simp only [messageId?, asInt?_eq_some, map.injEq, exists_eq_left']
    exact ⟨fun h => lookup_of_dictGetD h (by rintro ⟨⟩), dictGet_eq⟩
  | scalar s => exact iff_of_false (by rintro ⟨⟩) (by rintro ⟨d, ⟨⟩, -⟩)
  | list items => exact iff_of_false (by rintro ⟨⟩) (by rintro ⟨d, ⟨⟩, -⟩)

theorem strOf_eq_ok {v : Yaml} {s : String} :
    (strOf v : Check String) = .ok s ↔ v.printable = true ∧ pyStr v = s := by
  unfold strOf
  split_ifs with h <;> simp [h]

theorem Listed.shownName (h : Listed m e) : shownIndex m "name" = .ok e.1 :=
  shownIndex_str (Yaml.messageName?_eq_some.mp h.1)

theorem Listed.packetIdName (h : Listed m e) : packetIdName m = .ok (packetIdOf e.1) := by
  unfold AutoSerialBridge.packetIdName upperName
  rw [Yaml.messageName?_eq_some.mp h.1]
  rfl

theorem Listed.namedParts_enumeratorLine {line : Line} (h : Listed m e)
    (hline : enumeratorLine m = .ok line) :
    namedParts [line] = [.constant (packetIdOf e.1) (toString e.2)] := by
  unfold enumeratorLine at hline
  rw [h.packetIdName] at hline
  obtain ⟨name, hname, hline⟩ := bind_eq_ok.mp hline
  obtain ⟨shown, hshown, hline⟩ := bind_eq_ok.mp hline
  obtain ⟨id, hid, hshown⟩ := bind_eq_ok.mp hshown
  obtain rfl := Except.ok.inj ((Yaml.messageId?_eq_some.mp h.2).symm.trans hid)
  obtain ⟨-, rfl⟩ := strOf_eq_ok.mp hshown
  rw [← pure_eq_ok.mp hline, ← Except.ok.inj hname]
  rfl

theorem Listed.namedParts_structLines {lines : List Line} (h : Listed m e)
    (hlines : structLines tm m = .ok lines) : namedParts lines = [.declared ("Packet_" ++ e.1)] := by
  unfold structLines at hlines
  obtain ⟨items, -, hlines⟩ := bind_eq_ok.mp hlines
  obtain ⟨members, hmembers, hlines⟩ := bind_eq_ok.mp hlines
  rw [h.shownName] at hlines
  have hplain : namedParts members = items.flatMap fun _ => [] := by
    refine namedParts_lines (R := Eq) (List.forall₂_refl items) hmembers fun field _ line _ hline => ?_
    obtain ⟨ftype, -, hline⟩ := bind_eq_ok.mp hline
    obtain ⟨cType, -, hline⟩ := bind_eq_ok.mp hline
    obtain ⟨shownType, -, hline⟩ := bind_eq_ok.mp hline
    obtain ⟨shownName, -, hline⟩ := bind_eq_ok.mp hline
    rw [← pure_eq_ok.mp hline]
    rfl
  rw [← pure_eq_ok.mp hlines]
  simp [hplain, Part.isText]

theorem Listed.namedParts_declarationLines {lines : List Line} (h : Listed m e)
    (hlines : declarationLines m = .ok lines) :
    namedParts lines = [.declared ("on_receive_" ++ e.1), .declared ("send_" ++ e.1)] := by
  unfold declarationLines at hlines
  rw [h.shownName] at hlines
  rw [← pure_eq_ok.mp hlines]
  rfl

theorem Listed.namedParts_hookLines {lines : List Line} (h : Listed m e)
    (hlines : hookLines m = .ok lines) : namedParts lines = [] := by
  unfold hookLines at hlines
  rw [h.shownName] at hlines
  rw [← pure_eq_ok.mp hlines]
  rfl

theorem Listed.namedParts_caseLines {lines : List Line} {requireHandshake : Bool} (h : Listed m e)
    (hlines : caseLines requireHandshake m = .ok lines) :
    namedParts lines = [.label (packetIdOf e.1)] := by
  unfold caseLines at hlines
  rw [h.packetIdName, h.shownName] at hlines
  obtain ⟨packetId, hpacketId, hlines⟩ := bind_eq_ok.mp hlines
  obtain ⟨reliable, -, hlines⟩ := bind_eq_ok.mp hlines
  obtain ⟨name, -, hlines⟩ := bind_eq_ok.mp hlines
  rw [← pure_eq_ok.mp hlines, ← Except.ok.inj hpacketId]
  simp [Part.isText]

theorem Listed.namedParts_sendLines {lines : List Line} (h : Listed m e)
    (hlines : sendLines m = .ok lines) : namedParts lines = [] := by
  unfold sendLines at hlines
  rw [h.packetIdName, h.shownName] at hlines
  rw [← pure_eq_ok.mp hlines]
  exact namedParts_map_plain _

end Message

-- ---------------------------------------------------------------------------
-- The files
-- ---------------------------------------------------------------------------

/-- What `protocol.h` introduces. -/
def headerParts (es : List (String × Int)) : List Part :=
  (es.flatMap fun e => [.constant (packetIdOf e.1) (toString e.2)]) ++ [.declared "PacketID"] ++
    (es.flatMap fun e => [.declared ("Packet_" ++ e.1)]) ++
    [.declared "calculate_checksum", .declared "protocol_fsm_feed"] ++
    es.flatMap fun e => [.declared ("on_receive_" ++ e.1), .declared ("send_" ++ e.1)]

/-- The words of `protocol.c`. -/
def sourceWords (checksumAlgo : String) (hasReliable : Bool) : List String :=
  ["STATE_WAIT_HEADER1", "STATE_WAIT_HEADER2", "STATE_WAIT_ID", "STATE_WAIT_LEN", "STATE_WAIT_DATA",
    "STATE_WAIT_CRC", "State", "rx_state", "rx_buffer", "rx_cnt", "rx_data_len", "rx_id",
    "rx_checksum"] ++ (if checksumAlgo = "CRC8" then ["CRC8_TABLE"] else []) ++ ["checksum_update"] ++
    if hasReliable then ["g_last_reliable_seq", "send_reliable_ack"] else []

section Files

variable {config : Yaml} {ms : List Yaml} {es : List (String × Int)} {tm : PyDict} {lines : List Line}

/-- The header in blocks. -/
theorem mcuHeaderLines_blocks {protocolHash : UInt32}
    (h : mcuHeaderLines config ms tm protocolHash = .ok lines) :
    ∃ enumerators structs declarations, ms.mapM enumeratorLine = .ok enumerators ∧
      ms.mapM (structLines tm) = .ok structs ∧ ms.mapM declarationLines = .ok declarations ∧
      namedParts lines = namedParts enumerators ++ [.declared "PacketID"] ++
        namedParts structs.flatten ++
        [.declared "calculate_checksum", .declared "protocol_fsm_feed"] ++
        namedParts declarations.flatten := by
  unfold mcuHeaderLines at h
  obtain ⟨algo, -, h⟩ := bind_eq_ok.mp h
  obtain ⟨requireHandshake, -, h⟩ := bind_eq_ok.mp h
  obtain ⟨ignoreVersionMismatch, -, h⟩ := bind_eq_ok.mp h
  obtain ⟨strictHeartbeat, -, h⟩ := bind_eq_ok.mp h
  obtain ⟨interval, -, h⟩ := bind_eq_ok.mp h
  obtain ⟨timeout, -, h⟩ := bind_eq_ok.mp h
  obtain ⟨retryInterval, -, h⟩ := bind_eq_ok.mp h
  obtain ⟨maxRetries, -, h⟩ := bind_eq_ok.mp h
  obtain ⟨head1, -, h⟩ := bind_eq_ok.mp h
  obtain ⟨head2, -, h⟩ := bind_eq_ok.mp h
  obtain ⟨enumerators, henumerators, h⟩ := bind_eq_ok.mp h
  obtain ⟨structs, hstructs, h⟩ := bind_eq_ok.mp h
  obtain ⟨declarations, hdeclarations, h⟩ := bind_eq_ok.mp h
  rw [← pure_eq_ok.mp h]
  refine ⟨enumerators, structs, declarations, henumerators, hstructs, hdeclarations, ?_⟩
  simp [mcuFileBanner, Part.isText]

theorem namedParts_mcuHeaderLines {protocolHash : UInt32} (hms : List.Forall₂ Listed ms es)
    (h : mcuHeaderLines config ms tm protocolHash = .ok lines) : namedParts lines = headerParts es := by
  obtain ⟨enumerators, structs, declarations, henumerators, hstructs, hdeclarations, heq⟩ :=
    mcuHeaderLines_blocks h
  have henum : namedParts enumerators =
      es.flatMap fun e => [.constant (packetIdOf e.1) (toString e.2)] :=
    namedParts_lines hms henumerators fun _ _ _ hm => hm.namedParts_enumeratorLine
  have hstruct := namedParts_flatten hms (mapM_eq_ok.mp hstructs)
    fun _ _ _ hm => hm.namedParts_structLines
  have hdecl := namedParts_flatten hms (mapM_eq_ok.mp hdeclarations)
    fun _ _ _ hm => hm.namedParts_declarationLines
  rw [heq, henum, hstruct, hdecl, headerParts]

theorem namedParts_checksumLines (checksumAlgo : String) :
    namedParts (checksumLines checksumAlgo) =
      ((if checksumAlgo = "CRC8" then ["CRC8_TABLE"] else []) ++ ["checksum_update"]).map .declared := by
  have htable : namedParts crc8TableLines = [] := by
    unfold crc8TableLines
    induction List.range 16 with
    | nil => rfl
    | cons row rows ih => rw [List.map_cons, namedParts_plain, ih]
  unfold checksumLines
  split_ifs <;> simp [htable, Part.isText]

theorem namedParts_reliableLines (hasReliable : Bool) :
    namedParts (reliableLines hasReliable) =
      (if hasReliable then ["g_last_reliable_seq", "send_reliable_ack"] else []).map .declared := by
  cases hasReliable <;> rfl

theorem namedParts_mcuSourceLines (hms : List.Forall₂ Listed ms es)
    (h : mcuSourceLines config ms tm = .ok lines) :
    ∃ checksumAlgo hasReliable, (hasReliable = true ↔
        ∃ m ∈ ms, (messageReliable m : Check Bool) = .ok true) ∧
      namedParts lines = (sourceWords checksumAlgo hasReliable).map .declared ++
        (es.flatMap fun e => [.label (packetIdOf e.1)]) ++ [.declared "serial_write"] := by
  unfold mcuSourceLines at h
  obtain ⟨checksumAlgo, -, h⟩ := bind_eq_ok.mp h
  obtain ⟨requireHandshake, -, h⟩ := bind_eq_ok.mp h
  obtain ⟨structPayloads, -, h⟩ := bind_eq_ok.mp h
  obtain ⟨wirePayloads, -, h⟩ := bind_eq_ok.mp h
  obtain ⟨reliable, hreliable, h⟩ := bind_eq_ok.mp h
  obtain ⟨hooks, hhooks, h⟩ := bind_eq_ok.mp h
  obtain ⟨cases, hcases, h⟩ := bind_eq_ok.mp h
  obtain ⟨sends, hsends, h⟩ := bind_eq_ok.mp h
  rw [← pure_eq_ok.mp h]
  refine ⟨checksumAlgo, reliable.any id, ?_, ?_⟩
  · rw [List.any_eq_true]
    constructor
    · rintro ⟨_, hmem, rfl⟩
      exact exists_left_of_forall₂ (mapM_eq_ok.mp hreliable) hmem
    · rintro ⟨m, hm, htrue⟩
      obtain ⟨r, hr, hmr⟩ := exists_right_of_forall₂ (mapM_eq_ok.mp hreliable) hm
      exact ⟨r, hr, Except.ok.inj (hmr.symm.trans htrue)⟩
  have hhook := namedParts_flatten hms (mapM_eq_ok.mp hhooks) fun _ _ _ hm => hm.namedParts_hookLines
  have hcase := namedParts_flatten hms (mapM_eq_ok.mp hcases) fun _ _ _ hm => hm.namedParts_caseLines
  have hsend := namedParts_flatten hms (mapM_eq_ok.mp hsends) fun _ _ _ hm => hm.namedParts_sendLines
  have hnone : (es.flatMap fun _ => ([] : List Part)) = [] := by simp
  rw [hnone] at hhook hsend
  simp [mcuFileBanner, stateLines, namedParts_checksumLines, calculateChecksumLines,
    namedParts_reliableLines, fsmLines, fsmEndLines, hhook, hcase, hsend, sourceWords, Part.isText,
    List.map_append]

end Files

-- ---------------------------------------------------------------------------
-- Names with a prefix
-- ---------------------------------------------------------------------------

/-- Neither of the strings begins with the other. -/
def Incomparable (p q : String) : Prop := ¬ p.toList <+: q.toList ∧ ¬ q.toList <+: p.toList

instance (p q : String) : Decidable (Incomparable p q) := inferInstanceAs (Decidable (_ ∧ _))

theorem Incomparable.append_ne {p q : String} (h : Incomparable p q) (s t : String) :
    p ++ s ≠ q ++ t := by
  intro heq
  have hlist := congrArg String.toList heq
  rw [String.toList_append, String.toList_append] at hlist
  have hp : p.toList <+: q.toList ++ t.toList := hlist ▸ List.prefix_append _ _
  rcases List.prefix_or_prefix_of_prefix hp (List.prefix_append _ _) with hpq | hqp
  · exact h.1 hpq
  · exact h.2 hqp

theorem Incomparable.disjoint {p q : String} (h : Incomparable p q) (names names' : List String) :
    List.Disjoint (names.map (p ++ ·)) (names'.map (q ++ ·)) := by
  intro a ha ha'
  obtain ⟨s, -, rfl⟩ := List.mem_map.mp ha
  obtain ⟨t, -, heq⟩ := List.mem_map.mp ha'
  exact h.append_ne s t heq.symm

theorem nodup_map_append {names : List String} (p : String) (h : names.Nodup) :
    (names.map (p ++ ·)).Nodup :=
  h.map fun s t heq => String.toList_inj.mp (List.append_cancel_left
    (by simpa only [String.toList_append] using congrArg String.toList heq))

/-- The identifiers of the messages. -/
def messageIdentifiers (names : List String) : List String :=
  (names.map pyUpper).map ("PACKET_ID_" ++ ·) ++ (names.map ("Packet_" ++ ·) ++
    (names.map ("on_receive_" ++ ·) ++ names.map ("send_" ++ ·)))

/-- The words of both files. -/
def fileWords (checksumAlgo : String) (hasReliable : Bool) : List String :=
  ["PacketID", "calculate_checksum", "protocol_fsm_feed"] ++
    sourceWords checksumAlgo hasReliable ++ ["serial_write"]

theorem messageIdentifiers_nodup {names : List String} (h : (names.map pyUpper).Nodup) :
    (messageIdentifiers names).Nodup := by
  have hnames : names.Nodup := h.of_map
  unfold messageIdentifiers
  refine (nodup_map_append _ h).append ((nodup_map_append _ hnames).append
    ((nodup_map_append _ hnames).append (nodup_map_append _ hnames) ?_) ?_) ?_
  · exact (by decide : Incomparable "on_receive_" "send_").disjoint _ _
  · rw [List.disjoint_append_right]
    exact ⟨(by decide : Incomparable "Packet_" "on_receive_").disjoint _ _,
      (by decide : Incomparable "Packet_" "send_").disjoint _ _⟩
  · rw [List.disjoint_append_right, List.disjoint_append_right]
    exact ⟨(by decide : Incomparable "PACKET_ID_" "Packet_").disjoint _ _,
      (by decide : Incomparable "PACKET_ID_" "on_receive_").disjoint _ _,
      (by decide : Incomparable "PACKET_ID_" "send_").disjoint _ _⟩

theorem fileWords_nodup (checksumAlgo : String) (hasReliable : Bool) :
    (fileWords checksumAlgo hasReliable).Nodup := by
  unfold fileWords sourceWords
  by_cases h : checksumAlgo = "CRC8" <;> cases hasReliable <;> simp only [h, if_true, if_false] <;>
    decide

theorem mem_fileWords {checksumAlgo word : String} {hasReliable : Bool}
    (h : word ∈ fileWords checksumAlgo hasReliable) :
    word ∈ fileWords "CRC8" false ∨
      hasReliable = true ∧ (word = "g_last_reliable_seq" ∨ word = "send_reliable_ack") := by
  unfold fileWords sourceWords at h ⊢
  simp only [List.mem_append] at h ⊢
  rcases h with (hheader | ((hstate | halgo) | hupdate) | hreliable) | hserial
  · exact .inl (.inl (.inl hheader))
  · exact .inl (.inl (.inr (.inl (.inl (.inl hstate)))))
  · split_ifs at halgo with hcrc
    · exact .inl (.inl (.inr (.inl (.inl (.inr halgo)))))
    · cases halgo
  · exact .inl (.inl (.inr (.inl (.inr hupdate))))
  · split_ifs at hreliable with hr
    · exact .inr ⟨hr, by simpa using hreliable⟩
    · cases hreliable
  · exact .inl (.inr hserial)

/-- The prefixes of the identifiers of the messages. -/
def messagePrefixes : List String := ["PACKET_ID_", "Packet_", "on_receive_", "send_"]

/-- A word that begins like an identifier of a message is the helper for reliable messages. -/
theorem mem_fileWords_append {checksumAlgo p s : String} {hasReliable : Bool}
    (hp : p ∈ messagePrefixes) (h : p ++ s ∈ fileWords checksumAlgo hasReliable) :
    p = "send_" ∧ s = "reliable_ack" ∧ hasReliable = true := by
  have hbegins : p.toList <+: (p ++ s).toList := by
    rw [String.toList_append]
    exact List.prefix_append _ _
  have hother : ∀ word ∈ "g_last_reliable_seq" :: fileWords "CRC8" false,
      ∀ p ∈ messagePrefixes, ¬ p.toList <+: word.toList := by
    decide +kernel
  rcases mem_fileWords h with hword | ⟨hr, heq | heq⟩
  · exact absurd hbegins (hother _ (List.mem_cons_of_mem _ hword) p hp)
  · rw [heq] at hbegins
    exact absurd hbegins (hother _ List.mem_cons_self p hp)
  · have hsend : ∀ p ∈ messagePrefixes, p.toList <+: "send_reliable_ack".toList → p = "send_" := by
      decide +kernel
    obtain rfl := hsend p hp (heq ▸ hbegins)
    refine ⟨rfl, ?_, hr⟩
    have hlist := congrArg String.toList heq
    rw [String.toList_append] at hlist
    exact String.toList_inj.mp (List.append_cancel_left hlist)

/-- **The identifiers of the messages and the words of the files.** -/
theorem messageIdentifiers_append_nodup {names : List String} (h : (names.map pyUpper).Nodup)
    (checksumAlgo : String) (hasReliable : Bool) :
    (messageIdentifiers names ++ fileWords checksumAlgo hasReliable).Nodup ↔
      ¬ ("reliable_ack" ∈ names ∧ hasReliable = true) := by
  rw [List.nodup_append']
  constructor
  · rintro ⟨-, -, hdisjoint⟩ ⟨hname, rfl⟩
    refine @hdisjoint "send_reliable_ack" ?_ ?_
    · simp only [messageIdentifiers, List.mem_append, List.mem_map]
      exact .inr (.inr (.inr ⟨_, hname, rfl⟩))
    · simp [fileWords, sourceWords]
  · intro hne
    refine ⟨messageIdentifiers_nodup h, fileWords_nodup _ _, fun identifier hid hword => hne ?_⟩
    have hgen : ∃ p ∈ messagePrefixes, ∃ s, identifier = p ++ s ∧ (p = "send_" → s ∈ names) := by
      simp only [messageIdentifiers, List.mem_append, List.mem_map] at hid
      rcases hid with ⟨s, -, rfl⟩ | ⟨s, -, rfl⟩ | ⟨s, -, rfl⟩ | ⟨s, hs, rfl⟩
      · exact ⟨_, by simp [messagePrefixes], s, rfl, fun h => absurd h (by decide)⟩
      · exact ⟨_, by simp [messagePrefixes], s, rfl, fun h => absurd h (by decide)⟩
      · exact ⟨_, by simp [messagePrefixes], s, rfl, fun h => absurd h (by decide)⟩
      · exact ⟨_, by simp [messagePrefixes], s, rfl, fun _ => hs⟩
    obtain ⟨p, hp, s, rfl, hs⟩ := hgen
    obtain ⟨rfl, rfl, hr⟩ := mem_fileWords_append hp hword
    exact ⟨hs rfl, hr⟩

-- ---------------------------------------------------------------------------
-- The files of a configuration
-- ---------------------------------------------------------------------------

/-- The identifiers at file scope and the values of the `case` labels are pairwise distinct. -/
structure IdentifiersDistinct (header source : List Line) : Prop where
  identifiers : (identifiers header ++ identifiers source).Nodup
  caseValues : ∃ values : List Int, caseValues header source = values.map some ∧ values.Nodup

/-- A message is called `reliable_ack`, and a message is reliable. -/
def ReliableAckClash (root : PyDict) : Prop :=
  (∃ m ∈ messagesOf root, m.messageName? = some "reliable_ack") ∧
    ∃ m ∈ messagesOf root, (messageReliable m : Check Bool) = .ok true

theorem lookup_map_of_nodup {α β : Type} {k : α → String} {v : α → β} {xs : List α}
    (h : (xs.map k).Nodup) {x : α} (hx : x ∈ xs) :
    (xs.map fun x => (k x, v x)).lookup (k x) = some (v x) := by
  induction xs with
  | nil => cases hx
  | cons y xs ih =>
    obtain ⟨hhead, htail⟩ := List.nodup_cons.mp h
    rw [List.map_cons, List.lookup_cons]
    rcases List.mem_cons.mp hx with rfl | hx
    · rw [beq_self_eq_true]
    · have hne : k x ≠ k y := fun heq => hhead (heq ▸ List.mem_map_of_mem hx)
      rw [beq_eq_false_iff_ne.mpr hne, ih htail hx]

section Lists

variable {header source : List Line} {es : List (String × Int)} {checksumAlgo : String}
  {hasReliable : Bool}

theorem identifiers_perm (hheader : namedParts header = headerParts es)
    (hsource : namedParts source = (sourceWords checksumAlgo hasReliable).map .declared ++
      (es.flatMap fun e => [.label (packetIdOf e.1)]) ++ [.declared "serial_write"]) :
    (identifiers header ++ identifiers source).Perm
      (messageIdentifiers (es.map (·.1)) ++ fileWords checksumAlgo hasReliable) := by
  have hwords : ∀ words : List String, (words.map Part.declared).filterMap Part.identifier? = words := by
    intro words
    rw [List.filterMap_map]
    exact List.filterMap_some
  have hpairs : (es.flatMap fun e => ["on_receive_" ++ e.1, "send_" ++ e.1]).Perm
      (es.map (fun e => "on_receive_" ++ e.1) ++ es.map fun e => "send_" ++ e.1) := by
    rw [List.map_eq_flatMap, List.map_eq_flatMap]
    exact (List.flatMap_append_perm es (fun e => ["on_receive_" ++ e.1])
      fun e => ["send_" ++ e.1]).symm
  have hids : identifiers header = es.map (fun e => packetIdOf e.1) ++ ["PacketID"] ++
      es.map (fun e => "Packet_" ++ e.1) ++ ["calculate_checksum", "protocol_fsm_feed"] ++
      es.flatMap fun e => ["on_receive_" ++ e.1, "send_" ++ e.1] := by
    unfold identifiers
    rw [hheader, headerParts]
    simp [List.filterMap_flatMap, Part.identifier?, List.map_eq_flatMap]
  have hsourceIds : identifiers source = sourceWords checksumAlgo hasReliable ++ ["serial_write"] := by
    unfold identifiers
    rw [hsource, List.filterMap_append, List.filterMap_append, hwords]
    simp [List.filterMap_flatMap, Part.identifier?]
  rw [hids, hsourceIds, List.perm_iff_count]
  intro a
  have hcount := hpairs.count_eq a
  have hpacketIds : (es.map (·.1)).map pyUpper = es.map fun e => pyUpper e.1 := List.map_map
  simp only [messageIdentifiers, fileWords, packetIdOf, List.count_append, List.map_map, hpacketIds,
    Function.comp_def, List.count_cons, List.count_nil] at hcount ⊢
  omega

theorem caseValues_eq (hheader : namedParts header = headerParts es)
    (hsource : namedParts source = (sourceWords checksumAlgo hasReliable).map .declared ++
      (es.flatMap fun e => [.label (packetIdOf e.1)]) ++ [.declared "serial_write"])
    (h : (es.map fun e => packetIdOf e.1).Nodup) :
    caseValues header source = (es.map (·.2)).map some := by
  have hlabels : (namedParts source).filterMap Part.label? = es.map fun e => packetIdOf e.1 := by
    have hwords : ∀ words : List String, (words.map Part.declared).filterMap Part.label? = [] := by
      intro words
      rw [List.filterMap_map]
      exact List.filterMap_eq_nil_iff.mpr fun _ _ => rfl
    rw [hsource, List.filterMap_append, List.filterMap_append, hwords, List.filterMap_flatMap,
      List.map_eq_flatMap]
    exact List.append_nil _
  have hconstants : (namedParts header).filterMap Part.constant? =
      es.map fun e => (packetIdOf e.1, toString e.2) := by
    rw [hheader, headerParts]
    simp only [List.filterMap_append, List.filterMap_flatMap]
    have hnone : ∀ s, [Part.declared s].filterMap Part.constant? = [] := fun _ => rfl
    have hpair : ∀ s t, [Part.declared s, .declared t].filterMap Part.constant? = [] := fun _ _ => rfl
    have hconstant : ∀ s v, [Part.constant s v].filterMap Part.constant? = [(s, v)] := fun _ _ => rfl
    simp [hnone, hpair, hconstant, List.map_eq_flatMap]
  unfold caseValues
  rw [hlabels, hconstants, List.map_map, List.map_map]
  refine List.map_congr_left fun e he => ?_
  rw [Function.comp_apply, lookup_map_of_nodup h he]
  exact Int.toInt?_repr e.2

/-- The two files, given what they introduce. -/
theorem identifiersDistinct_iff (hheader : namedParts header = headerParts es)
    (hsource : namedParts source = (sourceWords checksumAlgo hasReliable).map .declared ++
      (es.flatMap fun e => [.label (packetIdOf e.1)]) ++ [.declared "serial_write"])
    (hsymbols : ((es.map (·.1)).map pyUpper).Nodup) (hids : (es.map (·.2)).Nodup) :
    IdentifiersDistinct header source ↔
      ¬ ("reliable_ack" ∈ es.map (·.1) ∧ hasReliable = true) := by
  have hpacketIds : (es.map fun e => packetIdOf e.1).Nodup := by
    have hprefixed := nodup_map_append "PACKET_ID_" hsymbols
    rwa [List.map_map, List.map_map] at hprefixed
  rw [← messageIdentifiers_append_nodup hsymbols checksumAlgo hasReliable,
    ← (identifiers_perm hheader hsource).nodup_iff]
  exact ⟨fun h => h.identifiers, fun h => ⟨h, _, caseValues_eq hheader hsource hpacketIds, hids⟩⟩

end Lists

section Accepted

variable {root cfg tm : PyDict} {messages merged : List Yaml} {hash : ProtocolHashInput → UInt32}
  {header source : List Line}

/-- The passes over an accepted configuration. -/
theorem ConfigAccepted.mcuFiles_eq_ok (hacc : ConfigAccepted root cfg tm messages)
    (h : mcuFiles hash (.map root) = .ok (header, source)) :
    ∃ merged protocolHash,
      (sortedById (messages ++ systemMessages) : Check (List Yaml)) = .ok merged ∧
      mcuHeaderLines (.map cfg) merged tm protocolHash = .ok header ∧
      mcuSourceLines (.map cfg) merged tm = .ok source := by
  unfold mcuFiles at h
  obtain ⟨config, hconfig, h⟩ := bind_eq_ok.mp h
  rw [pyIndex, hacc.config, Except.ok.injEq] at hconfig
  subst hconfig
  obtain ⟨mappings, hmappings, h⟩ := bind_eq_ok.mp h
  rw [pyGet?, Except.ok.injEq] at hmappings
  subst hmappings
  rw [show (dictLookup root (.str "type_mappings")).getD (.map []) = .map tm from
    hacc.type_mappings] at h
  obtain ⟨mappings, hmappings, h⟩ := bind_eq_ok.mp h
  have htm : (typeMappingsOf (if (Yaml.map tm).truthy then .map tm else .map []) : Check PyDict) =
      .ok tm := by
    cases tm <;> rfl
  rw [htm, Except.ok.injEq] at hmappings
  subst hmappings
  obtain ⟨value, hvalue, h⟩ := bind_eq_ok.mp h
  rw [pyGet?, Except.ok.injEq] at hvalue
  subst hvalue
  rw [show (dictLookup root (.str "messages")).getD (.list []) = .list messages from
    hacc.messages_list] at h
  obtain ⟨merged, hmerged, h⟩ := bind_eq_ok.mp h
  rw [mergeMessages_list] at hmerged
  obtain ⟨protocolHash, -, h⟩ := bind_eq_ok.mp h
  obtain ⟨lines, hheader, h⟩ := bind_eq_ok.mp h
  obtain ⟨lines', hsource, h⟩ := bind_eq_ok.mp h
  obtain ⟨rfl, rfl⟩ := Prod.mk.inj (pure_eq_ok.mp h)
  exact ⟨merged, protocolHash, hmerged, hheader, hsource⟩

/-- Every merged message has an integer id, and a name if its enumerator is written. -/
theorem ConfigAccepted.listed (hacc : ConfigAccepted root cfg tm messages)
    (hmerged : (sortedById (messages ++ systemMessages) : Check (List Yaml)) = .ok merged)
    {enumerators : List Line} (henumerators : merged.mapM enumeratorLine = .ok enumerators) :
    ∃ es, List.Forall₂ Listed merged es := by
  have hall : ∀ m ∈ merged, ∃ e, Listed m e := by
    intro m hm
    obtain ⟨hperm, -, hkeys⟩ := sortedById_spec hmerged
    obtain ⟨q, hq⟩ := hkeys m (hperm.mem_iff.mp hm)
    obtain ⟨n, hn, -⟩ := hacc.messageId_of_sortKey (hperm.mem_iff.mp hm) hq
    obtain ⟨line, -, hline⟩ := exists_right_of_forall₂ (mapM_eq_ok.mp henumerators) hm
    obtain ⟨packetId, hpacketId, -⟩ := bind_eq_ok.mp hline
    obtain ⟨symbol, hsymbol, -⟩ := bind_eq_ok.mp hpacketId
    obtain ⟨name, hname, hsymbol⟩ := bind_eq_ok.mp hsymbol
    split at hsymbol
    · exact ⟨(_, n), Yaml.messageName?_eq_some.mpr hname, hn⟩
    · cases hsymbol
  clear henumerators hmerged
  induction merged with
  | nil => exact ⟨[], .nil⟩
  | cons m merged ih =>
    obtain ⟨hm, hrest⟩ := List.forall_mem_cons.mp hall
    obtain ⟨e, he⟩ := hm
    obtain ⟨es, hes⟩ := ih hrest
    exact ⟨e :: es, .cons he hes⟩

end Accepted

section Validated

variable {root : PyDict} {messages merged : List Yaml}

/-- The symbols of the merged messages differ. -/
theorem Validated.symbols_nodup (h : Validated root messages)
    (hperm : merged.Perm (messages ++ systemMessages)) :
    ((merged.filterMap Yaml.messageName?).map pyUpper).Nodup := by
  have hloop := checkMessages_symbols h.loop (by decide +kernel)
  rw [List.map_filterMap, (hperm.filterMap _).nodup_iff, List.filterMap_append,
    List.perm_append_comm.nodup_iff]
  exact hloop

/-- The assignment of `debug_log_mode` changes neither names nor reliability. -/
theorem Validated.kept (h : Validated root messages) :
    List.Forall₂ (fun m m' => m.messageName? = m'.messageName? ∧
      (messageReliable m : Check Bool) = messageReliable m') (messagesOf root) messages := by
  refine checkMessages_forall₂ (fun hm hes => ?_) h.loop
  rw [hes rfl] at hm
  obtain ⟨label, msg₀, msg, rfl, rfl, hclean, -⟩ := checkMessage_clean hm
  refine ⟨?_, ?_⟩
  · rw [Yaml.messageName?, Yaml.messageName?, dictGet_congr (hclean.kept "name" (by decide))]
  · exact congrArg (fun v : Option Yaml => (.ok (v.getD (.bool false)).truthy : Check Bool))
      (hclean.kept "reliable" (by decide)).symm

/-- The clash, in the merged messages. -/
theorem Validated.reliableAckClash_iff (h : Validated root messages)
    (hperm : merged.Perm (messages ++ systemMessages)) :
    ReliableAckClash root ↔ "reliable_ack" ∈ merged.filterMap Yaml.messageName? ∧
      ∃ m ∈ merged, (messageReliable m : Check Bool) = .ok true := by
  have hsystem : ∀ m ∈ systemMessages, m.messageName? ≠ some "reliable_ack" ∧
      (messageReliable m : Check Bool) = .ok false := by
    simp only [systemMessages, List.forall_mem_cons]
    exact ⟨⟨by decide +kernel, rfl⟩, ⟨by decide +kernel, rfl⟩, ⟨by decide +kernel, rfl⟩, List.forall_mem_nil _⟩
  have hmem : ∀ P : Yaml → Prop, (∀ m ∈ systemMessages, ¬ P m) →
      ((∃ m ∈ merged, P m) ↔ ∃ m ∈ messages, P m) := by
    intro P hP
    constructor
    · rintro ⟨m, hm, hPm⟩
      rcases List.mem_append.mp (hperm.mem_iff.mp hm) with hm | hm
      · exact ⟨m, hm, hPm⟩
      · exact absurd hPm (hP m hm)
    · rintro ⟨m, hm, hPm⟩
      exact ⟨m, hperm.mem_iff.mpr (List.mem_append_left _ hm), hPm⟩
  unfold ReliableAckClash
  rw [List.mem_filterMap, hmem _ fun m hm => (hsystem m hm).1, hmem _ fun m hm htrue => by
    rw [(hsystem m hm).2] at htrue
    cases htrue]
  exact and_congr (exists_mem_congr_of_forall₂ h.kept fun m m' hm => by rw [hm.1])
    (exists_mem_congr_of_forall₂ h.kept fun m m' hm => by rw [hm.2])

end Validated

/-- **Generated identifiers**: they differ, and so do the values of the `case` labels, exactly if no
message is called `reliable_ack` next to a reliable one. -/
theorem mcuFiles_identifiers_iff {hash : ProtocolHashInput → UInt32} {root : PyDict}
    {configData : Yaml} {header source : List Line}
    (h : validateProtocol (.map root) = .ok configData)
    (hfiles : mcuFiles hash configData = .ok (header, source)) :
    IdentifiersDistinct header source ↔ ¬ ReliableAckClash root := by
  obtain ⟨root', cfg, tm, messages', hroot', hacc⟩ := validateProtocol_accepted h
  obtain ⟨raw, messages, hraw, hval, rfl⟩ := validateProtocol_eq_ok h
  obtain rfl := Yaml.map.inj hraw
  obtain rfl := Yaml.map.inj hroot'
  obtain rfl : messages' = messages := by
    rw [← hacc.messagesOf_eq, messagesOf_assignedRoot _ hval]
  obtain ⟨merged, protocolHash, hmerged, hheader, hsource⟩ := hacc.mcuFiles_eq_ok hfiles
  obtain ⟨enumerators, -, -, henumerators, -⟩ := mcuHeaderLines_blocks hheader
  obtain ⟨es, hes⟩ := hacc.listed hmerged henumerators
  obtain ⟨hperm, -⟩ := sortedById_spec hmerged
  have hnames : merged.filterMap Yaml.messageName? = es.map (·.1) :=
    filterMap_eq_of_forall₂ hes fun _ _ hm => hm.1
  have hids : merged.filterMap Yaml.messageId? = es.map (·.2) :=
    filterMap_eq_of_forall₂ hes fun _ _ hm => hm.2
  obtain ⟨checksumAlgo, hasReliable, hreliable, hsourceParts⟩ := namedParts_mcuSourceLines hes hsource
  rw [identifiersDistinct_iff (namedParts_mcuHeaderLines hes hheader) hsourceParts
    (hnames ▸ hval.symbols_nodup hperm) (hids ▸ hacc.merged_ids_nodup hperm),
    hval.reliableAckClash_iff hperm, hnames, hreliable]

theorem mcuFiles_identifiers_demo : ∃ configData header source,
    validateProtocol demoConfig = .ok configData ∧
      mcuFiles (fun _ => 0xDC27492C) configData = .ok (header, source) ∧
      IdentifiersDistinct header source := by
  have hreturns : Returns (validateProtocol demoConfig >>= mcuFiles fun _ => 0xDC27492C) :=
    returns_of_isOk (by decide +kernel)
  obtain ⟨⟨header, source⟩, h⟩ := hreturns
  obtain ⟨configData, hconfig, hfiles⟩ := bind_eq_ok.mp h
  refine ⟨configData, header, source, hconfig, hfiles,
    (mcuFiles_identifiers_iff hconfig hfiles).mpr ?_⟩
  rintro ⟨⟨m, hm, hname⟩, -⟩
  have hnames : ∀ m ∈ messagesOf [(.str "serial_controller", demoSerialController),
      (.str "config", demoSettings 1024), (.str "type_mappings", demoTypeMappings []),
      (.str "messages", .list [
        demoMessage "DemoCommand" 1 "tx" [] "sub_topic" "demo/command" "std_msgs/msg/UInt32" "u32",
        demoMessage "DemoReliableCommand" 2 "tx" [(.str "reliable", .bool true)] "sub_topic"
          "demo/reliable_command" "std_msgs/msg/UInt32" "u32",
        demoMessage "DemoTelemetry" 3 "rx" [] "pub_topic" "demo/telemetry" "std_msgs/msg/Float32"
          "f32"])], m.messageName? ≠ some "reliable_ack" := by
    decide +kernel
  exact hnames m hm hname

/-- A reliable message under the name `reliable_ack`. -/
def reliableAckConfig : Yaml :=
  .map [(.str "serial_controller", demoSerialController), (.str "config", demoSettings 1024),
    (.str "type_mappings", demoTypeMappings []),
    (.str "messages", .list [demoMessage "reliable_ack" 1 "tx" [(.str "reliable", .bool true)]
      "sub_topic" "demo/command" "std_msgs/msg/UInt32" "u32"])]

/-- `protocol.h` declares `send_reliable_ack`, and so does `protocol.c`, with another type. -/
theorem not_identifiersDistinct_reliableAck : ∃ configData header source,
    validateProtocol reliableAckConfig = .ok configData ∧
      mcuFiles (fun _ => 0xDC27492C) configData = .ok (header, source) ∧
      "send_reliable_ack" ∈ identifiers header ∧ "send_reliable_ack" ∈ identifiers source ∧
      ¬ IdentifiersDistinct header source := by
  have hfiles : ((validateProtocol reliableAckConfig >>= mcuFiles fun _ => 0xDC27492C).toOption.any
      fun files => (identifiers files.1).contains "send_reliable_ack" &&
        (identifiers files.2).contains "send_reliable_ack") = true := by
    decide +kernel
  obtain ⟨⟨header, source⟩, h, hboth⟩ := exists_of_toOption_any hfiles
  obtain ⟨configData, hconfig, hfiles⟩ := bind_eq_ok.mp h
  simp only [Bool.and_eq_true, List.contains_iff_mem] at hboth
  refine ⟨configData, header, source, hconfig, hfiles, hboth.1, hboth.2, fun hdistinct => ?_⟩
  exact (List.nodup_append'.mp hdistinct.identifiers).2.2 hboth.1 hboth.2

end AutoSerialBridge
