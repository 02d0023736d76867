import AutoSerialBridge.Codegen.Identifiers
import AutoSerialBridge.Codegen.Markers
import Mathlib

/-!
# Auto Serial Bridge — regeneration of protocol.h and protocol.c

The lines of both files, block by block: names are identifiers, the types of a business message are
supported C types, and the numbers are numbers, so that none of them brings a marker. The structs of the
three system messages take what `type_mappings` has for `uint8_t` and `uint32_t`, which nothing checks.

## Results

* `unmarked_mcuSourceLines`: no line of `protocol.c` has a marker.
* `headerLayout_mcuHeaderLines`: in `protocol.h` only the system structs can have one.
* `mcuFiles_regenerates_iff`: **regeneration keeps the USER CODE blocks of both files exactly if the
  markers in the system structs are closed there and of the right keys**.
-/

namespace AutoSerialBridge

open Lib

-- ---------------------------------------------------------------------------
-- Words
-- ---------------------------------------------------------------------------

/-- A text of word characters. -/
def Wordy (s : String) : Prop := ∀ c ∈ s.toList, isWordChar c = true

section Words

variable {s t : String} {c : Char}

theorem Wordy.not_mem (h : Wordy s) (hc : isWordChar c = false) : c ∉ s.toList := by
  intro hmem
  rw [h c hmem] at hc
  cases hc

theorem not_mem_append (hs : c ∉ s.toList) (ht : c ∉ t.toList) : c ∉ (s ++ t).toList := by
  rw [String.toList_append, List.mem_append, not_or]
  exact ⟨hs, ht⟩

theorem not_mem_of_ofList {l : List Char} (h : s = String.ofList l) (hl : c ∉ l) : c ∉ s.toList := by
  rw [toList_eq_of_ofList h]
  exact hl

theorem wordy_append (hs : Wordy s) (ht : Wordy t) : Wordy (s ++ t) := by
  intro c hc
  rw [String.toList_append, List.mem_append] at hc
  exact hc.elim (hs c) (ht c)

theorem wordy_of_isIdentifier (h : isIdentifier s.toList = true) : Wordy s := by
  intro c hc
  cases hs : s.toList with
  | nil =>
    rw [hs] at hc
    cases hc
  | cons d rest =>
    rw [hs] at h hc
    unfold isIdentifier at h
    simp only [Bool.and_eq_true, Bool.or_eq_true, decide_eq_true_eq, List.all_eq_true] at h
    rcases List.mem_cons.mp hc with rfl | hc
    · unfold isWordChar Char.isAlphanum
      simp only [Bool.or_eq_true, decide_eq_true_eq]
      exact h.1.imp_left .inl
    · exact h.2 c hc

theorem isKey_of_wordy (h : Wordy s) (hne : s ≠ "") : IsKey s.toList :=
  ⟨fun hnil => hne (String.toList_eq_nil_iff.mp hnil), h⟩

theorem wordy_toString_nat (n : Nat) : Wordy (toString n) := by
  intro c hc
  have hdigit : c.isDigit = true := by
    refine Nat.isDigit_of_mem_toDigits (b := 10) (n := n) (by decide) (by decide) ?_
    simpa [Nat.toString_eq_repr, Nat.repr_eq_ofList_toDigits] using hc
  unfold isWordChar Char.isAlphanum
  rw [hdigit]
  simp

theorem wordy_toString_int {n : Int} (h : 0 ≤ n) : Wordy (toString n) := by
  obtain ⟨k, rfl⟩ := Int.eq_ofNat_of_zero_le h
  exact wordy_toString_nat k

theorem wordy_pyUpper (h : Wordy s) : Wordy (pyUpper s) := by
  intro c hc
  unfold pyUpper at hc
  rw [String.toList_ofList] at hc
  obtain ⟨d, hd, rfl⟩ := List.mem_map.mp hc
  have hword := h d hd
  split_ifs with hS hI
  · decide
  · decide
  · have hall : ∀ n < 128, isWordChar (Char.ofNat n) = true →
        isWordChar (Char.ofNat n).toUpper = true := by
      decide +kernel
    have hupper := hall d.toNat (isWordChar_ascii hword)
    rw [Char.ofNat_toNat] at hupper
    exact hupper hword

theorem wordy_upperHex (width n : Nat) : Wordy (upperHex width n) := by
  induction width generalizing n with
  | zero => exact fun c hc => absurd hc (by simp [upperHex])
  | succ width ih =>
    have hdigit : ∀ k < 16, isWordChar ("0123456789ABCDEF".toList.getD k '0') = true := by
      decide +kernel
    refine wordy_append (ih _) fun c hc => ?_
    rw [String.toList_singleton, List.mem_singleton] at hc
    rw [hc]
    exact hdigit _ (Nat.mod_lt _ (by decide))

theorem wordy_bit (v : Yaml) : Wordy (bit v) := by
  unfold bit Wordy
  split_ifs <;> decide

end Words

-- ---------------------------------------------------------------------------
-- Lines without markers
-- ---------------------------------------------------------------------------

section Lines

variable {s : String} {c : Char}

theorem unmarked_code {parts : List Part} (hc : c ∈ ['/', '*', ' '])
    (h : ∀ part ∈ parts, c ∉ part.render) : (Line.code parts).Unmarked := by
  intro hin
  obtain ⟨part, hpart, hmem⟩ := List.mem_flatMap.mp (hin.subset hc)
  exact h part hpart hmem

theorem unmarked_plain (hc : c ∈ ['/', '*', ' ']) (h : c ∉ s.toList) : (plain s).Unmarked :=
  unmarked_code hc fun part hpart => by rwa [List.mem_singleton.mp hpart]

/-- A constant line is looked at character by character. -/
theorem unmarked_cons {l : List Char} {lines : List Line} (h : s = String.ofList l)
    (hl : Unmarked l) (hlines : ∀ line ∈ lines, line.Unmarked) :
    ∀ line ∈ plain s :: lines, line.Unmarked := by
  rw [List.forall_mem_cons]
  refine ⟨?_, hlines⟩
  have hs : Unmarked ([Part.text s].flatMap Part.render) := by
    rw [List.flatMap_singleton, Part.render, toList_eq_of_ofList h]
    exact hl
  exact hs

theorem unmarked_block {key : String} {l : List Char} {lines : List Line} (h : key = String.ofList l)
    (hl : l ≠ [] ∧ ∀ c ∈ l, isWordChar c = true) (hlines : ∀ line ∈ lines, line.Unmarked) :
    ∀ line ∈ Line.block key :: lines, line.Unmarked := by
  rw [List.forall_mem_cons]
  refine ⟨?_, hlines⟩
  have hkey : IsKey key.toList := by
    rw [toList_eq_of_ofList h]
    exact hl
  exact hkey

/-- A line with a declaration. -/
theorem unmarked_declared {s identifier t : String} (hs : '/' ∉ s.toList)
    (hidentifier : '/' ∉ identifier.toList) (ht : '/' ∉ t.toList) :
    (Line.code [.text s, .declared identifier, .text t]).Unmarked := by
  refine unmarked_code (c := '/') (by decide) ?_
  simp only [List.forall_mem_cons, Part.render]
  exact ⟨hs, hidentifier, ht, nofun⟩

/-- A constant line with a declaration. -/
theorem unmarked_declared_cons {s identifier t : String} {l l' l'' : List Char} {lines : List Line}
    (hs : s = String.ofList l) (hl : '/' ∉ l) (hidentifier : identifier = String.ofList l')
    (hl' : '/' ∉ l') (ht : t = String.ofList l'') (hl'' : '/' ∉ l'')
    (hlines : ∀ line ∈ lines, line.Unmarked) :
    ∀ line ∈ Line.code [.text s, .declared identifier, .text t] :: lines, line.Unmarked :=
  List.forall_mem_cons.mpr ⟨unmarked_declared (not_mem_of_ofList hs hl)
    (not_mem_of_ofList hidentifier hl') (not_mem_of_ofList ht hl''), hlines⟩

theorem unmarked_append {lines lines' : List Line} (h : ∀ line ∈ lines, line.Unmarked)
    (h' : ∀ line ∈ lines', line.Unmarked) : ∀ line ∈ lines ++ lines', line.Unmarked :=
  List.forall_mem_append.mpr ⟨h, h'⟩

/-- Blocks of lines, one for each element. -/
theorem unmarked_flatten {α : Type} {xs : List α} {blocks : List (List Line)} {g : α → Check (List Line)}
    (h : xs.mapM g = .ok blocks) (hg : ∀ x ∈ xs, ∀ lines, g x = .ok lines →
      ∀ line ∈ lines, line.Unmarked) : ∀ line ∈ blocks.flatten, line.Unmarked := by
  intro line hline
  obtain ⟨lines, hlines, hmem⟩ := List.mem_flatten.mp hline
  obtain ⟨x, hx, hok⟩ := exists_left_of_forall₂ (mapM_eq_ok.mp h) hlines
  exact hg x hx lines hok line hmem

end Lines

/-- A message with an identifier for a name. -/
structure NameShown (m : Yaml) (e : String × Int) : Prop where
  listed : Listed m e
  wordy : Wordy e.1
  id_nonneg : 0 ≤ e.2

section Message

variable {m : Yaml} {e : String × Int} {lines : List Line}

theorem wordy_packetIdOf {name : String} (h : Wordy name) : Wordy (packetIdOf name) :=
  wordy_append (by unfold Wordy; decide) (wordy_pyUpper h)

theorem NameShown.enumeratorLine_unmarked {line : Line} (h : NameShown m e)
    (hline : enumeratorLine m = .ok line) : line.Unmarked := by
  unfold enumeratorLine at hline
  rw [h.listed.packetIdName] at hline
  obtain ⟨name, hname, hline⟩ := bind_eq_ok.mp hline
  obtain ⟨shown, hshown, hline⟩ := bind_eq_ok.mp hline
  obtain ⟨id, hid, hshown⟩ := bind_eq_ok.mp hshown
  obtain rfl := Except.ok.inj ((Yaml.messageId?_eq_some.mp h.listed.2).symm.trans hid)
  obtain ⟨-, rfl⟩ := strOf_eq_ok.mp hshown
  rw [← pure_eq_ok.mp hline, ← Except.ok.inj hname]
  have hid : Wordy (pyStr (.int e.2)) := wordy_toString_int h.id_nonneg
  refine unmarked_code (c := '/') (by decide) ?_
  simp only [List.forall_mem_cons, Part.render, List.mem_append, not_or]
  refine ⟨not_mem_of_ofList rfl (by decide), ⟨⟨(wordy_packetIdOf h.wordy).not_mem rfl, ?_⟩,
    hid.not_mem rfl⟩, not_mem_of_ofList rfl (by decide), nofun⟩
  exact not_mem_of_ofList rfl (by decide)

theorem NameShown.declarationLines_unmarked (h : NameShown m e)
    (hlines : declarationLines m = .ok lines) : ∀ line ∈ lines, line.Unmarked := by
  unfold declarationLines at hlines
  rw [h.listed.shownName] at hlines
  rw [← pure_eq_ok.mp hlines]
  have hname : '/' ∉ e.1.toList := h.wordy.not_mem rfl
  simp only [List.forall_mem_cons]
  refine ⟨?_, ?_, nofun⟩
  all_goals
    refine unmarked_declared (not_mem_of_ofList rfl (by decide)) (not_mem_append ?_ hname)
      (not_mem_append (not_mem_append ?_ hname) ?_)
    all_goals exact not_mem_of_ofList rfl (by decide)

theorem NameShown.hookLines_unmarked (h : NameShown m e)
    (hlines : hookLines m = .ok lines) : ∀ line ∈ lines, line.Unmarked := by
  unfold hookLines at hlines
  rw [h.listed.shownName] at hlines
  rw [← pure_eq_ok.mp hlines]
  have hname : '/' ∉ e.1.toList := h.wordy.not_mem rfl
  simp only [List.forall_mem_cons]
  refine ⟨unmarked_plain (c := '/') (by decide) ?_, unmarked_plain (c := '/') (by decide) ?_, ?_,
    unmarked_plain (c := '/') (by decide) ?_, nofun⟩
  · refine not_mem_append (not_mem_append (not_mem_append (not_mem_append ?_ hname) ?_) hname) ?_
    all_goals exact not_mem_of_ofList rfl (by decide)
  · exact not_mem_of_ofList rfl (by decide)
  · exact isKey_of_wordy (wordy_append (by unfold Wordy; decide) h.wordy) (by simp)
  · exact not_mem_of_ofList rfl (by decide)

/-- Lines without a `/`. -/
def Slashless (texts : List String) : Prop := ∀ s ∈ texts, '/' ∉ s.toList

theorem unmarked_of_slashless {texts : List String} (h : Slashless texts) :
    ∀ line ∈ texts.map plain, line.Unmarked := by
  intro line hline
  obtain ⟨s, hs, rfl⟩ := List.mem_map.mp hline
  exact unmarked_plain (by decide) (h s hs)

theorem slashless_text {s : String} {l : List Char} {texts : List String} (hs : s = String.ofList l)
    (hl : '/' ∉ l) (htexts : Slashless texts) : Slashless (s :: texts) :=
  List.forall_mem_cons.mpr ⟨not_mem_of_ofList hs hl, htexts⟩

/-- A line with a name in it. -/
theorem slashless_name {s name t : String} {l l' : List Char} {texts : List String}
    (hs : s = String.ofList l) (hl : '/' ∉ l) (hname : '/' ∉ name.toList) (ht : t = String.ofList l')
    (hl' : '/' ∉ l') (htexts : Slashless texts) : Slashless ((s ++ name ++ t) :: texts) :=
  List.forall_mem_cons.mpr
    ⟨not_mem_append (not_mem_append (not_mem_of_ofList hs hl) hname) (not_mem_of_ofList ht hl'), htexts⟩

/-- A line with the name twice. -/
theorem slashless_names {s name t u : String} {l l' l'' : List Char} {texts : List String}
    (hs : s = String.ofList l) (hl : '/' ∉ l) (hname : '/' ∉ name.toList) (ht : t = String.ofList l')
    (hl' : '/' ∉ l') (hu : u = String.ofList l'') (hl'' : '/' ∉ l'') (htexts : Slashless texts) :
    Slashless ((s ++ name ++ t ++ name ++ u) :: texts) := by
  have hfirst : '/' ∉ (s ++ name ++ t).toList :=
    not_mem_append (not_mem_append (not_mem_of_ofList hs hl) hname) (not_mem_of_ofList ht hl')
  exact List.forall_mem_cons.mpr
    ⟨not_mem_append (not_mem_append hfirst hname) (not_mem_of_ofList hu hl''), htexts⟩

theorem NameShown.sendLines_unmarked (h : NameShown m e)
    (hlines : sendLines m = .ok lines) : ∀ line ∈ lines, line.Unmarked := by
  unfold sendLines at hlines
  rw [h.listed.packetIdName, h.listed.shownName] at hlines
  rw [← pure_eq_ok.mp hlines]
  have hname : '/' ∉ e.1.toList := h.wordy.not_mem rfl
  have hpacketId : '/' ∉ (packetIdOf e.1).toList := (wordy_packetIdOf h.wordy).not_mem rfl
  refine unmarked_of_slashless ?_
  refine slashless_names rfl (by decide) hname rfl (by decide) rfl (by decide) ?_
  refine slashless_name rfl (by decide) hname rfl (by decide) ?_
  iterate 4 refine slashless_text rfl (by decide) ?_
  refine slashless_name rfl (by decide) hpacketId rfl (by decide) ?_
  refine slashless_name rfl (by decide) hname rfl (by decide) ?_
  refine slashless_text rfl (by decide) ?_
  refine slashless_name rfl (by decide) hname rfl (by decide) ?_
  refine slashless_name rfl (by decide) hname rfl (by decide) ?_
  iterate 6 refine slashless_text rfl (by decide) ?_
  exact nofun

theorem NameShown.caseLines_unmarked {requireHandshake : Bool} (h : NameShown m e)
    (hlines : caseLines requireHandshake m = .ok lines) : ∀ line ∈ lines, line.Unmarked := by
  unfold caseLines at hlines
  rw [h.listed.packetIdName, h.listed.shownName] at hlines
  obtain ⟨packetId, hpacketId, hlines⟩ := bind_eq_ok.mp hlines
  obtain ⟨reliable, -, hlines⟩ := bind_eq_ok.mp hlines
  obtain ⟨shown, hshown, hlines⟩ := bind_eq_ok.mp hlines
  obtain rfl := Except.ok.inj hpacketId
  obtain rfl := Except.ok.inj hshown
  rw [← pure_eq_ok.mp hlines]
  have hname : '/' ∉ e.1.toList := h.wordy.not_mem rfl
  have hpacketId : '/' ∉ (packetIdOf e.1).toList := (wordy_packetIdOf h.wordy).not_mem rfl
  refine unmarked_append (List.forall_mem_cons.mpr ⟨?_, ?_⟩) ?_
  · refine unmarked_code (c := '/') (by decide) ?_
    simp only [List.forall_mem_cons, Part.render]
    refine ⟨not_mem_of_ofList rfl (by decide), hpacketId, not_mem_of_ofList rfl (by decide), nofun⟩
  · by_cases hreliable : reliable = true
    · rw [if_pos hreliable]
      refine unmarked_of_slashless ?_
      refine slashless_name rfl (by decide) hname rfl (by decide) ?_
      refine slashless_names rfl (by decide) hname rfl (by decide) rfl (by decide) ?_
      refine slashless_name rfl (by decide) hname rfl (by decide) ?_
      refine slashless_name rfl (by decide) hpacketId rfl (by decide) ?_
      exact slashless_text rfl (by decide) nofun
    · rw [if_neg hreliable, List.map_append, List.map_append, List.map_append]
      refine unmarked_append (unmarked_append (unmarked_append ?_ ?_) ?_) ?_
      · exact unmarked_of_slashless (slashless_name rfl (by decide) hname rfl (by decide) nofun)
      · split_ifs
        · iterate 2 refine unmarked_cons rfl (by decide +kernel) ?_
          exact nofun
        · exact nofun
      · split_ifs
        · iterate 6 refine unmarked_cons rfl (by decide +kernel) ?_
          exact nofun
        · exact nofun
      · refine unmarked_of_slashless ?_
        refine slashless_names rfl (by decide) hname rfl (by decide) rfl (by decide) ?_
        exact slashless_text rfl (by decide) nofun
  · rw [List.forall_mem_singleton]
    exact unmarked_plain (c := '/') (by decide) (not_mem_of_ofList rfl (by decide))

/-- A field with an identifier for a name, and a C type of word characters. -/
structure FieldShown (tm : PyDict) (field : Yaml) : Prop where
  cType : ∃ s, fieldCType tm field = .ok (.str s) ∧ Wordy s
  proto : ∃ s, (pyIndex field "proto" : Check Yaml) = .ok (.str s) ∧ Wordy s

theorem NameShown.structLines_unmarked {tm : PyDict} (h : NameShown m e)
    (hfields : ∀ items, fieldsOf m = .ok items → ∀ field ∈ items, FieldShown tm field)
    (hlines : structLines tm m = .ok lines) : ∀ line ∈ lines, line.Unmarked := by
  unfold structLines at hlines
  obtain ⟨items, hitems, hlines⟩ := bind_eq_ok.mp hlines
  obtain ⟨members, hmembers, hlines⟩ := bind_eq_ok.mp hlines
  rw [h.listed.shownName] at hlines
  have hname : '/' ∉ e.1.toList := h.wordy.not_mem rfl
  have hall : ∀ line ∈ members, line.Unmarked := by
    intro line hline
    obtain ⟨field, hfield, hok⟩ := exists_left_of_forall₂ (mapM_eq_ok.mp hmembers) hline
    obtain ⟨⟨type, htype, htypeWordy⟩, name, hproto, hnameWordy⟩ := hfields items hitems field hfield
    obtain ⟨ftype, hftype, hok⟩ := bind_eq_ok.mp hok
    obtain ⟨cType, hcType, hok⟩ := bind_eq_ok.mp hok
    obtain rfl : cType = .str type := by
      unfold fieldCType at htype
      rw [hftype] at htype
      exact Except.ok.inj (hcType.symm.trans htype)
    obtain ⟨shown, hshown, hok⟩ := bind_eq_ok.mp hok
    obtain ⟨-, rfl⟩ := strOf_eq_ok.mp hshown
    rw [shownIndex_str hproto] at hok
    rw [← pure_eq_ok.mp hok]
    refine unmarked_plain (c := '/') (by decide) (not_mem_append (not_mem_append (not_mem_append
      (not_mem_append ?_ (htypeWordy.not_mem rfl)) ?_) (hnameWordy.not_mem rfl)) ?_)
    all_goals exact not_mem_of_ofList rfl (by decide)
  rw [← pure_eq_ok.mp hlines]
  refine unmarked_append (List.forall_mem_cons.mpr ⟨?_, hall⟩) ?_
  · exact unmarked_plain (c := '/') (by decide) (not_mem_of_ofList rfl (by decide))
  · simp only [List.forall_mem_cons]
    refine ⟨unmarked_declared (not_mem_of_ofList rfl (by decide)) (not_mem_append ?_ hname)
      (not_mem_of_ofList rfl (by decide)), unmarked_plain (c := '/') (by decide) ?_, nofun⟩
    · exact not_mem_of_ofList rfl (by decide)
    · exact not_mem_of_ofList rfl (by decide)

end Message

-- ---------------------------------------------------------------------------
-- Accepted messages
-- ---------------------------------------------------------------------------

section Shown

variable {tm msg msg₀ f : PyDict} {label : Yaml} {seen : Seen}

theorem checkName_identifier {names : List String} {symbols : List (String × String)} {s : String}
    (h : (checkName msg names symbols).2.2 = []) (hs : dictLookup msg (.str "name") = some (.str s)) :
    isIdentifier s.toList = true := by
  unfold checkName at h
  rw [dictGet_eq hs] at h
  by_contra hne
  rw [Bool.not_eq_true] at hne
  simp [hne] at h

theorem checkFieldName_identifier {seen : List String} (h : (checkFieldName label f seen).2 = []) :
    ∃ s, dictLookup f (.str "proto") = some (.str s) ∧ isIdentifier s.toList = true := by
  obtain ⟨s, hs⟩ := checkFieldName_formed h
  refine ⟨s, hs, ?_⟩
  unfold checkFieldName at h
  rw [dictGet_eq hs] at h
  by_contra hne
  rw [Bool.not_eq_true] at hne
  simp [hne] at h

/-- The supported C types are words. -/
theorem wordy_of_supported {name : String} (h : (cTypeSizes.lookup name).isSome = true) :
    Wordy name := by
  have hall : ∀ e ∈ cTypeSizes, ∀ c ∈ e.1.toList, isWordChar c = true := by
    decide +kernel
  obtain ⟨size, hsize⟩ := Option.isSome_iff_exists.mp h
  obtain ⟨l₁, l₂, heq, -⟩ := List.lookup_eq_some_iff.mp hsize
  exact hall (name, size) (by rw [heq]; simp)

/-- A message without errors shows words. -/
theorem MessageClean.shown (h : MessageClean tm seen label msg₀ msg) :
    (∀ s, dictLookup msg (.str "name") = some (.str s) → Wordy s) ∧
      ∀ items, fieldsOf (.map msg) = .ok items → ∀ field ∈ items, FieldShown tm field := by
  refine ⟨fun s hs => wordy_of_isIdentifier (checkName_identifier h.name hs), ?_⟩
  intro items hitems field hfield
  obtain ⟨fields, hfields, -, hlist, -⟩ := checkFields_clean (h.has "fields" (by simp)) h.fields
  obtain ⟨⟨fields', hfields', -, haccepted⟩, -⟩ :=
    checkFields_accepted (h.has "fields" (by simp)) h.fields
  obtain rfl := Yaml.list.inj (Option.some.inj (hfields.symm.trans hfields'))
  obtain rfl : fields = items := by
    unfold fieldsOf at hitems
    rw [pyIndex_eq_ok.mpr ⟨msg, rfl, hfields⟩] at hitems
    exact Except.ok.inj hitems
  obtain ⟨f, seen', rfl, hname, -⟩ := checkFieldList_clean hlist field hfield
  obtain ⟨f', ftype, type, hf, htype, hresolve, hsupported⟩ := haccepted _ hfield
  obtain rfl := Yaml.map.inj hf
  obtain ⟨s, hs, hidentifier⟩ := checkFieldName_identifier hname
  refine ⟨⟨type, ?_, wordy_of_supported hsupported⟩, s, pyIndex_eq_ok.mpr ⟨f, rfl, hs⟩,
    wordy_of_isIdentifier hidentifier⟩
  unfold fieldCType
  rw [pyIndex_eq_ok.mpr ⟨f, rfl, htype⟩]
  exact hresolve

/-- Every accepted message shows words. -/
theorem checkMessages_shown {index : Nat} {ms ms' : List Yaml}
    (h : checkMessages tm seen index ms = .ok (ms', [])) :
    ∀ m ∈ ms', (∀ s, m.messageName? = some s → Wordy s) ∧
      ∀ items, fieldsOf m = .ok items → ∀ field ∈ items, FieldShown tm field := by
  have hall : List.Forall₂ (fun _ m' => (∀ s, m'.messageName? = some s → Wordy s) ∧
      ∀ items, fieldsOf m' = .ok items → ∀ field ∈ items, FieldShown tm field) ms ms' := by
    refine checkMessages_forall₂ (fun hm hes => ?_) h
    rw [hes rfl] at hm
    obtain ⟨label, msg₀, msg, -, rfl, hclean, -⟩ := checkMessage_clean hm
    obtain ⟨hname, hfields⟩ := hclean.shown
    refine ⟨fun s hs => hname s ?_, hfields⟩
    obtain ⟨d, hd, hlookup⟩ := pyIndex_eq_ok.mp (Yaml.messageName?_eq_some.mp hs)
    rwa [Yaml.map.inj hd]
  intro m hm
  obtain ⟨-, -, hshown⟩ := exists_left_of_forall₂ hall hm
  exact hshown

end Shown

section Merged

variable {root cfg tm : PyDict} {messages merged : List Yaml}

/-- **The merged messages end with the system messages.** -/
theorem ConfigAccepted.merged_eq (hacc : ConfigAccepted root cfg tm messages)
    (hmerged : (sortedById (messages ++ systemMessages) : Check (List Yaml)) = .ok merged) :
    ∃ business : List Yaml, business.Perm messages ∧ merged = business ++ systemMessages := by
  obtain ⟨hperm, hsorted, hkeys⟩ := sortedById_spec hmerged
  obtain ⟨business, hbusiness⟩ := returns_sortedById.mpr fun m hm =>
    hkeys m (List.mem_append_left systemMessages hm)
  obtain ⟨hpermBusiness, hsortedBusiness, -⟩ := sortedById_spec hbusiness
  refine ⟨business, hpermBusiness, ?_⟩
  have hpermAll : (business ++ systemMessages).Perm (messages ++ systemMessages) :=
    hpermBusiness.append_right _
  refine List.Perm.eq_of_pairwise (fun m m' hm hm' => hacc.eq_of_idLe (hperm.mem_iff.mp hm)
    (hpermAll.mem_iff.mp hm')) hsorted (List.pairwise_append.mpr ⟨hsortedBusiness, ?_, ?_⟩)
    (hperm.trans hpermAll.symm)
  · simp only [systemMessages, List.pairwise_cons, List.forall_mem_cons, List.not_mem_nil,
      IsEmpty.forall_iff, implies_true, and_true, List.Pairwise.nil]
    exact ⟨⟨⟨0xFD, 0xFE, rfl, rfl, by decide⟩, 0xFD, 0xFF, rfl, rfl, by decide⟩,
      0xFE, 0xFF, rfl, rfl, by decide⟩
  · have hsystem : ∀ m ∈ systemMessages, ∃ q : ℚ, (sortKey m : Check ℚ) = .ok q ∧ 0xFD ≤ q := by
      simp only [systemMessages, List.forall_mem_cons]
      exact ⟨⟨0xFD, rfl, le_rfl⟩, ⟨0xFE, rfl, by decide⟩, ⟨0xFF, rfl, by decide⟩, List.forall_mem_nil _⟩
    intro m hm m' hm'
    obtain ⟨q', hq', hle⟩ := hsystem m' hm'
    have hmem : m ∈ messages := hpermBusiness.mem_iff.mp hm
    obtain ⟨q, hq⟩ := hkeys m (List.mem_append_left systemMessages hmem)
    refine ⟨q, q', hq, hq', le_trans ?_ hle⟩
    obtain ⟨n, hn, rfl⟩ := hacc.messageId_of_sortKey (List.mem_append_left systemMessages hmem) hq
    obtain ⟨msg, rfl, hmsg⟩ := hacc.message m hmem
    rcases hmsg.id with hnull | ⟨k, -, hlt, hk⟩
    · simp [Yaml.messageId?, dictGet_eq hnull] at hn
    · obtain rfl : k = n := by simpa [Yaml.messageId?, dictGet_eq hk] using hn
      have hlt : (k : ℚ) < 0xFD := by exact_mod_cast hlt
      exact hlt.le

/-- Every merged message shows its name and its id. -/
theorem ConfigAccepted.nameShown (hacc : ConfigAccepted root cfg tm messages)
    (hwordy : ∀ m ∈ messages, ∀ s, m.messageName? = some s → Wordy s) {m : Yaml} {e : String × Int}
    (hm : m ∈ messages ++ systemMessages) (h : Listed m e) : NameShown m e := by
  rcases List.mem_append.mp hm with hm | hm
  · refine ⟨h, hwordy m hm _ h.1, ?_⟩
    obtain ⟨msg, rfl, hmsg⟩ := hacc.message m hm
    rcases hmsg.id with hnull | ⟨n, h0, -, hn⟩
    · have hid := h.2
      simp [Yaml.messageId?, dictGet_eq hnull] at hid
    · have hid := h.2
      rw [Yaml.messageId?, dictGet_eq hn, Yaml.asInt?, Option.some.injEq] at hid
      exact hid ▸ h0
  · have hall : ∀ m ∈ systemMessages, (∀ s, m.messageName? = some s → Wordy s) ∧
        ∀ n, m.messageId? = some n → 0 ≤ n := by
      have hnames : ∀ s ∈ systemMessageNames, Wordy s := by
        unfold Wordy
        decide +kernel
      simp only [systemMessageNames, systemMessages, List.forall_mem_cons] at hnames ⊢
      refine ⟨⟨?_, ?_⟩, ⟨?_, ?_⟩, ⟨?_, ?_⟩, List.forall_mem_nil _⟩
      · rintro _ ⟨⟩
        exact hnames.1
      · rintro _ ⟨⟩
        decide
      · rintro _ ⟨⟩
        exact hnames.2.1
      · rintro _ ⟨⟩
        decide
      · rintro _ ⟨⟩
        exact hnames.2.2.1
      · rintro _ ⟨⟩
        decide
    exact ⟨h, (hall m hm).1 _ h.1, (hall m hm).2 _ h.2⟩

end Merged

-- ---------------------------------------------------------------------------
-- protocol.c
-- ---------------------------------------------------------------------------

section Source

variable {config : Yaml} {ms : List Yaml} {tm : PyDict} {lines : List Line}

theorem unmarked_stateLines (maxStructPayload maxWirePayload : Nat) :
    ∀ line ∈ stateLines maxStructPayload maxWirePayload, line.Unmarked := by
  have hstruct : '*' ∉ (toString maxStructPayload).toList := (wordy_toString_nat _).not_mem rfl
  have hwire : '*' ∉ (toString maxWirePayload).toList := (wordy_toString_nat _).not_mem rfl
  have hsize : '/' ∉ (toString maxWirePayload).toList := (wordy_toString_nat _).not_mem rfl
  have hstatic : ∀ {type identifier rest : String}, '/' ∉ type.toList → '/' ∉ identifier.toList →
      '/' ∉ rest.toList →
      (Line.code [.text ("static " ++ type ++ " "), .declared identifier, .text rest]).Unmarked := by
    intro type identifier rest htype hidentifier hrest
    refine unmarked_declared (not_mem_append (not_mem_append ?_ htype) ?_) hidentifier hrest
    all_goals exact not_mem_of_ofList rfl (by decide)
  unfold stateLines
  iterate 3 refine unmarked_cons rfl (by decide) ?_
  iterate 5 refine unmarked_declared_cons rfl (by decide) rfl (by decide) rfl (by decide) ?_
  refine List.forall_mem_cons.mpr ⟨unmarked_code (c := '/') (by decide) ?_, ?_⟩
  · simp only [List.forall_mem_cons, Part.render]
    exact ⟨not_mem_of_ofList rfl (by decide), not_mem_of_ofList rfl (by decide), nofun⟩
  refine unmarked_declared_cons rfl (by decide) rfl (by decide) rfl (by decide) ?_
  refine unmarked_cons rfl (by decide) ?_
  refine List.forall_mem_cons.mpr ⟨unmarked_plain (c := '*') (by decide) ?_, ?_⟩
  · refine not_mem_append (not_mem_append (not_mem_append (not_mem_append ?_ hstruct) ?_) hwire) ?_
    all_goals exact not_mem_of_ofList rfl (by decide)
  simp only [List.forall_mem_cons]
  refine ⟨hstatic ?_ ?_ ?_, hstatic ?_ ?_ (not_mem_append (not_mem_append ?_ hsize) ?_),
    hstatic ?_ ?_ ?_, hstatic ?_ ?_ ?_, hstatic ?_ ?_ ?_, hstatic ?_ ?_ ?_, ?_, nofun⟩
  rotate_right
  · exact unmarked_plain (c := '/') (by decide) (not_mem_of_ofList rfl (by decide))
  all_goals exact not_mem_of_ofList rfl (by decide)

theorem not_mem_intercalate {c : Char} {sep : String} {texts : List String} (hsep : c ∉ sep.toList)
    (htexts : ∀ s ∈ texts, c ∉ s.toList) : c ∉ (sep.intercalate texts).toList := by
  induction texts with
  | nil => simp
  | cons s texts ih =>
    obtain ⟨hs, hrest⟩ := List.forall_mem_cons.mp htexts
    cases texts with
    | nil => simpa using hs
    | cons t texts =>
      rw [String.intercalate_cons_cons]
      exact not_mem_append (not_mem_append hs hsep) (ih hrest)

theorem unmarked_crc8TableLines : ∀ line ∈ crc8TableLines, line.Unmarked := by
  intro line hline
  obtain ⟨row, -, rfl⟩ := List.mem_map.mp hline
  refine unmarked_plain (c := '/') (by decide)
    (not_mem_append (not_mem_append (not_mem_of_ofList rfl (by decide)) ?_)
      (not_mem_of_ofList rfl (by decide)))
  refine not_mem_intercalate (not_mem_of_ofList rfl (by decide)) fun s hs => ?_
  obtain ⟨value, -, rfl⟩ := List.mem_map.mp hs
  exact not_mem_append (not_mem_of_ofList rfl (by decide)) ((wordy_upperHex 2 value).not_mem rfl)

theorem unmarked_checksumLines (checksumAlgo : String) :
    ∀ line ∈ checksumLines checksumAlgo, line.Unmarked := by
  have hupdate : ∀ line ∈ [Line.code [.text "static uint8_t ", .declared "checksum_update",
      .text "(uint8_t current, uint8_t byte) \x7b"]], line.Unmarked :=
    unmarked_declared_cons rfl (by decide) rfl (by decide) rfl (by decide) nofun
  have hend : ∀ line ∈ [plain "\x7d"], line.Unmarked := unmarked_cons rfl (by decide) nofun
  have hbody : ∀ {body : List Line}, (∀ line ∈ body, line.Unmarked) →
      ∀ line ∈ Line.code [.text "static uint8_t ", .declared "checksum_update",
        .text "(uint8_t current, uint8_t byte) \x7b"] :: body ++ [plain "\x7d"], line.Unmarked :=
    fun h => unmarked_append (unmarked_append hupdate h) hend
  unfold checksumLines
  dsimp only
  split_ifs
  · refine unmarked_append (unmarked_append (unmarked_append ?_ unmarked_crc8TableLines) ?_) (hbody ?_)
    · refine unmarked_cons rfl (by decide) ?_
      exact unmarked_declared_cons rfl (by decide) rfl (by decide) rfl (by decide) nofun
    · iterate 3 refine unmarked_cons rfl (by decide) ?_
      exact nofun
    · exact unmarked_cons rfl (by decide) nofun
  · exact unmarked_cons rfl (by decide) (hbody (unmarked_cons rfl (by decide) nofun))
  · exact unmarked_cons rfl (by decide) (hbody (unmarked_cons rfl (by decide) nofun))
  · refine unmarked_cons rfl (by decide) (hbody ?_)
    exact unmarked_cons rfl (by decide) (unmarked_cons rfl (by decide) nofun)

theorem unmarked_calculateChecksumLines : ∀ line ∈ calculateChecksumLines, line.Unmarked := by
  unfold calculateChecksumLines
  simp only [List.map_cons, List.map_nil]
  iterate 8 refine unmarked_cons rfl (by decide) ?_
  exact nofun

theorem unmarked_reliableLines (hasReliable : Bool) :
    ∀ line ∈ reliableLines hasReliable, line.Unmarked := by
  unfold reliableLines
  split_ifs
  · iterate 2 refine unmarked_cons rfl (by decide) ?_
    refine unmarked_declared_cons rfl (by decide) rfl (by decide) rfl (by decide) ?_
    refine unmarked_cons rfl (by decide) ?_
    refine unmarked_declared_cons rfl (by decide) rfl (by decide) rfl (by decide) ?_
    iterate 6 refine unmarked_cons rfl (by decide) ?_
    exact nofun
  · exact nofun

theorem unmarked_fsmLines {crcCheckExpr : String} (h : '/' ∉ crcCheckExpr.toList) :
    ∀ line ∈ fsmLines crcCheckExpr, line.Unmarked := by
  unfold fsmLines
  simp only [List.map_cons, List.map_nil]
  iterate 50 refine unmarked_cons rfl (by decide +kernel) ?_
  refine List.forall_mem_cons.mpr ⟨unmarked_plain (c := '/') (by decide) ?_, ?_⟩
  · refine not_mem_append (not_mem_append ?_ h) ?_
    all_goals exact not_mem_of_ofList rfl (by decide)
  · iterate 2 refine unmarked_cons rfl (by decide) ?_
    exact nofun

theorem unmarked_fsmEndLines : ∀ line ∈ fsmEndLines, line.Unmarked := by
  unfold fsmEndLines
  simp only [List.map_cons, List.map_nil]
  iterate 13 refine unmarked_cons rfl (by decide) ?_
  exact nofun

theorem unmarked_mcuFileBanner : ∀ line ∈ mcuFileBanner, line.Unmarked := by
  unfold mcuFileBanner
  simp only [List.map_cons, List.map_nil]
  iterate 5 refine unmarked_cons rfl (by decide +kernel) ?_
  exact nofun

theorem unmarked_mcuSourceLines (hms : ∀ m ∈ ms, ∃ e, NameShown m e)
    (h : mcuSourceLines config ms tm = .ok lines) : ∀ line ∈ lines, line.Unmarked := by
  unfold mcuSourceLines at h
  obtain ⟨checksumAlgo, -, h⟩ := bind_eq_ok.mp h
  obtain ⟨requireHandshake, -, h⟩ := bind_eq_ok.mp h
  obtain ⟨structPayloads, -, h⟩ := bind_eq_ok.mp h
  obtain ⟨wirePayloads, -, h⟩ := bind_eq_ok.mp h
  obtain ⟨reliable, -, h⟩ := bind_eq_ok.mp h
  obtain ⟨hooks, hhooks, h⟩ := bind_eq_ok.mp h
  obtain ⟨cases, hcases, h⟩ := bind_eq_ok.mp h
  obtain ⟨sends, hsends, h⟩ := bind_eq_ok.mp h
  rw [← pure_eq_ok.mp h]
  have hhook : ∀ line ∈ hooks.flatten, line.Unmarked :=
    unmarked_flatten hhooks fun m hm lines hlines => (hms m hm).elim fun _ h => h.hookLines_unmarked hlines
  have hcase : ∀ line ∈ cases.flatten, line.Unmarked :=
    unmarked_flatten hcases fun m hm lines hlines => (hms m hm).elim fun _ h => h.caseLines_unmarked hlines
  have hsend : ∀ line ∈ sends.flatten, line.Unmarked :=
    unmarked_flatten hsends fun m hm lines hlines => (hms m hm).elim fun _ h => h.sendLines_unmarked hlines
  have hcheck : '/' ∉ (if checksumAlgo = "NONE" then "1" else "byte == rx_checksum").toList := by
    split_ifs
    · exact not_mem_of_ofList rfl (by decide)
    · exact not_mem_of_ofList rfl (by decide)
  simp only [List.forall_mem_append]
  refine ⟨⟨⟨⟨⟨⟨⟨⟨⟨⟨⟨⟨⟨⟨unmarked_mcuFileBanner, ?_⟩, unmarked_stateLines _ _⟩, unmarked_checksumLines _⟩,
    unmarked_calculateChecksumLines⟩, unmarked_reliableLines _⟩, ?_⟩, hhook⟩, ?_⟩,
    unmarked_fsmLines hcheck⟩, hcase⟩, unmarked_fsmEndLines⟩, ?_⟩, hsend⟩, ?_⟩
  · iterate 3 refine unmarked_cons rfl (by decide) ?_
    refine unmarked_block rfl (by decide) ?_
    exact unmarked_cons rfl (by decide) nofun
  · refine unmarked_cons rfl (by decide) (unmarked_block rfl (by decide) ?_)
    iterate 5 refine unmarked_cons rfl (by decide) ?_
    exact nofun
  · refine unmarked_cons rfl (by decide) (unmarked_block rfl (by decide) ?_)
    exact unmarked_cons rfl (by decide) nofun
  · iterate 6 refine unmarked_cons rfl (by decide +kernel) ?_
    refine unmarked_declared_cons rfl (by decide) rfl (by decide) rfl (by decide) ?_
    exact unmarked_cons rfl (by decide) nofun
  · refine unmarked_cons rfl (by decide) (unmarked_block rfl (by decide) ?_)
    iterate 4 refine unmarked_cons rfl (by decide) ?_
    exact nofun

end Source

-- ---------------------------------------------------------------------------
-- protocol.h
-- ---------------------------------------------------------------------------

/-- The C type of a field of a system message, as `protocol.h` shows it. -/
def systemTypeText (typeMappings : PyDict) (type : String) : String :=
  pyStr ((dictLookup typeMappings (.str type)).getD (.str type))

/-- The struct of a system message. -/
def systemStruct (typeMappings : PyDict) (name : String) (fields : List (String × String)) :
    List Line :=
  plain "typedef struct \x7b" :: fields.map (fun field =>
      plain ("    " ++ systemTypeText typeMappings field.2 ++ " " ++ field.1 ++ ";")) ++
    [.code [.text "\x7d ", .declared ("Packet_" ++ name), .text ";"], plain ""]

def systemStructs (typeMappings : PyDict) : List Line :=
  systemStruct typeMappings "Ack" [("acked_id", "uint8_t"), ("ack_seq", "uint8_t")] ++
    (systemStruct typeMappings "Heartbeat" [("count", "uint32_t")] ++
      systemStruct typeMappings "Handshake" [("protocol_hash", "uint32_t")])

/-- The structs of the system messages in `protocol.h`. -/
def systemText (typeMappings : PyDict) : List Char := renderFile (systemStructs typeMappings) []

section Header

variable {root cfg tm : PyDict} {messages : List Yaml} {lines : List Line} {s : String}

theorem structLines_system {name notes : String} {n : Int} (fields : List (String × String))
    (h : structLines tm (systemMessage name n notes
      (fields.map fun field => systemField field.1 field.2)) = .ok lines) :
    lines = systemStruct tm name fields := by
  unfold structLines at h
  obtain ⟨items, hitems, h⟩ := bind_eq_ok.mp h
  obtain rfl := Except.ok.inj hitems
  obtain ⟨members, hmembers, h⟩ := bind_eq_ok.mp h
  obtain ⟨shown, hshown, h⟩ := bind_eq_ok.mp h
  obtain rfl := Except.ok.inj hshown
  have hall : fields.map (fun field =>
      plain ("    " ++ systemTypeText tm field.2 ++ " " ++ field.1 ++ ";")) =
        members.map fun line => line := by
    refine map_eq_of_forall₂ (List.forall₂_map_left_iff.mp (mapM_eq_ok.mp hmembers)) ?_
    rintro field line - hline
    obtain ⟨ftype, hftype, hline⟩ := bind_eq_ok.mp hline
    obtain rfl := Except.ok.inj hftype
    obtain ⟨cType, hcType, hline⟩ := bind_eq_ok.mp hline
    obtain rfl := Except.ok.inj hcType
    obtain ⟨shownType, hshownType, hline⟩ := bind_eq_ok.mp hline
    obtain ⟨-, rfl⟩ := strOf_eq_ok.mp hshownType
    obtain ⟨proto, hproto, hline⟩ := bind_eq_ok.mp hline
    obtain rfl := Except.ok.inj hproto
    exact pure_eq_ok.mp hline
  rw [← pure_eq_ok.mp h, systemStruct, hall, List.map_id']
  rfl

theorem systemStructs_unblocked (tm : PyDict) (content : List Char → List Char) :
    (systemStructs tm).flatMap (Line.renderWith content) = systemText tm := rfl

/-- The last line of the structs is empty. -/
theorem systemText_eq (tm : PyDict) : ∃ stretch, systemText tm = stretch ++ ['\n'] := by
  have hlast : ∀ name fields, ∃ init, systemStruct tm name fields = init ++ [plain ""] :=
    fun name fields => ⟨_, List.append_cons _ _ _⟩
  obtain ⟨init, hinit⟩ := hlast "Handshake" [("protocol_hash", "uint32_t")]
  unfold systemText renderFile systemStructs
  rw [hinit, ← List.append_assoc, ← List.append_assoc, List.flatMap_append]
  exact ⟨_, rfl⟩

theorem ConfigAccepted.checksumAlgo_mem (hacc : ConfigAccepted root cfg tm messages)
    (h : checksumAlgoOf (.map cfg) = .ok s) : s ∈ supportedChecksums := by
  obtain ⟨algo, hmem, halgo⟩ := hacc.checksum
  unfold checksumAlgoOf at h
  rw [configGet_eq, dictGetD, halgo] at h
  obtain ⟨value, hvalue, h⟩ := bind_eq_ok.mp h
  obtain rfl := Except.ok.inj hvalue
  obtain ⟨text, htext, h⟩ := bind_eq_ok.mp h
  obtain ⟨-, rfl⟩ := strOf_eq_ok.mp htext
  rw [← pure_eq_ok.mp h]
  exact (pyUpper_supported hmem).symm ▸ hmem

theorem ConfigAccepted.wordy_number (hacc : ConfigAccepted root cfg tm messages) {key : String × Int}
    (hkey : key ∈ positiveKeys)
    (h : (do strOf (← configGet (.map cfg) key.1 (.int key.2)) : Check String) = .ok s) : Wordy s := by
  obtain ⟨n, hn, hnumber⟩ := hacc.positives key hkey
  rw [configGet_eq, hnumber] at h
  obtain ⟨value, hvalue, h⟩ := bind_eq_ok.mp h
  obtain rfl := Except.ok.inj hvalue
  obtain ⟨-, rfl⟩ := strOf_eq_ok.mp h
  exact wordy_toString_int hn.le

theorem ConfigAccepted.wordy_headByte (hacc : ConfigAccepted root cfg tm messages) {key : String}
    (hkey : key ∈ ["head_byte_1", "head_byte_2"]) (h : shownIndex (.map cfg) key = .ok s) :
    Wordy s := by
  obtain ⟨n, h0, -, hn⟩ := hacc.headByte key hkey
  unfold shownIndex at h
  rw [pyIndex_eq_ok.mpr ⟨cfg, rfl, hn⟩] at h
  obtain ⟨value, hvalue, h⟩ := bind_eq_ok.mp h
  obtain rfl := Except.ok.inj hvalue
  obtain ⟨-, rfl⟩ := strOf_eq_ok.mp h
  exact wordy_toString_int h0

theorem blockKeys_append (lines lines' : List Line) :
    blockKeys (lines ++ lines') = blockKeys lines ++ blockKeys lines' := by
  unfold blockKeys
  exact List.filterMap_append

/-- Lines of code have no key. -/
theorem blockKeys_eq_nil (h : ∀ line ∈ lines, ∃ parts, line = .code parts) : blockKeys lines = [] := by
  unfold blockKeys
  refine List.filterMap_eq_nil_iff.mpr fun line hline => ?_
  obtain ⟨parts, rfl⟩ := h line hline
  rfl

theorem blockKeys_enumerators {ms : List Yaml} (h : ms.mapM enumeratorLine = .ok lines) :
    blockKeys lines = [] := by
  refine blockKeys_eq_nil fun line hline => ?_
  obtain ⟨m, -, hok⟩ := exists_left_of_forall₂ (mapM_eq_ok.mp h) hline
  obtain ⟨symbol, -, hok⟩ := bind_eq_ok.mp hok
  obtain ⟨shown, -, hok⟩ := bind_eq_ok.mp hok
  exact ⟨_, (pure_eq_ok.mp hok).symm⟩

theorem blockKeys_flatten {g : Yaml → Check (List Line)} {ms : List Yaml} {blocks : List (List Line)}
    (hg : ∀ m lines, g m = .ok lines → blockKeys lines = []) (h : ms.mapM g = .ok blocks) :
    blockKeys blocks.flatten = [] := by
  have hall : ∀ lines ∈ blocks, blockKeys lines = [] := fun lines hlines => by
    obtain ⟨m, -, hok⟩ := exists_left_of_forall₂ (mapM_eq_ok.mp h) hlines
    exact hg m lines hok
  clear h
  induction blocks with
  | nil => rfl
  | cons lines blocks ih =>
    obtain ⟨hlines, hrest⟩ := List.forall_mem_cons.mp hall
    rw [List.flatten_cons, blockKeys_append, hlines, ih hrest, List.nil_append]

theorem blockKeys_structLines {m : Yaml} (h : structLines tm m = .ok lines) : blockKeys lines = [] := by
  unfold structLines at h
  obtain ⟨items, -, h⟩ := bind_eq_ok.mp h
  obtain ⟨members, hmembers, h⟩ := bind_eq_ok.mp h
  obtain ⟨name, -, h⟩ := bind_eq_ok.mp h
  have hplain : blockKeys members = [] := by
    refine blockKeys_eq_nil fun line hline => ?_
    obtain ⟨field, -, hok⟩ := exists_left_of_forall₂ (mapM_eq_ok.mp hmembers) hline
    obtain ⟨ftype, -, hok⟩ := bind_eq_ok.mp hok
    obtain ⟨cType, -, hok⟩ := bind_eq_ok.mp hok
    obtain ⟨shownType, -, hok⟩ := bind_eq_ok.mp hok
    obtain ⟨shownName, -, hok⟩ := bind_eq_ok.mp hok
    exact ⟨_, (pure_eq_ok.mp hok).symm⟩
  have hcons : ∀ rest, blockKeys (plain "typedef struct \x7b" :: members ++ rest) =
      blockKeys members ++ blockKeys rest := fun rest => blockKeys_append members rest
  rw [← pure_eq_ok.mp h, hcons, hplain]
  rfl

theorem blockKeys_declarationLines {m : Yaml} (h : declarationLines m = .ok lines) :
    blockKeys lines = [] := by
  obtain ⟨name, -, h⟩ := bind_eq_ok.mp h
  rw [← pure_eq_ok.mp h]
  rfl

/-- The structs of the system messages come last. -/
theorem structs_eq {business : List Yaml} {structs : List (List Line)}
    (h : (business ++ systemMessages).mapM (structLines tm) = .ok structs) :
    ∃ own, business.mapM (structLines tm) = .ok own ∧
      structs.flatten = own.flatten ++ systemStructs tm := by
  rw [List.mapM_append] at h
  obtain ⟨own, hown, h⟩ := bind_eq_ok.mp h
  obtain ⟨system, hsystem, h⟩ := bind_eq_ok.mp h
  refine ⟨own, hown, ?_⟩
  have hblocks := mapM_eq_ok.mp hsystem
  unfold systemMessages at hblocks
  obtain ⟨ack, _, hack, hrest, rfl⟩ := List.forall₂_cons_left_iff.mp hblocks
  obtain ⟨heartbeat, _, hheartbeat, hrest', rfl⟩ := List.forall₂_cons_left_iff.mp hrest
  obtain ⟨handshake, _, hhandshake, hnil, rfl⟩ := List.forall₂_cons_left_iff.mp hrest'
  obtain rfl := List.forall₂_nil_left_iff.mp hnil
  rw [← pure_eq_ok.mp h, List.flatten_append,
    structLines_system [("acked_id", "uint8_t"), ("ack_seq", "uint8_t")] hack,
    structLines_system [("count", "uint32_t")] hheartbeat,
    structLines_system [("protocol_hash", "uint32_t")] hhandshake]
  simp only [List.flatten_cons, List.flatten_nil, List.append_nil, systemStructs]

theorem wordy_supportedChecksum (h : s ∈ supportedChecksums) : Wordy s := by
  have hall : ∀ s ∈ supportedChecksums, ∀ c ∈ s.toList, isWordChar c = true := by
    decide +kernel
  exact hall s h

/-- A line that ends with a word. -/
theorem unmarked_word {t : String} {l : List Char} (hs : s = String.ofList l) (hl : '*' ∉ l)
    (ht : Wordy t) (hlines : ∀ line ∈ lines, line.Unmarked) :
    ∀ line ∈ plain (s ++ t) :: lines, line.Unmarked :=
  List.forall_mem_cons.mpr ⟨unmarked_plain (c := '*') (by decide)
    (not_mem_append (not_mem_of_ofList hs hl) (ht.not_mem rfl)), hlines⟩

/-- A header whose lines around the structs of the system messages have no marker. -/
theorem headerLayout_append {before after : List Line} {stretch : List Char}
    (hstretch : systemText tm = stretch ++ ['\n'])
    (hkeys : blockKeys before = ["Includes", "Private_Defines"])
    (hbefore : ∀ line ∈ before, line.Unmarked) (hafterKeys : blockKeys after = [])
    (hafter : ∀ line ∈ after, line.Unmarked) :
    HeaderLayout (before ++ (systemStructs tm ++ (after ++ [.block "User_Types"]))) stretch := by
  refine ⟨?_, before, after, hkeys, hbefore, hafterKeys, hafter, fun content => ?_⟩
  · simp only [blockKeys_append, hkeys, hafterKeys]
    rfl
  · rw [List.flatMap_append, List.flatMap_append, systemStructs_unblocked, hstretch,
      List.append_assoc, List.singleton_append]

/-- **Only the structs of the system messages can have a marker.** -/
theorem ConfigAccepted.headerLayout (hacc : ConfigAccepted root cfg tm messages)
    {business : List Yaml} {protocolHash : UInt32}
    (hnames : ∀ m ∈ business ++ systemMessages, ∃ e, NameShown m e)
    (hfields : ∀ m ∈ business, ∀ items, fieldsOf m = .ok items → ∀ field ∈ items, FieldShown tm field)
    (h : mcuHeaderLines (.map cfg) (business ++ systemMessages) tm protocolHash = .ok lines) :
    ∃ stretch, systemText tm = stretch ++ ['\n'] ∧ HeaderLayout lines stretch := by
  unfold mcuHeaderLines at h
  obtain ⟨checksumAlgo, hchecksum, h⟩ := bind_eq_ok.mp h
  obtain ⟨requireHandshake, -, h⟩ := bind_eq_ok.mp h
  obtain ⟨ignoreVersionMismatch, -, h⟩ := bind_eq_ok.mp h
  obtain ⟨strictHeartbeat, -, h⟩ := bind_eq_ok.mp h
  obtain ⟨interval, hinterval, h⟩ := bind_eq_ok.mp h
  obtain ⟨timeout, htimeout, h⟩ := bind_eq_ok.mp h
  obtain ⟨retryInterval, hretryInterval, h⟩ := bind_eq_ok.mp h
  obtain ⟨maxRetries, hmaxRetries, h⟩ := bind_eq_ok.mp h
  obtain ⟨head1, hhead1, h⟩ := bind_eq_ok.mp h
  obtain ⟨head2, hhead2, h⟩ := bind_eq_ok.mp h
  obtain ⟨enumerators, henumerators, h⟩ := bind_eq_ok.mp h
  obtain ⟨structs, hstructs, h⟩ := bind_eq_ok.mp h
  obtain ⟨declarations, hdeclarations, h⟩ := bind_eq_ok.mp h
  rw [← pure_eq_ok.mp h]
  obtain ⟨own, hown, hflatten⟩ := structs_eq hstructs
  obtain ⟨stretch, hstretch⟩ := systemText_eq tm
  have hnumber : ∀ {key : String} {n : Int} {s : String}, (key, n) ∈ positiveKeys →
      (do strOf (← configGet (.map cfg) key (.int n)) : Check String) = .ok s → Wordy s :=
    fun hkey hs => hacc.wordy_number hkey hs
  have halgo : Wordy checksumAlgo := wordy_supportedChecksum (hacc.checksumAlgo_mem hchecksum)
  have hown' : ∀ line ∈ own.flatten, line.Unmarked :=
    unmarked_flatten hown fun m hm lines hlines =>
      (hnames m (List.mem_append_left systemMessages hm)).elim fun _ hname =>
        hname.structLines_unmarked (hfields m hm) hlines
  have henumerators' : ∀ line ∈ enumerators, line.Unmarked := by
    intro line hline
    obtain ⟨m, hm, hok⟩ := exists_left_of_forall₂ (mapM_eq_ok.mp henumerators) hline
    obtain ⟨e, hname⟩ := hnames m hm
    exact hname.enumeratorLine_unmarked hok
  have hdeclarations' : ∀ line ∈ declarations.flatten, line.Unmarked :=
    unmarked_flatten hdeclarations fun m hm lines hlines =>
      (hnames m hm).elim fun _ hname => hname.declarationLines_unmarked hlines
  have hsplit : ∀ a e b o s c d : List Line,
      a ++ e ++ b ++ (o ++ s) ++ c ++ d ++ [plain "", .block "User_Types"] =
        (a ++ e ++ b ++ o) ++ (s ++ ((c ++ d ++ [plain ""]) ++ [.block "User_Types"])) := by
    intro a e b o s c d
    simp only [List.append_assoc, List.cons_append, List.nil_append]
  rw [hflatten, hsplit]
  refine ⟨stretch, hstretch, headerLayout_append hstretch ?_ ?_ ?_ ?_⟩
  · have hownKeys : blockKeys own.flatten = [] :=
      blockKeys_flatten (fun _ _ => blockKeys_structLines) hown
    simp only [blockKeys_append, blockKeys_enumerators henumerators, hownKeys]
    rfl
  · simp only [List.forall_mem_append]
    refine ⟨⟨⟨⟨unmarked_mcuFileBanner, ?_⟩, henumerators'⟩, ?_⟩, hown'⟩
    · iterate 4 refine unmarked_cons rfl (by decide) ?_
      refine unmarked_block rfl (by decide) ?_
      iterate 2 refine unmarked_cons rfl (by decide) ?_
      refine unmarked_word rfl (by decide) (wordy_upperHex _ _) ?_
      refine unmarked_cons rfl (by decide) ?_
      refine unmarked_word rfl (by decide) halgo ?_
      refine List.forall_mem_cons.mpr ⟨unmarked_plain (c := '/') (by decide)
        (not_mem_append (not_mem_append ?_ (halgo.not_mem rfl)) ?_), ?_⟩
      · exact not_mem_of_ofList rfl (by decide)
      · exact not_mem_of_ofList rfl (by decide)
      iterate 2 refine unmarked_cons rfl (by decide) ?_
      iterate 2 refine unmarked_word rfl (by decide) (wordy_bit _) ?_
      iterate 2 refine unmarked_cons rfl (by decide) ?_
      refine unmarked_word rfl (by decide) (wordy_bit _) ?_
      refine unmarked_word rfl (by decide) (hnumber (by decide) hinterval) ?_
      refine unmarked_word rfl (by decide) (hnumber (by decide) htimeout) ?_
      iterate 2 refine unmarked_cons rfl (by decide) ?_
      refine unmarked_word rfl (by decide) (hnumber (by decide) hretryInterval) ?_
      refine unmarked_word rfl (by decide) (hnumber (by decide) hmaxRetries) ?_
      refine unmarked_cons rfl (by decide) (unmarked_block rfl (by decide) ?_)
      iterate 2 refine unmarked_cons rfl (by decide) ?_
      refine unmarked_word rfl (by decide) (hacc.wordy_headByte (by simp) hhead1) ?_
      refine unmarked_word rfl (by decide) (hacc.wordy_headByte (by simp) hhead2) ?_
      iterate 3 refine unmarked_cons rfl (by decide) ?_
      exact nofun
    · refine unmarked_declared_cons rfl (by decide) rfl (by decide) rfl (by decide) ?_
      iterate 2 refine unmarked_cons rfl (by decide) ?_
      exact nofun
  · have hdeclarationKeys : blockKeys declarations.flatten = [] :=
      blockKeys_flatten (fun _ _ => blockKeys_declarationLines) hdeclarations
    simp only [blockKeys_append, hdeclarationKeys]
    rfl
  · simp only [List.forall_mem_append]
    refine ⟨⟨?_, hdeclarations'⟩, unmarked_cons rfl (by decide) nofun⟩
    iterate 3 refine unmarked_cons rfl (by decide) ?_
    iterate 2 refine unmarked_declared_cons rfl (by decide) rfl (by decide) rfl (by decide) ?_
    iterate 2 refine unmarked_cons rfl (by decide) ?_
    exact nofun

end Header

-- ---------------------------------------------------------------------------
-- Regeneration
-- ---------------------------------------------------------------------------

section Files

variable {hash : ProtocolHashInput → UInt32} {root : PyDict} {configData : Yaml}
  {header source : List Line}

/-- **Both files of an accepted configuration.** -/
theorem mcuFiles_layout (h : validateProtocol (.map root) = .ok configData)
    (hfiles : mcuFiles hash configData = .ok (header, source)) :
    (∃ stretch, systemText (mappingsOf root) = stretch ++ ['\n'] ∧ HeaderLayout header stretch) ∧
      ∀ line ∈ source, line.Unmarked := by
  obtain ⟨root', cfg, tm, messages', hroot', hacc⟩ := validateProtocol_accepted h
  obtain ⟨raw, messages, hraw, hval, rfl⟩ := validateProtocol_eq_ok h
  obtain rfl := Yaml.map.inj hraw
  obtain rfl := Yaml.map.inj hroot'
  obtain rfl : messages' = messages := by
    rw [← hacc.messagesOf_eq, messagesOf_assignedRoot _ hval]
  obtain rfl : mappingsOf root = tm := by
    rw [← hacc.mappingsOf_eq, mappingsOf_assignedRoot]
  obtain ⟨merged, protocolHash, hmerged, hheader, hsource⟩ := hacc.mcuFiles_eq_ok hfiles
  obtain ⟨enumerators, -, -, henumerators, -⟩ := mcuHeaderLines_blocks hheader
  obtain ⟨es, hes⟩ := hacc.listed hmerged henumerators
  have hshown := checkMessages_shown hval.loop
  have hnames : ∀ m ∈ merged, ∃ e, NameShown m e := by
    intro m hm
    obtain ⟨e, -, hlisted⟩ := exists_right_of_forall₂ hes hm
    exact ⟨e, hacc.nameShown (fun m hm => (hshown m hm).1)
      ((sortedById_spec hmerged).1.mem_iff.mp hm) hlisted⟩
  obtain ⟨business, hperm, rfl⟩ := hacc.merged_eq hmerged
  exact ⟨hacc.headerLayout hnames (fun m hm => (hshown m (hperm.mem_iff.mp hm)).2) hheader,
    unmarked_mcuSourceLines hnames hsource⟩

/-- C types without a slash bring no marker. -/
theorem markersIn_systemText (word : WordClass) {tm : PyDict}
    (h : ∀ type ∈ ["uint8_t", "uint32_t"], '/' ∉ (systemTypeText tm type).toList) :
    markersIn word (systemText tm) = [] := by
  have hstruct : ∀ {name : String} {fields : List (String × String)}, '/' ∉ name.toList →
      (∀ field ∈ fields, '/' ∉ field.1.toList ∧ '/' ∉ (systemTypeText tm field.2).toList) →
      ∀ line ∈ systemStruct tm name fields, line.Unmarked := by
    intro name fields hname hfields
    unfold systemStruct
    rw [List.forall_mem_append, List.forall_mem_cons, List.forall_mem_map]
    refine ⟨⟨?_, fun field hfield => ?_⟩, ?_⟩
    · exact unmarked_plain (c := '/') (by decide) (not_mem_of_ofList rfl (by decide))
    · refine unmarked_plain (c := '/') (by decide) (not_mem_append (not_mem_append (not_mem_append
        (not_mem_append ?_ (hfields field hfield).2) ?_) (hfields field hfield).1) ?_)
      all_goals exact not_mem_of_ofList rfl (by decide)
    · refine List.forall_mem_cons.mpr ⟨unmarked_declared (not_mem_of_ofList rfl (by decide))
        (not_mem_append ?_ hname) (not_mem_of_ofList rfl (by decide)), ?_⟩
      · exact not_mem_of_ofList rfl (by decide)
      · exact unmarked_cons rfl (by decide) nofun
  obtain ⟨h8, h32, -⟩ : _ ∧ _ ∧ _ := by simpa only [List.forall_mem_cons] using h
  rw [← systemStructs_unblocked tm fun _ => []]
  refine markersIn_unmarked rfl ?_ _
  unfold systemStructs
  simp only [List.forall_mem_append]
  refine ⟨hstruct (not_mem_of_ofList rfl (by decide)) ?_, hstruct (not_mem_of_ofList rfl (by decide)) ?_,
    hstruct (not_mem_of_ofList rfl (by decide)) ?_⟩
  · simp only [List.forall_mem_cons]
    exact ⟨⟨not_mem_of_ofList rfl (by decide), h8⟩, ⟨not_mem_of_ofList rfl (by decide), h8⟩, nofun⟩
  · simp only [List.forall_mem_cons]
    exact ⟨⟨not_mem_of_ofList rfl (by decide), h32⟩, nofun⟩
  · simp only [List.forall_mem_cons]
    exact ⟨⟨not_mem_of_ofList rfl (by decide), h32⟩, nofun⟩

end Files

/-- **USER CODE blocks are kept**, in `protocol.c` always, and in `protocol.h` exactly if every marker in
the structs of the system messages is closed there and has the key of the last block (in the old file)
or not one of the first two keys (in the new file). -/
theorem mcuFiles_regenerates_iff (word : WordClass) {hash : ProtocolHashInput → UInt32}
    {root₁ root₂ : PyDict} {config₁ config₂ : Yaml} {header₁ source₁ header₂ source₂ : List Line}
    (h₁ : validateProtocol (.map root₁) = .ok config₁)
    (hfiles₁ : mcuFiles hash config₁ = .ok (header₁, source₁))
    (h₂ : validateProtocol (.map root₂) = .ok config₂)
    (hfiles₂ : mcuFiles hash config₂ = .ok (header₂, source₂)) :
    ((∀ texts, TextsFor header₁ texts → Regenerates word header₁ header₂ texts) ∧
        ∀ texts, TextsFor source₁ texts → Regenerates word source₁ source₂ texts) ↔
      MarkersOfLastKey word (systemText (mappingsOf root₁)) ∧
        MarkersOfNoFirstKey word (systemText (mappingsOf root₂)) := by
  obtain ⟨⟨stretch₁, htext₁, hlayout₁⟩, hsource₁⟩ := mcuFiles_layout h₁ hfiles₁
  obtain ⟨⟨stretch₂, htext₂, hlayout₂⟩, hsource₂⟩ := mcuFiles_layout h₂ hfiles₂
  have hsource : ∀ texts, TextsFor source₁ texts → Regenerates word source₁ source₂ texts :=
    fun _ => regenerates_of_unmarked hsource₁ hsource₂
  rw [htext₁, htext₂, ← regenerates_header_iff hlayout₁ hlayout₂]
  exact and_iff_left hsource

theorem mcuFiles_regenerates_demo : ∃ config₁ header₁ source₁ config₂ header₂ source₂,
    validateProtocol demoConfig = .ok config₁ ∧
      mcuFiles (fun _ => 0xDC27492C) config₁ = .ok (header₁, source₁) ∧
      validateProtocol renamedConfig = .ok config₂ ∧
      mcuFiles (fun _ => 0xDC27492C) config₂ = .ok (header₂, source₂) ∧
      ∀ word, (∀ texts, TextsFor header₁ texts → Regenerates word header₁ header₂ texts) ∧
        ∀ texts, TextsFor source₁ texts → Regenerates word source₁ source₂ texts := by
  have hreturns₁ : Returns (validateProtocol demoConfig >>= mcuFiles fun _ => 0xDC27492C) :=
    returns_of_isOk (by decide +kernel)
  have hreturns₂ : Returns (validateProtocol renamedConfig >>= mcuFiles fun _ => 0xDC27492C) :=
    returns_of_isOk (by decide +kernel)
  obtain ⟨⟨header₁, source₁⟩, h₁⟩ := hreturns₁
  obtain ⟨⟨header₂, source₂⟩, h₂⟩ := hreturns₂
  obtain ⟨config₁, hconfig₁, hfiles₁⟩ := bind_eq_ok.mp h₁
  obtain ⟨config₂, hconfig₂, hfiles₂⟩ := bind_eq_ok.mp h₂
  refine ⟨config₁, header₁, source₁, config₂, header₂, source₂, hconfig₁, hfiles₁, hconfig₂, hfiles₂,
    fun word => ?_⟩
  refine (mcuFiles_regenerates_iff word hconfig₁ hfiles₁ hconfig₂ hfiles₂).mpr
    ⟨fun c hc => ?_, fun c hc => ?_⟩
  all_goals
    rw [markersIn_systemText word (by decide +kernel)] at hc
    cases hc

/-- The entries of a configuration whose C type for `uint8_t` begins a block `X`. -/
def markerEntries : PyDict :=
  [(.str "serial_controller", demoSerialController), (.str "config", demoSettings 1024),
    (.str "type_mappings",
      demoTypeMappings [(.str "uint8_t", .str "uint8_t /* USER CODE BEGIN X */")]),
    (.str "messages", .list [demoMessage "DemoCommand" 1 "tx" [] "sub_topic" "demo/command"
      "std_msgs/msg/UInt32" "u32"])]

/-- `\w` without the characters outside ASCII. -/
def asciiWords : WordClass := ⟨isWordChar, fun _ _ => rfl⟩

/-- The last block holds the end marker of the block `X`, and the other two nothing. -/
theorem not_regenerates_marker : ∃ configData header source,
    validateProtocol (.map markerEntries) = .ok configData ∧
      mcuFiles (fun _ => 0xDC27492C) configData = .ok (header, source) ∧
      TextsFor header (closingTexts [] ['X']) ∧
      ¬ Regenerates asciiWords header header (closingTexts [] ['X']) := by
  have hreturns : Returns (validateProtocol (.map markerEntries) >>= mcuFiles fun _ => 0xDC27492C) :=
    returns_of_isOk (by decide +kernel)
  obtain ⟨⟨header, source⟩, h⟩ := hreturns
  obtain ⟨configData, hconfig, hfiles⟩ := bind_eq_ok.mp h
  obtain ⟨⟨stretch, hstretch, hlayout⟩, -⟩ := mcuFiles_layout hconfig hfiles
  have hopen : none ∈ markersIn asciiWords (systemText (mappingsOf markerEntries)) := by
    decide +kernel
  have hkeys : ∀ u ∈ (readText (systemText (mappingsOf markerEntries))).tails,
      (opening? asciiWords u).all (fun e => e.1 == ['X']) = true := by
    decide +kernel
  rw [hstretch] at hopen hkeys
  obtain ⟨key, u, hu, hkey, htexts, hne⟩ := hlayout.exists_not_extracted hopen
  obtain rfl : key = ['X'] := by
    have hall := hkeys u ((List.mem_tails _ _).mpr hu)
    obtain ⟨rest, hrest⟩ := hkey
    rw [hrest] at hall
    exact eq_of_beq hall
  exact ⟨configData, header, source, hconfig, hfiles, htexts, fun h => hne (h.extracted _)⟩

end AutoSerialBridge
