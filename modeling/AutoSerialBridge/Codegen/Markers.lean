import AutoSerialBridge.Codegen.UserCode

/-!
# Auto Serial Bridge — markers outside the blocks

`protocol.h` writes two C types of the configuration unchecked between its second and its third block.
Its other lines have no marker. Here the header is a text with one stretch that may hold anything
(`HeaderLayout`), and the markers that the regular expression sees in this stretch (`markersIn`) decide
whether regeneration keeps the blocks.

## Results

* `HeaderLayout.extract_closed`: every marker of the stretch is closed in it.
* `HeaderLayout.extract_open`: one is not; then a text for the last block swallows that block.
* `regenerates_header_iff`: **regeneration keeps every text if and only if the markers of the old file
  belong to closed blocks of the last key, and those of the new one to closed blocks that are not of
  the first two keys**.
-/

namespace AutoSerialBridge

open Lib

-- ---------------------------------------------------------------------------
-- The stretch
-- ---------------------------------------------------------------------------

/-- What the regular expression sees in a text: blocks, and begin markers that nothing closes. -/
def markersIn (word : WordClass) (s : List Char) : List (Option (List Char × List Char)) :=
  findAll (marker? word) (readText s)

section Stretch

variable {word : WordClass} {s key : List Char}

/-- Lines without a marker. -/
theorem markersIn_unmarked {lines : List Line} (hkeys : blockKeys lines = [])
    (hlines : ∀ line ∈ lines, line.Unmarked) (content : List Char → List Char) :
    markersIn word (lines.flatMap (Line.renderWith content)) = [] := by
  induction lines with
  | nil => exact findAll_nil
  | cons line lines ih =>
    obtain ⟨hline, hrest⟩ := List.forall_mem_cons.mp hlines
    cases line with
    | block key => cases hkeys
    | code parts =>
      unfold markersIn
      rw [List.flatMap_cons, Line.renderWith, List.append_assoc, List.singleton_append,
        findAll_unmarked (fun _ => marker?_eq_none) hline]
      exact ih hkeys hrest

theorem extractUserCode_closed (hall : ∀ c ∈ markersIn word (s ++ ['\n']), c ≠ none) (t : List Char) :
    extractUserCode word (s ++ '\n' :: t) =
      (markersIn word (s ++ ['\n'])).reduceOption ++ extractUserCode word t := by
  obtain ⟨g, hread, -⟩ := readText_line s
  have hs : readText (s ++ ['\n']) = g ++ ['\n'] := hread []
  unfold markersIn extractUserCode at *
  rw [hs] at hall ⊢
  rw [hread, List.append_cons]
  exact findAll_append (closes_line word g) hall _

/-- The first begin marker that nothing closes. -/
theorem extractUserCode_open (hopen : none ∈ markersIn word (s ++ ['\n'])) :
    ∃ pre key rest, key ≠ [] ∧ (∀ c ∈ key, word.isWord c = true) ∧
      (∃ u, u <:+ readText (s ++ ['\n']) ∧ ∃ r, opening? word u = some (key, r)) ∧
      ¬ endMarker key <:+: rest ∧
      ∀ t, extractUserCode word (s ++ '\n' :: t) =
        pre ++ findAll (userBlock? word) (beginMarker key ++ (rest ++ '\n' :: readText t)) := by
  obtain ⟨g, hread, -⟩ := readText_line s
  have hs : readText (s ++ ['\n']) = g ++ ['\n'] := hread []
  unfold markersIn at hopen
  rw [hs] at hopen
  obtain ⟨pre, u, n, hu, hmarker, hfind⟩ := exists_open_of_mem (closes_line word g) hopen
  obtain ⟨key, rest, hkey, hunclosed⟩ : ∃ key rest, opening? word u = some (key, rest) ∧
      ¬ endMarker key <:+: rest := by
    unfold marker? at hmarker
    cases hopening : opening? word u with
    | none => simp [hopening] at hmarker
    | some e =>
      rw [hopening] at hmarker
      cases hdrop : e.2.dropInfix? (endMarker e.1) with
      | none => exact ⟨e.1, e.2, rfl, dropInfix?_eq_none_iff.mp hdrop⟩
      | some e' => simp [hdrop] at hmarker
  obtain ⟨rfl, hne, hword⟩ := opening?_eq_some.mp hkey
  obtain ⟨line, rfl⟩ : ∃ line, rest = line ++ ['\n'] := by
    have hrest : rest <:+ g ++ ['\n'] := (List.suffix_append _ _).trans hu
    rcases List.suffix_concat_iff.mp hrest with rfl | ⟨line, rfl, -⟩
    · -- the marker itself holds no line end
      rcases List.suffix_concat_iff.mp hu with hnil | ⟨line, hline, -⟩
      · rw [beginMarker_eq, beginStart_eq] at hnil
        simp at hnil
      · refine absurd ?_ (newline_not_mem_beginMarker hword)
        rw [← List.append_nil (beginMarker key), hline]
        simp
    · exact ⟨line, rfl⟩
  refine ⟨pre, key, line, hne, hword, ⟨_, hs ▸ hu, _, hkey⟩,
    fun h => hunclosed (h.trans (List.prefix_append _ _).isInfix), fun t => ?_⟩
  unfold extractUserCode
  rw [hread, List.append_cons, hfind]
  simp only [List.append_assoc, List.singleton_append]

end Stretch

-- ---------------------------------------------------------------------------
-- The header
-- ---------------------------------------------------------------------------

/-- The key of the last block of `protocol.h`. -/
def lastKey : List Char := "User_Types".toList

/-- The lines of `protocol.h`: two blocks before the stretch, one behind it. -/
structure HeaderLayout (lines : List Line) (stretch : List Char) : Prop where
  keys : blockKeys lines = ["Includes", "Private_Defines", "User_Types"]
  split : ∃ before after : List Line, blockKeys before = ["Includes", "Private_Defines"] ∧
    (∀ line ∈ before, line.Unmarked) ∧ blockKeys after = [] ∧ (∀ line ∈ after, line.Unmarked) ∧
    ∀ content, lines.flatMap (Line.renderWith content) = before.flatMap (Line.renderWith content) ++
      (stretch ++ '\n' :: (after ++ [Line.block "User_Types"]).flatMap (Line.renderWith content))

theorem lastKey_eq : lastKey = ['U', 's', 'e', 'r', '_', 'T', 'y', 'p', 'e', 's'] :=
  toList_eq_of_ofList rfl

theorem isKey_lastKey : IsKey lastKey := by
  rw [lastKey_eq]
  exact ⟨List.cons_ne_nil _ _, by decide⟩

/-- A text whose only `/` are the last two characters has no `/* `. -/
theorem unmarked_append_slashes {s : List Char} (hs : '/' ∉ s) : Unmarked (s ++ ['/', '/']) := by
  induction s with
  | nil => decide
  | cons c s ih =>
    rw [List.mem_cons, not_or] at hs
    intro h
    rw [List.cons_append, List.infix_cons_iff] at h
    rcases h with h | h
    · obtain ⟨rfl, -⟩ := List.cons_prefix_cons.mp h
      exact hs.1 rfl
    · exact ih hs.2 h

/-- A pattern with `/* ` is not in a text without one. -/
theorem Unmarked.not_endMarker {s : List Char} (hs : Unmarked s) (key : List Char) :
    ¬ endMarker key <:+: s := by
  intro h
  refine hs (List.IsInfix.trans ?_ h)
  rw [endMarker_eq, endStart_eq]
  exact ⟨[], _, rfl⟩

section Texts

variable {word : WordClass} {key key' : List Char}

/-- An end marker is in no begin marker. -/
theorem not_endMarker_infix_beginMarker (hkey' : ∀ c ∈ key', word.isWord c = true) :
    ¬ endMarker key <:+: beginMarker key' ++ ['/'] := by
  have hslash : '/' ∉ beginStart.tail ++ key' ++ markerStop.dropLast := by
    have hne : '/' ∉ key' := fun h => by
      have htrue := hkey' _ h
      rw [word.not_isWord (by decide)] at htrue
      cases htrue
    rw [beginStart_eq, markerStop_eq]
    simp [hne]
  have hsplit : beginMarker key' ++ ['/'] =
      '/' :: ((beginStart.tail ++ key' ++ markerStop.dropLast) ++ ['/', '/']) := by
    rw [beginMarker_eq, beginStart_eq, markerStop_eq]
    simp
  rw [hsplit, List.infix_cons_iff]
  rintro (h | h)
  · rw [← hsplit, endMarker_eq, beginMarker_eq, endStart_eq, beginStart_eq] at h
    simp [List.cons_prefix_cons] at h
  · exact (unmarked_append_slashes hslash).not_endMarker key h

/-- An end marker is in no end marker of another key. -/
theorem eq_of_endMarker_infix_endMarker (hne : key ≠ []) (hkey : ∀ c ∈ key, word.isWord c = true)
    (hne' : key' ≠ []) (hkey' : ∀ c ∈ key', word.isWord c = true)
    (h : endMarker key <:+: endMarker key' ++ ['/']) : key = key' := by
  have hsplit : endMarker key' ++ ['/'] =
      '/' :: ((endStart.tail ++ key' ++ markerStop.dropLast) ++ ['/', '/']) := by
    rw [endMarker_delimited]
    simp
  rw [hsplit, List.infix_cons_iff] at h
  rcases h with h | h
  · rw [← hsplit, endMarker_eq, endMarker_eq, List.append_assoc, List.append_assoc, List.append_assoc,
      List.prefix_append_right_inj] at h
    obtain ⟨rest, hrest⟩ := h
    -- the longest run of word characters
    have hopen : opening? word (beginMarker key' ++ ['/']) = some (key, rest) := by
      refine opening?_eq_some.mpr ⟨?_, hne, hkey⟩
      rw [beginMarker_eq, beginMarker_eq, List.append_assoc, List.append_assoc, ← hrest]
      simp only [List.append_assoc]
    rw [opening?_eq_some.mpr ⟨rfl, hne', hkey'⟩] at hopen
    exact (Prod.mk.inj (Option.some.inj hopen)).1.symm
  · exact absurd h ((unmarked_append_slashes (slash_not_mem_endMarker hkey')).not_endMarker key)

/-- The text that closes a begin marker of `key` from within the last block, behind a padding. -/
def closingText (pad key : List Char) : List Char :=
  if key = lastKey then [] else pad ++ endMarker key

/-- It is a text for the last block. -/
theorem textFor_closingText {pad : List Char} (hpad : pad ∈ [[], ['\n']]) (hne : key ≠ [])
    (hkey : ∀ c ∈ key, word.isWord c = true) : TextFor lastKey (closingText pad key) := by
  unfold closingText
  split_ifs with hlast
  · exact textFor_of_length (by decide) (by decide)
  · have hreturn : '\r' ∉ endMarker key := by
      have hne : '\r' ∉ key := fun h => by
        have htrue := hkey _ h
        rw [word.not_isWord (by decide)] at htrue
        cases htrue
      rw [endMarker_eq, endStart_eq, markerStop_eq]
      simp [hne]
    have hunclosed : ¬ endMarker lastKey <:+: endMarker key ++ ['/'] := fun h =>
      hlast (eq_of_endMarker_infix_endMarker isKey_lastKey.1 (isKey_lastKey.isWord word) hne hkey h).symm
    simp only [List.mem_cons, List.not_mem_nil, or_false] at hpad
    rcases hpad with rfl | rfl
    · exact ⟨hreturn, hunclosed⟩
    · refine ⟨by simp [hreturn], fun h => ?_⟩
      rw [List.append_assoc, List.singleton_append, List.infix_cons_iff] at h
      rcases h with h | h
      · rw [endMarker_delimited] at h
        exact absurd (List.cons_prefix_cons.mp h).1 (by decide)
      · exact hunclosed h

theorem newline_not_mem_endMarker (hkey : ∀ c ∈ key, word.isWord c = true) : '\n' ∉ endMarker key := by
  have hne : '\n' ∉ key := fun h => by
    have htrue := hkey _ h
    rw [word.not_isWord (by decide)] at htrue
    cases htrue
  rw [endMarker_eq, endStart_eq, markerStop_eq]
  simp [hne]

/-- Lines without markers, as they are read: no end marker begins in them. -/
theorem readText_unmarked_lines (word : WordClass) {lines : List Line} (hkeys : blockKeys lines = [])
    (hlines : ∀ line ∈ lines, line.Unmarked) :
    ∃ g, (∀ content t, readText (lines.flatMap (Line.renderWith content) ++ t) = g ++ readText t) ∧
      ∀ key, (∀ c ∈ key, word.isWord c = true) → ∀ t, endMarker key <:+: g ++ t →
        endMarker key <:+: t := by
  induction lines with
  | nil => exact ⟨[], fun _ _ => rfl, fun _ _ _ h => h⟩
  | cons line lines ih =>
    obtain ⟨hline, hrest⟩ := List.forall_mem_cons.mp hlines
    cases line with
    | block key => cases hkeys
    | code parts =>
      obtain ⟨g, hread, hpart⟩ := ih hkeys hrest
      obtain ⟨g₀, hread₀, hpat⟩ := readText_line (parts.flatMap Part.render)
      refine ⟨g₀ ++ '\n' :: g, fun content t => ?_, fun key hkey t h => ?_⟩
      · rw [List.flatMap_cons, Line.renderWith, List.append_assoc, List.append_assoc,
          List.singleton_append, hread₀, hread]
        simp
      · rw [List.append_assoc, List.cons_append] at h
        rcases infix_of_infix_append_cons (newline_not_mem_endMarker hkey) h with h | h
        · exact absurd ((hpat _ (newline_not_mem_endMarker hkey)).2 h) (Unmarked.not_endMarker hline key)
        · exact hpart key hkey t h

end Texts

-- ---------------------------------------------------------------------------
-- The blocks of the header
-- ---------------------------------------------------------------------------

/-- The blocks before the stretch. -/
def firstEntries (content : List Char → List Char) : UserBlocks :=
  ["Includes", "Private_Defines"].map fun key => (key.toList, content key.toList)

section Layout

variable {word : WordClass} {lines : List Line} {stretch : List Char}

theorem HeaderLayout.extract (word : WordClass) (h : HeaderLayout lines stretch) :
    ∃ after : List Line, blockKeys after = [] ∧ (∀ line ∈ after, line.Unmarked) ∧
      ∀ blocks : UserBlocks, (∀ key ∈ blockKeys lines, TextFor key.toList (blocks.content key.toList)) →
        extractUserCode word (renderFile lines blocks) = firstEntries blocks.content ++
          extractUserCode word (stretch ++ '\n' ::
            (after ++ [Line.block "User_Types"]).flatMap (Line.renderWith blocks.content)) := by
  obtain ⟨before, after, hkeys, hbefore, hafterKeys, hafter, hrender⟩ := h.split
  refine ⟨after, hafterKeys, hafter, fun blocks hblocks => ?_⟩
  have htexts : ∀ key ∈ blockKeys before, TextFor key.toList (blocks.content key.toList) := by
    intro key hkey
    refine hblocks key ?_
    rw [h.keys]
    rw [hkeys] at hkey
    exact List.mem_append_left ["User_Types"] hkey
  rw [renderFile_eq, hrender, extractUserCode_lines hbefore htexts, entries, hkeys]
  rfl

/-- **Every marker of the stretch is closed there.** -/
theorem HeaderLayout.extract_closed (h : HeaderLayout lines stretch)
    (hall : ∀ c ∈ markersIn word (stretch ++ ['\n']), c ≠ none) {blocks : UserBlocks}
    (hblocks : ∀ key ∈ blockKeys lines, TextFor key.toList (blocks.content key.toList)) :
    extractUserCode word (renderFile lines blocks) = firstEntries blocks.content ++
      ((markersIn word (stretch ++ ['\n'])).reduceOption ++ [(lastKey, blocks.content lastKey)]) := by
  obtain ⟨after, hafterKeys, hafter, hextract⟩ := h.extract word
  have hlast : ∀ line ∈ after ++ [Line.block "User_Types"], line.Unmarked := by
    intro line hline
    rcases List.mem_append.mp hline with hline | hline
    · exact hafter line hline
    · rw [List.mem_singleton.mp hline]
      exact isKey_lastKey
  have hkeys : blockKeys (after ++ [Line.block "User_Types"]) = ["User_Types"] := by
    unfold blockKeys at hafterKeys ⊢
    rw [List.filterMap_append, hafterKeys]
    rfl
  have hcontent : ∀ key ∈ blockKeys (after ++ [Line.block "User_Types"]),
      TextFor key.toList (blocks.content key.toList) := by
    intro key hkey
    refine hblocks key ?_
    rw [h.keys]
    rw [hkeys] at hkey
    exact List.mem_append_right ["Includes", "Private_Defines"] hkey
  have hfile : extractUserCode word _ = _ := extractUserCode_lines hlast hcontent []
  rw [List.append_nil] at hfile
  rw [hextract blocks hblocks, extractUserCode_closed hall, hfile, entries, hkeys]
  rfl

theorem findAll_newline (word : WordClass) : findAll (userBlock? word) ['\n'] = [] := by
  have hnewline : opening? word ['\n'] = none := Unmarked.opening? (s := []) (by decide) []
  rw [findAll_cons_of_none (userBlock?_eq_none hnewline), findAll_nil]

/-- Nothing begins in the end of the file. -/
theorem findAll_endMarker (word : WordClass) :
    findAll (userBlock? word) (endMarker lastKey ++ ['\n']) = [] := by
  have hunmarked : Unmarked (endStart.tail ++ lastKey ++ markerStop.dropLast ++ ['/', '/']) :=
    unmarked_append_slashes (slash_not_mem_endMarker (isKey_lastKey.isWord word))
  refine (findAll_append_of_none fun u hu hne => ?_).trans ?_
  · cases hopen : opening? word (u ++ ['\n']) with
    | none => exact userBlock?_eq_none hopen
    | some e =>
      obtain ⟨rest, hrest⟩ := opening?_line (hopen : opening? word _ = some (e.1, e.2))
      obtain ⟨rfl, -⟩ := opening?_eq_some.mp hrest
      -- a begin marker in the end marker
      rw [endMarker_delimited, List.suffix_cons_iff] at hu
      rcases hu with hu | hu
      · rw [← endMarker_delimited, endMarker_eq, beginMarker_eq, beginStart_eq, endStart_eq] at hu
        simp at hu
      · refine absurd (List.IsInfix.trans ?_ (hu.isInfix.trans ?_)) hunmarked
        · rw [beginMarker_eq, beginStart_eq]
          exact ⟨[], _, rfl⟩
        · exact ⟨[], ['/'], by simp⟩
  · exact findAll_newline word

/-- **A begin marker of the stretch is not closed there**: with a text for the last block that closes it,
the last match is a block of that key, and it is not empty. -/
theorem HeaderLayout.extract_open (h : HeaderLayout lines stretch)
    (hopen : none ∈ markersIn word (stretch ++ ['\n'])) :
    ∃ pre key, key ≠ [] ∧ (∀ c ∈ key, word.isWord c = true) ∧
      (∃ u, u <:+ readText (stretch ++ ['\n']) ∧ ∃ r, opening? word u = some (key, r)) ∧
      ∀ pad ∈ [[], ['\n']], ∀ blocks : UserBlocks, (∀ key ∈ blockKeys lines, TextFor key.toList (blocks.content key.toList)) →
        blocks.content lastKey = closingText pad key →
        ∃ code, code ≠ [] ∧ extractUserCode word (renderFile lines blocks) =
          firstEntries blocks.content ++ (pre ++ [(key, code)]) := by
  obtain ⟨after, hafterKeys, hafter, hextract⟩ := h.extract word
  obtain ⟨pre, key, rest, hne, hkey, hbegin, hrest, hstretch⟩ := extractUserCode_open hopen
  obtain ⟨g, hread, hpart⟩ := readText_unmarked_lines word hafterKeys hafter
  refine ⟨pre, key, hne, hkey, hbegin, fun pad hpad blocks hblocks hclosing => ?_⟩
  have hlast := isKey_lastKey.isWord word
  -- the last block as it is read
  have hblock : readText ((after ++ [Line.block "User_Types"]).flatMap
      (Line.renderWith blocks.content)) =
        g ++ (beginMarker lastKey ++ closingText pad key ++ endMarker lastKey ++ ['\n']) := by
    have hreturn : '\r' ∉ beginMarker lastKey ++ closingText pad key ++ endMarker lastKey ++ ['\n'] := by
      have hkeyReturn : '\r' ∉ lastKey := by
        rw [lastKey_eq]
        decide
      rw [beginMarker_eq, endMarker_eq, beginStart_eq, endStart_eq, markerStop_eq]
      simp [hkeyReturn, (textFor_closingText hpad hne hkey).lineEnds]
    have hline : Line.renderWith blocks.content (Line.block "User_Types") =
        beginMarker lastKey ++ closingText pad key ++ endMarker lastKey ++ ['\n'] := by
      rw [← hclosing]
      rfl
    have hself := readText_append_of_not_mem hreturn []
    rw [List.append_nil] at hself
    rw [List.flatMap_append, hread, List.flatMap_singleton, hline, hself]
    exact congrArg (g ++ ·) (List.append_nil _)
  obtain ⟨code, rest', hcode, hunclosed, hend, heq⟩ : ∃ code rest', code ≠ [] ∧
      ¬ endMarker key <:+: code ++ ['/'] ∧ findAll (userBlock? word) rest' = [] ∧
      rest ++ '\n' :: (g ++ (beginMarker lastKey ++ closingText pad key ++ endMarker lastKey ++ ['\n'])) =
        code ++ endMarker key ++ rest' := by
    -- no end marker of the key begins before
    have hbefore : ∀ t, ¬ endMarker key <:+: beginMarker lastKey ++ t ++ ['/'] →
        ¬ endMarker key <:+: rest ++ '\n' :: (g ++ (beginMarker lastKey ++ t)) ++ ['/'] := by
      intro t ht hin
      rw [List.append_assoc, List.cons_append, List.append_assoc] at hin
      rcases infix_of_infix_append_cons (newline_not_mem_endMarker hkey) hin with hin | hin
      · exact hrest hin
      · exact ht (hpart key hkey _ hin)
    unfold closingText
    by_cases hkeyLast : key = lastKey
    · refine ⟨rest ++ '\n' :: (g ++ (beginMarker lastKey ++ [])), ['\n'], by simp, hbefore _ ?_, ?_, ?_⟩
      · rw [List.append_nil]
        exact not_endMarker_infix_beginMarker hlast
      · exact findAll_newline word
      · rw [if_pos hkeyLast, hkeyLast]
        simp only [List.append_nil, List.append_assoc, List.cons_append]
    · refine ⟨rest ++ '\n' :: (g ++ (beginMarker lastKey ++ pad)), endMarker lastKey ++ ['\n'], by simp,
        hbefore _ ?_, findAll_endMarker word, ?_⟩
      · simp only [List.mem_cons, List.not_mem_nil, or_false] at hpad
        rcases hpad with rfl | rfl
        · rw [List.append_nil]
          exact not_endMarker_infix_beginMarker hlast
        · intro hin
          rw [List.append_assoc, List.singleton_append] at hin
          rcases infix_of_infix_append_cons (newline_not_mem_endMarker hkey) hin with hin | hin
          · exact not_endMarker_infix_beginMarker hlast (hin.trans (List.prefix_append _ _).isInfix)
          · exact (textFor_of_length (by decide) (by decide) : TextFor _ []).unclosed hin
      · rw [if_neg hkeyLast]
        simp only [List.append_assoc, List.cons_append]
  refine ⟨code, hcode, ?_⟩
  rw [hextract blocks hblocks, hstretch, hblock, heq, findAll_userBlock hne hkey hunclosed, hend]

end Layout

-- ---------------------------------------------------------------------------
-- Regeneration of the header
-- ---------------------------------------------------------------------------

/-- Only closed blocks of the last key. -/
def MarkersOfLastKey (word : WordClass) (s : List Char) : Prop :=
  ∀ c ∈ markersIn word s, ∃ code, c = some (lastKey, code)

/-- Only closed blocks, and none of the first two keys. -/
def MarkersOfNoFirstKey (word : WordClass) (s : List Char) : Prop :=
  ∀ c ∈ markersIn word s, ∃ key code, c = some (key, code) ∧
    key ∉ ["Includes", "Private_Defines"].map String.toList

section Header

variable {word : WordClass} {lines lines₁ lines₂ : List Line} {stretch stretch₁ stretch₂ : List Char}
  {texts : String → List Char}

theorem lastKey_not_mem : lastKey ∉ ["Includes", "Private_Defines"].map String.toList := by
  have hne : ∀ s ∈ ["Includes", "Private_Defines"], s ≠ "User_Types" := by decide
  rw [List.mem_map]
  rintro ⟨s, hs, heq⟩
  exact hne s hs (String.toList_inj.mp heq)

/-- The texts as blocks. -/
theorem HeaderLayout.assigned_eq (h : HeaderLayout lines stretch) (texts : String → List Char) :
    assigned lines texts = firstEntries (assigned lines texts).content ++
      [(lastKey, (assigned lines texts).content lastKey)] := by
  have hentries : entries (assigned lines texts).content lines = assigned lines texts :=
    entries_assigned
  unfold entries at hentries
  rw [h.keys] at hentries
  exact hentries.symm

theorem get?_firstEntries {content : List Char → List Char} {key : List Char}
    (h : key ∉ ["Includes", "Private_Defines"].map String.toList) :
    (firstEntries content).get? key = none := by
  refine get?_eq_none.mpr fun e he heq => h ?_
  obtain ⟨k, hk, rfl⟩ := List.mem_map.mp he
  exact heq ▸ List.mem_map_of_mem hk

theorem get?_singleton_self (key text : List Char) :
    UserBlocks.get? [(key, text)] key = some text := by
  simp [UserBlocks.get?]

theorem get?_singleton_ne {key key' : List Char} (h : key ≠ key') (text : List Char) :
    UserBlocks.get? [(key, text)] key' = none :=
  get?_eq_none.mpr fun _ he => List.mem_singleton.mp he ▸ h

/-- The closed markers do not show if they are of the last key. -/
theorem HeaderLayout.get?_extract (h : HeaderLayout lines stretch) (htexts : TextsFor lines texts)
    (hmarkers : MarkersOfLastKey word (stretch ++ ['\n'])) (key : List Char) :
    (extractUserCode word (renderFile lines (assigned lines texts))).get? key =
      (assigned lines texts).get? key := by
  have hall : ∀ c ∈ markersIn word (stretch ++ ['\n']), c ≠ none := by
    rintro c hc rfl
    obtain ⟨code, hcode⟩ := hmarkers _ hc
    cases hcode
  rw [h.extract_closed hall fun key _ => htexts.content key, get?_append, get?_append]
  conv_rhs => rw [h.assigned_eq texts, get?_append]
  by_cases hkey : lastKey = key
  · subst hkey
    rw [get?_singleton_self, Option.some_or, Option.some_or]
  · have hnone : UserBlocks.get? (markersIn word (stretch ++ ['\n'])).reduceOption key = none := by
      refine get?_eq_none.mpr fun e he heq => hkey ?_
      obtain ⟨code, hcode⟩ := hmarkers _ (List.reduceOption_mem_iff.mp he)
      rw [← heq, Option.some.inj hcode]
    rw [get?_singleton_ne hkey, hnone, Option.or_none]

/-- The closed markers do not show in a file if they are not of the first keys. -/
theorem HeaderLayout.content_extract (h : HeaderLayout lines stretch) {blocks : UserBlocks}
    (hblocks : ∀ key ∈ blockKeys lines, TextFor key.toList (blocks.content key.toList))
    (hmarkers : MarkersOfNoFirstKey word (stretch ++ ['\n'])) :
    ∀ key ∈ blockKeys lines, (extractUserCode word (renderFile lines blocks)).content key.toList =
      blocks.content key.toList := by
  have hall : ∀ c ∈ markersIn word (stretch ++ ['\n']), c ≠ none := by
    rintro c hc rfl
    obtain ⟨key, code, hcode, -⟩ := hmarkers _ hc
    cases hcode
  intro key hkey
  have hsplit : key ∈ ["Includes", "Private_Defines"] ∨ key ∈ ["User_Types"] := by
    rw [h.keys] at hkey
    exact List.mem_append.mp hkey
  refine UserBlocks.content_eq ?_
  rw [h.extract_closed hall hblocks, get?_append, get?_append]
  rcases hsplit with hkey | hkey
  · have hfirst : key.toList ∈ ["Includes", "Private_Defines"].map String.toList :=
      List.mem_map_of_mem hkey
    have hlast : lastKey ≠ key.toList := fun heq => lastKey_not_mem (heq ▸ hfirst)
    have hnone : UserBlocks.get? (markersIn word (stretch ++ ['\n'])).reduceOption key.toList = none := by
      refine get?_eq_none.mpr fun e he heq => ?_
      obtain ⟨k, code, hcode, hk⟩ := hmarkers _ (List.reduceOption_mem_iff.mp he)
      rw [Option.some.inj hcode] at heq
      have heq : k = key.toList := heq
      exact hk (heq ▸ hfirst)
    have hentry : (firstEntries blocks.content).get? key.toList = some (blocks.content key.toList) :=
      (get?_entries _ hkey :
        (entries _ [.block "Includes", .block "Private_Defines"]).get? key.toList = _)
    rw [get?_singleton_ne hlast, hnone, Option.none_or, Option.none_or, hentry]
  · obtain rfl := List.mem_singleton.mp hkey
    have hself : UserBlocks.get? [(lastKey, blocks.content lastKey)] "User_Types".toList =
        some (blocks.content "User_Types".toList) := get?_singleton_self lastKey _
    rw [hself, Option.some_or, Option.some_or]

/-- **Enough**: the markers of the old file belong to the last key, those of the new one to no first
key. -/
theorem regenerates_header (h₁ : HeaderLayout lines₁ stretch₁) (h₂ : HeaderLayout lines₂ stretch₂)
    (hmarkers₁ : MarkersOfLastKey word (stretch₁ ++ ['\n']))
    (hmarkers₂ : MarkersOfNoFirstKey word (stretch₂ ++ ['\n'])) (htexts : TextsFor lines₁ texts) :
    Regenerates word lines₁ lines₂ texts := by
  have hextracted := h₁.get?_extract htexts hmarkers₁
  have hcarried : renderFile lines₂ (extractUserCode word (renderFile lines₁ (assigned lines₁ texts))) =
      renderFile lines₂ (assigned lines₁ texts) :=
    renderFile_congr fun key _ => congrArg (fun text => text.getD ['\n']) (hextracted key.toList)
  refine ⟨hextracted, hcarried, ?_⟩
  rw [hcarried]
  exact renderFile_congr (h₂.content_extract (fun key _ => htexts.content key) hmarkers₂)

/-- The same text in every block. -/
theorem textsFor_const {text : List Char} (hreturn : '\r' ∉ text) (h : text.length < 10) :
    TextsFor lines fun _ => text :=
  fun _ _ => textFor_of_length hreturn h

/-- The texts that close an open marker from within the last block; the other blocks are empty. -/
def closingTexts (pad key : List Char) (k : String) : List Char :=
  if k = "User_Types" then closingText pad key else []

theorem textsFor_closingTexts {pad key : List Char} (hpad : pad ∈ [[], ['\n']]) (hne : key ≠ [])
    (hkey : ∀ c ∈ key, word.isWord c = true) : TextsFor lines (closingTexts pad key) := by
  intro k _
  unfold closingTexts
  split_ifs with hk
  · rw [hk]
    exact textFor_closingText hpad hne hkey
  · exact textFor_of_length (by decide) (by decide)

theorem exists_get?_of_mem {blocks : UserBlocks} {key code : List Char} (h : (key, code) ∈ blocks) :
    ∃ text, blocks.get? key = some text := by
  cases hget : blocks.get? key with
  | some text => exact ⟨text, rfl⟩
  | none => exact absurd rfl (get?_eq_none.mp hget _ h)

theorem HeaderLayout.isKey (h : HeaderLayout lines stretch) {key : String}
    (hkey : key ∈ blockKeys lines) : IsKey key.toList := by
  rw [h.keys] at hkey
  simp only [List.mem_cons, List.not_mem_nil, or_false] at hkey
  rcases hkey with rfl | rfl | rfl
  · rw [toList_eq_of_ofList (l := ['I', 'n', 'c', 'l', 'u', 'd', 'e', 's']) rfl]
    exact ⟨List.cons_ne_nil _ _, by decide⟩
  · rw [toList_eq_of_ofList
      (l := ['P', 'r', 'i', 'v', 'a', 't', 'e', '_', 'D', 'e', 'f', 'i', 'n', 'e', 's']) rfl]
    exact ⟨List.cons_ne_nil _ _, by decide⟩
  · exact isKey_lastKey

theorem HeaderLayout.lastKey_mem (h : HeaderLayout lines stretch) : "User_Types" ∈ blockKeys lines := by
  rw [h.keys]
  simp

/-- A marker's own key has no text among the closing ones. -/
theorem get?_closingTexts_ne {pad key code : List Char} (hcode : code ≠ []) :
    (assigned lines (closingTexts pad key)).get? key ≠ some code := by
  intro hget
  obtain ⟨k, -, hk⟩ := List.mem_map.mp (mem_of_get?_eq_some hget)
  obtain ⟨rfl, rfl⟩ := Prod.mk.inj hk
  refine hcode ?_
  unfold closingTexts closingText
  by_cases hlast : k = "User_Types"
  · rw [if_pos hlast, if_pos (by rw [hlast]; rfl)]
  · rw [if_neg hlast]

/-- An open marker of the old file, and texts that do not come back. -/
theorem HeaderLayout.exists_not_extracted (h : HeaderLayout lines stretch)
    (hopen : none ∈ markersIn word (stretch ++ ['\n'])) :
    ∃ key u, u <:+ readText (stretch ++ ['\n']) ∧ (∃ r, opening? word u = some (key, r)) ∧
      TextsFor lines (closingTexts [] key) ∧
      (extractUserCode word (renderFile lines (assigned lines (closingTexts [] key)))).get? key ≠
        (assigned lines (closingTexts [] key)).get? key := by
  obtain ⟨pre, key, hne, hkey, ⟨u, hu, hbegin⟩, hextract⟩ := h.extract_open hopen
  have htexts : TextsFor lines (closingTexts [] key) := textsFor_closingTexts (by simp) hne hkey
  obtain ⟨code, hcode, heq⟩ := hextract [] (by simp) _ (fun key _ => htexts.content key)
    ((content_assigned h.lastKey_mem).trans (if_pos rfl))
  refine ⟨key, u, hu, hbegin, htexts, fun hget => ?_⟩
  rw [heq, get?_append, get?_append, get?_singleton_self, Option.some_or, Option.some_or] at hget
  exact get?_closingTexts_ne hcode hget.symm

/-- **The old file**: every marker belongs to the last key. -/
theorem HeaderLayout.markersOfLastKey (h : HeaderLayout lines stretch)
    (hall : ∀ texts, TextsFor lines texts → ∀ key,
      (extractUserCode word (renderFile lines (assigned lines texts))).get? key =
        (assigned lines texts).get? key) : MarkersOfLastKey word (stretch ++ ['\n']) := by
  by_cases hopen : none ∈ markersIn word (stretch ++ ['\n'])
  · obtain ⟨key, -, -, -, htexts, hne⟩ := h.exists_not_extracted hopen
    exact absurd (hall _ htexts key) hne
  · intro c hc
    cases c with
    | none => exact absurd hc hopen
    | some e =>
      obtain ⟨key, code⟩ := e
      refine ⟨code, ?_⟩
      by_contra hne
      have hlast : lastKey ≠ key := by
        rintro rfl
        exact hne rfl
      -- the entry of the stretch does not depend on the texts
      obtain ⟨text, htext⟩ := exists_get?_of_mem (List.reduceOption_mem_iff.mpr hc)
      have hconst : ∀ t : List Char, '\r' ∉ t → t.length < 10 →
          (assigned lines fun _ => t).get? key = some text := by
        intro t hreturn hlen
        have htexts : TextsFor lines fun _ => t := textsFor_const hreturn hlen
        rw [← hall _ htexts key, h.extract_closed (fun c hc hnone => hopen (hnone ▸ hc))
          fun key _ => htexts.content key, get?_append, get?_append, get?_singleton_ne hlast, htext,
          Option.none_or, Option.some_or]
      have hvalue : ∀ t : List Char, '\r' ∉ t → t.length < 10 → text = t := by
        intro t hreturn hlen
        obtain ⟨k, -, hk⟩ := List.mem_map.mp (mem_of_get?_eq_some (hconst t hreturn hlen))
        exact (Prod.mk.inj hk).2.symm
      have hempty := hvalue [] (by simp) (by simp)
      rw [hvalue ['\n'] (by decide) (by decide)] at hempty
      cases hempty

/-- What a second regeneration does not change is the text of every block. -/
theorem content_of_stable (hkeys : ∀ key ∈ blockKeys lines, IsKey key.toList) {blocks : UserBlocks}
    (hblocks : ∀ key ∈ blockKeys lines, TextFor key.toList (blocks.content key.toList))
    (h : renderFile lines (extractUserCode word (renderFile lines blocks)) = renderFile lines blocks) :
    ∀ key ∈ blockKeys lines,
      (extractUserCode word (renderFile lines blocks)).content key.toList = blocks.content key.toList := by
  rw [renderFile_eq lines (extractUserCode word _), renderFile_eq lines blocks] at h
  rw [← renderFile_eq] at h
  refine content_eq_of_render_eq hkeys (fun key hkey => ⟨?_, (hblocks key hkey).unclosed⟩) h
  unfold UserBlocks.content
  cases hget : (extractUserCode word (renderFile lines blocks)).get? key.toList with
  | none => exact (textFor_of_length (by decide) (by decide)).unclosed
  | some text => exact unclosed_of_mem_extractUserCode (mem_of_get?_eq_some hget)

/-- **The new file**: no marker is open or of one of the first two keys. -/
theorem HeaderLayout.markersOfNoFirstKey (h₁ : HeaderLayout lines₁ stretch₁)
    (h : HeaderLayout lines stretch)
    (hall : ∀ texts, TextsFor lines₁ texts → ∀ key ∈ blockKeys lines,
      (extractUserCode word (renderFile lines (assigned lines₁ texts))).content key.toList =
        (assigned lines₁ texts).content key.toList) : MarkersOfNoFirstKey word (stretch ++ ['\n']) := by
  have hkeys : blockKeys lines = blockKeys lines₁ := h.keys.trans h₁.keys.symm
  by_cases hopen : none ∈ markersIn word (stretch ++ ['\n'])
  · exfalso
    obtain ⟨pre, key, hne, hkey, -, hextract⟩ := h.extract_open hopen
    have hcontent : ∀ pad ∈ [[], ['\n']], ∃ code, code ≠ [] ∧ ∀ k ∈ blockKeys lines,
        UserBlocks.content (firstEntries (assigned lines₁ (closingTexts pad key)).content ++
          (pre ++ [(key, code)])) k.toList = closingTexts pad key k := by
      intro pad hpad
      have htexts : TextsFor lines₁ (closingTexts pad key) := textsFor_closingTexts hpad hne hkey
      obtain ⟨code, hcode, heq⟩ := hextract pad hpad _ (fun k _ => htexts.content k)
        ((content_assigned h₁.lastKey_mem).trans (if_pos rfl))
      refine ⟨code, hcode, fun k hk => ?_⟩
      rw [← heq, hall _ htexts k hk, content_assigned (hkeys ▸ hk)]
    by_cases hmem : ∃ k ∈ blockKeys lines, k.toList = key
    · -- its own block holds the match
      obtain ⟨k, hk, rfl⟩ := hmem
      obtain ⟨code, hcode, hvalue⟩ := hcontent [] (by simp)
      have hown := hvalue k hk
      rw [UserBlocks.content_eq (show UserBlocks.get? _ _ = some code by
        rw [get?_append, get?_append, get?_singleton_self, Option.some_or, Option.some_or])] at hown
      refine hcode (hown.trans ?_)
      unfold closingTexts closingText
      by_cases hlast : k = "User_Types"
      · rw [if_pos hlast, if_pos (by rw [hlast]; rfl)]
      · rw [if_neg hlast]
    · -- the last block is swallowed
      have hlast : key ≠ lastKey := fun heq => hmem ⟨_, h.lastKey_mem, heq.symm⟩
      have hvalue : ∀ pad ∈ [[], ['\n']],
          (UserBlocks.get? pre lastKey).getD ['\n'] = pad ++ endMarker key := by
        intro pad hpad
        obtain ⟨code, -, hvalue⟩ := hcontent pad hpad
        have hlastValue : (UserBlocks.get? (firstEntries
            (assigned lines₁ (closingTexts pad key)).content ++ (pre ++ [(key, code)])) lastKey).getD
              ['\n'] = closingTexts pad key "User_Types" := hvalue _ h.lastKey_mem
        have hget : UserBlocks.get? (firstEntries (assigned lines₁ (closingTexts pad key)).content ++
            (pre ++ [(key, code)])) lastKey = UserBlocks.get? pre lastKey := by
          rw [get?_append, get?_append, get?_singleton_ne hlast, get?_firstEntries lastKey_not_mem,
            Option.none_or, Option.or_none]
        rw [hget] at hlastValue
        rw [hlastValue, closingTexts, if_pos rfl, closingText, if_neg hlast]
      have hlengths := congrArg List.length ((hvalue [] (by simp)).symm.trans (hvalue ['\n'] (by simp)))
      simp at hlengths
  · have hclosed : ∀ c ∈ markersIn word (stretch ++ ['\n']), c ≠ none :=
      fun c hc hnone => hopen (hnone ▸ hc)
    intro c hc
    cases c with
    | none => exact absurd hc hopen
    | some e =>
      obtain ⟨key, code⟩ := e
      refine ⟨key, code, rfl, fun hfirst => ?_⟩
      have hlast : lastKey ≠ key := fun heq => lastKey_not_mem (heq ▸ hfirst)
      obtain ⟨k, hk, rfl⟩ := List.mem_map.mp hfirst
      have hkmem : k ∈ blockKeys lines := by
        rw [h.keys]
        exact List.mem_append_left ["User_Types"] hk
      obtain ⟨text, htext⟩ := exists_get?_of_mem (List.reduceOption_mem_iff.mpr hc)
      have hvalue : ∀ t : List Char, '\r' ∉ t → t.length < 10 → text = t := by
        intro t hreturn hlen
        have htexts : TextsFor lines₁ fun _ => t := textsFor_const hreturn hlen
        have hcontent := hall _ htexts k hkmem
        rw [h.extract_closed hclosed fun key _ => htexts.content key,
          content_assigned (hkeys ▸ hkmem)] at hcontent
        rw [← hcontent]
        refine (UserBlocks.content_eq ?_).symm
        rw [get?_append, get?_append, get?_singleton_ne hlast, htext, Option.none_or, Option.some_or]
      have hempty := hvalue [] (by simp) (by simp)
      rw [hvalue ['\n'] (by decide) (by decide)] at hempty
      cases hempty

/-- **Regeneration of the header.** -/
theorem regenerates_header_iff (h₁ : HeaderLayout lines₁ stretch₁) (h₂ : HeaderLayout lines₂ stretch₂) :
    (∀ texts, TextsFor lines₁ texts → Regenerates word lines₁ lines₂ texts) ↔
      MarkersOfLastKey word (stretch₁ ++ ['\n']) ∧ MarkersOfNoFirstKey word (stretch₂ ++ ['\n']) := by
  constructor
  · intro hall
    refine ⟨h₁.markersOfLastKey fun texts htexts => (hall texts htexts).extracted,
      h₁.markersOfNoFirstKey h₂ fun texts htexts => ?_⟩
    have hregenerates := hall texts htexts
    have hstable := hregenerates.stable
    rw [hregenerates.carried] at hstable
    refine content_of_stable (fun key hkey => ?_) (fun key _ => htexts.content key) hstable
    exact h₂.isKey hkey
  · rintro ⟨hmarkers₁, hmarkers₂⟩ texts htexts
    exact regenerates_header h₁ h₂ hmarkers₁ hmarkers₂ htexts

end Header

end AutoSerialBridge
