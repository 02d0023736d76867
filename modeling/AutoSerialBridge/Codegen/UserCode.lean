import AutoSerialBridge.Codegen.McuFiles
import AutoSerialBridge.Lib.Findall

/-!
# Auto Serial Bridge — USER CODE blocks

`extract_user_code`: the matches of
`/\* USER CODE BEGIN (\w+) \*/(.*?)/\* USER CODE END \1 \*/` in the text of an old file, from left to
right. A line without `/* ` is skipped, and a block that `render_block` wrote comes back with its text,
whatever the text contains but its own end marker.

`\w` of a character that is not ASCII is a parameter (`WordClass`).

## Results

* `extractUserCode_lines`: the blocks of a file whose other lines have no marker.
* `content_eq_of_render_eq`: a file determines the texts in its blocks.
* `regenerates_of_unmarked`: **regeneration between two such files keeps the blocks**.
-/

namespace AutoSerialBridge

open Lib

-- ---------------------------------------------------------------------------
-- extract_user_code
-- ---------------------------------------------------------------------------

/-- `\w`. -/
structure WordClass where
  isWord : Char → Bool
  ascii : ∀ c : Char, c.toNat < 128 → isWord c = isWordChar c

/-- A file as text: every line end becomes a newline. -/
def readText : List Char → List Char
  | [] => []
  | c :: rest =>
    if c = '\r' then
      -- a carriage return before a newline is dropped
      if rest.head? = some '\n' then readText rest else '\n' :: readText rest
    else c :: readText rest

/-- The marker texts around the key. -/
def beginStart : List Char := "/* USER CODE BEGIN ".toList

@[inherit_doc beginStart]
def endStart : List Char := "/* USER CODE END ".toList

@[inherit_doc beginStart]
def markerStop : List Char := " */".toList

/-- A begin marker at the head: its key, and what follows it. -/
def opening? (word : WordClass) (s : List Char) : Option (List Char × List Char) := do
  let s ← s.dropPrefix? beginStart
  let key := s.takeWhile word.isWord
  if key = [] then none
  else do
    let rest ← (s.dropWhile word.isWord).dropPrefix? markerStop
    return (key, rest)

/-- A block at the head, and its length. -/
def userBlock? (word : WordClass) (s : List Char) : Option ((List Char × List Char) × Nat) := do
  let (key, rest) ← opening? word s
  let (code, after) ← rest.dropInfix? (endMarker key)
  return ((key, code), s.length - after.length)

/-- `extract_user_code`, given the content of the file. -/
def extractUserCode (word : WordClass) (content : List Char) : UserBlocks :=
  findAll (userBlock? word) (readText content)

/-- A block at the head, or a begin marker that nothing closes. -/
def marker? (word : WordClass) (s : List Char) :
    Option (Option (List Char × List Char) × Nat) := do
  let (key, rest) ← opening? word s
  match rest.dropInfix? (endMarker key) with
  | some (code, after) => return (some (key, code), s.length - after.length)
  | none => return (none, 1)

-- ---------------------------------------------------------------------------
-- Reading
-- ---------------------------------------------------------------------------

theorem readText_append_of_not_mem {s : List Char} (hs : '\r' ∉ s) (t : List Char) :
    readText (s ++ t) = s ++ readText t := by
  induction s with
  | nil => rfl
  | cons c s ih =>
    rw [List.mem_cons, not_or] at hs
    rw [List.cons_append, readText, if_neg (Ne.symm hs.1), ih hs.2, List.cons_append]

/-- A line of a file is read on its own, and no text without a newline comes into being. -/
theorem readText_line (s : List Char) : ∃ g, (∀ t, readText (s ++ '\n' :: t) = g ++ '\n' :: readText t) ∧
    ∀ pat, '\n' ∉ pat → (pat <+: g → pat <+: s) ∧ (pat <:+: g → pat <:+: s) := by
  induction s with
  | nil => exact ⟨[], fun _ => rfl, fun _ _ => ⟨id, id⟩⟩
  | cons c s ih =>
    obtain ⟨g, hread, hpat⟩ := ih
    have hnil : ∀ pat r : List Char, '\n' ∉ pat → pat <+: '\n' :: r → pat = [] := by
      intro pat r hne hp
      cases pat with
      | nil => rfl
      | cons a pat =>
        obtain ⟨rfl, -⟩ := List.cons_prefix_cons.mp hp
        exact absurd List.mem_cons_self hne
    by_cases hc : c = '\r'
    · by_cases hhead : (s ++ ['\n']).head? = some '\n'
      · refine ⟨g, fun t => ?_, fun pat hne => ⟨fun hp => ?_, fun hp => ?_⟩⟩
        · have hhead : (s ++ '\n' :: t).head? = some '\n' := by
            cases s <;> exact hhead
          rw [List.cons_append, readText, if_pos hc, if_pos hhead, hread]
        · have hs := ((hpat pat hne).1 hp).trans (List.prefix_append s ['\n'])
          obtain ⟨r, hr⟩ := List.head?_eq_some_iff.mp hhead
          rw [hnil pat r hne (hr ▸ hs)]
          exact List.nil_prefix
        · exact ((hpat pat hne).2 hp).trans (List.suffix_cons c s).isInfix
      · refine ⟨'\n' :: g, fun t => ?_, fun pat hne => ⟨fun hp => ?_, fun hp => ?_⟩⟩
        · have hhead : (s ++ '\n' :: t).head? ≠ some '\n' := by
            cases s <;> exact hhead
          rw [List.cons_append, readText, if_pos hc, if_neg hhead, hread, List.cons_append]
        · rw [hnil pat g hne hp]
          exact List.nil_prefix
        · rcases List.infix_cons_iff.mp hp with hp | hp
          · rw [hnil pat g hne hp]
            exact List.nil_infix
          · exact ((hpat pat hne).2 hp).trans (List.suffix_cons c s).isInfix
    · have hbegins : ∀ pat, '\n' ∉ pat → pat <+: c :: g → pat <+: c :: s := by
        intro pat hne hp
        cases pat with
        | nil => exact List.nil_prefix
        | cons a pat =>
          rw [List.cons_prefix_cons] at hp ⊢
          rw [List.mem_cons, not_or] at hne
          exact ⟨hp.1, (hpat pat hne.2).1 hp.2⟩
      refine ⟨c :: g, fun t => ?_, fun pat hne => ⟨hbegins pat hne, fun hp => ?_⟩⟩
      · rw [List.cons_append, readText, if_neg hc, hread, List.cons_append]
      · rcases List.infix_cons_iff.mp hp with hp | hp
        · exact (hbegins pat hne hp).isInfix
        · exact ((hpat pat hne).2 hp).trans (List.suffix_cons c s).isInfix

-- ---------------------------------------------------------------------------
-- Markers
-- ---------------------------------------------------------------------------

/-- A key that `\w+` matches whatever a character outside ASCII is. -/
def IsKey (key : List Char) : Prop := key ≠ [] ∧ ∀ c ∈ key, isWordChar c = true

/-- A text without `/* `. -/
def Unmarked (s : List Char) : Prop := ¬ ['/', '*', ' '] <:+: s

instance (s : List Char) : Decidable (Unmarked s) := inferInstanceAs (Decidable (¬ _))

/-- A text that the block of a key can hold. -/
structure TextFor (key text : List Char) : Prop where
  lineEnds : '\r' ∉ text
  unclosed : ¬ endMarker key <:+: text ++ ['/']

theorem isWordChar_ascii {c : Char} (h : isWordChar c = true) : c.toNat < 128 := by
  unfold isWordChar Char.isAlphanum Char.isAlpha Char.isUpper Char.isLower Char.isDigit at h
  simp only [Bool.or_eq_true, Bool.and_eq_true, decide_eq_true_eq, ge_iff_le] at h
  have hle : ∀ d : Char, c.val ≤ d.val → d.toNat < 128 → c.toNat < 128 :=
    fun d hcd hd => (UInt32.le_iff_toNat_le.mp hcd).trans_lt hd
  rcases h with ((h | h) | h) | rfl
  · exact hle 'Z' h.2 (by decide)
  · exact hle 'z' h.2 (by decide)
  · exact hle '9' h.2 (by decide)
  · decide

theorem toList_eq_of_ofList {s : String} {l : List Char} (h : s = String.ofList l) : s.toList = l := by
  rw [h, String.toList_ofList]

theorem beginStart_eq : beginStart = ['/', '*', ' ', 'U', 'S', 'E', 'R', ' ', 'C', 'O', 'D', 'E', ' ',
    'B', 'E', 'G', 'I', 'N', ' '] :=
  toList_eq_of_ofList rfl

theorem endStart_eq : endStart = ['/', '*', ' ', 'U', 'S', 'E', 'R', ' ', 'C', 'O', 'D', 'E', ' ', 'E',
    'N', 'D', ' '] :=
  toList_eq_of_ofList rfl

theorem markerStop_eq : markerStop = [' ', '*', '/'] := toList_eq_of_ofList rfl

theorem beginMarker_eq (key : List Char) : beginMarker key = beginStart ++ key ++ markerStop := rfl

theorem endMarker_eq (key : List Char) : endMarker key = endStart ++ key ++ markerStop := rfl

section Markers

variable {word : WordClass} {s rest key text : List Char}

theorem WordClass.isWord_of_isWordChar (word : WordClass) {c : Char} (h : isWordChar c = true) :
    word.isWord c = true :=
  (word.ascii c (isWordChar_ascii h)).trans h

/-- The characters around the keys are no word characters. -/
theorem WordClass.not_isWord (word : WordClass) {c : Char} (hc : c ∈ ['/', '*', ' ', '\n', '\r']) :
    word.isWord c = false := by
  have hall : ∀ c ∈ ['/', '*', ' ', '\n', '\r'], c.toNat < 128 ∧ isWordChar c = false := by decide
  obtain ⟨hascii, hword⟩ := hall c hc
  exact (word.ascii c hascii).trans hword

/-- **A begin marker**, with the longest key. -/
theorem opening?_eq_some :
    opening? word s = some (key, rest) ↔
      s = beginMarker key ++ rest ∧ key ≠ [] ∧ ∀ c ∈ key, word.isWord c = true := by
  unfold opening?
  simp only [Option.bind_eq_bind, Option.bind_eq_some_iff, dropPrefix?_eq_some, Option.pure_def,
    Option.ite_none_left_eq_some, Option.some.injEq, Prod.mk.injEq]
  constructor
  · rintro ⟨s', rfl, hne, rest', hrest, rfl, rfl⟩
    refine ⟨?_, hne, List.all_eq_true.mp List.all_takeWhile⟩
    rw [beginMarker_eq, List.append_assoc, List.append_assoc, ← hrest,
      List.takeWhile_append_dropWhile]
  · rintro ⟨rfl, hne, hkey⟩
    have hspace : word.isWord ' ' = false := word.not_isWord (by decide)
    have htake : (key ++ (markerStop ++ rest)).takeWhile word.isWord = key := by
      rw [List.takeWhile_append_of_pos hkey, markerStop_eq, List.cons_append,
        List.takeWhile_cons_of_neg (by simp [hspace]), List.append_nil]
    have hdrop : (key ++ (markerStop ++ rest)).dropWhile word.isWord = markerStop ++ rest := by
      rw [List.dropWhile_append_of_pos hkey, markerStop_eq, List.cons_append,
        List.dropWhile_cons_of_neg (by simp [hspace])]
    refine ⟨key ++ (markerStop ++ rest), by simp [beginMarker_eq], ?_⟩
    rw [htake, hdrop]
    exact ⟨hne, rest, rfl, rfl, rfl⟩

theorem newline_not_mem_beginMarker (hkey : ∀ c ∈ key, word.isWord c = true) :
    '\n' ∉ beginMarker key := by
  have hne : '\n' ∉ key := fun h => by
    have htrue := hkey _ h
    rw [word.not_isWord (by decide)] at htrue
    cases htrue
  rw [beginMarker_eq, beginStart_eq, markerStop_eq, List.append_assoc, List.mem_append,
    List.mem_append]
  rintro (h | h | h)
  · exact absurd h (by decide)
  · exact hne h
  · exact absurd h (by decide)

theorem opening?_append (h : opening? word s = some (key, rest)) (t : List Char) :
    opening? word (s ++ t) = some (key, rest ++ t) := by
  rw [opening?_eq_some] at h ⊢
  obtain ⟨rfl, hkey⟩ := h
  exact ⟨List.append_assoc _ _ _, hkey⟩

/-- A begin marker does not cross a line end. -/
theorem opening?_line {t : List Char} (h : opening? word (s ++ '\n' :: t) = some (key, rest)) :
    ∃ rest', opening? word s = some (key, rest') := by
  obtain ⟨heq, hne, hkey⟩ := opening?_eq_some.mp h
  obtain ⟨rest', rfl⟩ := prefix_of_prefix_append_cons (newline_not_mem_beginMarker hkey) ⟨rest, heq.symm⟩
  exact ⟨rest', opening?_eq_some.mpr ⟨rfl, hne, hkey⟩⟩

/-- There is none where no `/* ` is. -/
theorem Unmarked.opening? (h : Unmarked s) (t : List Char) : opening? word (s ++ '\n' :: t) = none := by
  cases hopen : AutoSerialBridge.opening? word (s ++ '\n' :: t) with
  | none => rfl
  | some e =>
    obtain ⟨rest', hs⟩ := opening?_line (hopen : AutoSerialBridge.opening? word _ = some (e.1, e.2))
    obtain ⟨rfl, -⟩ := opening?_eq_some.mp hs
    refine absurd ⟨[], ?_, ?_⟩ h
    rotate_left
    · rw [beginMarker_eq, beginStart_eq]
      exact rfl

theorem endMarker_delimited (key : List Char) :
    endMarker key = '/' :: (endStart.tail ++ key ++ markerStop.dropLast ++ ['/']) := by
  rw [endMarker_eq, endStart_eq, markerStop_eq]
  simp

/-- The end marker of a key has no other `/` between its two ends. -/
theorem slash_not_mem_endMarker (hkey : ∀ c ∈ key, word.isWord c = true) :
    '/' ∉ endStart.tail ++ key ++ markerStop.dropLast := by
  have hne : '/' ∉ key := fun h => by
    have htrue := hkey _ h
    rw [word.not_isWord (by decide)] at htrue
    cases htrue
  rw [endStart_eq, markerStop_eq, List.mem_append, List.mem_append]
  rintro ((h | h) | h)
  · exact absurd h (by decide)
  · exact hne h
  · exact absurd h (by decide)

/-- A text ends at the first end marker of its key. -/
theorem dropInfix?_endMarker (hkey : ∀ c ∈ key, word.isWord c = true)
    (htext : ¬ endMarker key <:+: text ++ ['/']) (rest : List Char) :
    (text ++ endMarker key ++ rest).dropInfix? (endMarker key) = some (text, rest) := by
  rw [endMarker_delimited] at htext ⊢
  exact dropInfix?_delimited (slash_not_mem_endMarker hkey) htext

theorem unclosed_of_dropInfix? {after : List Char} (hkey : ∀ c ∈ key, word.isWord c = true)
    (h : s.dropInfix? (endMarker key) = some (text, after)) :
    s = text ++ endMarker key ++ after ∧ ¬ endMarker key <:+: text ++ ['/'] := by
  rw [endMarker_delimited] at h ⊢
  rw [dropInfix?_eq_some_iff_dropLast (List.cons_ne_nil _ _),
    infix_append_dropLast_iff (slash_not_mem_endMarker hkey)] at h
  exact h

theorem IsKey.isWord (h : IsKey key) (word : WordClass) : ∀ c ∈ key, word.isWord c = true :=
  fun c hc => word.isWord_of_isWordChar (h.2 c hc)

/-- The two readings of a text that ends with its line. -/
theorem closes_line (word : WordClass) (s : List Char) :
    Closes (userBlock? word) (marker? word) (s ++ ['\n']) where
  none := by
    intro u hu hne hnone t
    have hopen : opening? word u = none := by
      cases hopen : opening? word u with
      | none => rfl
      | some e =>
        unfold marker? at hnone
        rw [hopen] at hnone
        cases hdrop : e.2.dropInfix? (endMarker e.1) <;> simp [hdrop] at hnone
    obtain ⟨v, rfl⟩ : ∃ v, u = v ++ ['\n'] := by
      rcases List.suffix_concat_iff.mp hu with rfl | ⟨v, rfl, -⟩
      · exact absurd rfl hne
      · exact ⟨v, rfl⟩
    unfold userBlock?
    rw [List.append_assoc, List.singleton_append]
    cases hopen' : opening? word (v ++ '\n' :: t) with
    | none => rfl
    | some e =>
      obtain ⟨rest', hv⟩ := opening?_line (hopen' : AutoSerialBridge.opening? word _ = some (e.1, e.2))
      rw [opening?_append hv] at hopen
      cases hopen
  some := by
    rintro u - ⟨key, code⟩ n hmarker
    unfold marker? at hmarker
    cases hopen : opening? word u with
    | none => simp [hopen] at hmarker
    | some e =>
      obtain ⟨key', rest⟩ := e
      rw [hopen] at hmarker
      cases hdrop : rest.dropInfix? (endMarker key') with
      | none => simp [hdrop] at hmarker
      | some e =>
        obtain ⟨code', after⟩ := e
        simp only [Option.bind_eq_bind, Option.bind_some, hdrop, Option.pure_def, Option.some.injEq,
          Prod.mk.injEq] at hmarker
        obtain ⟨⟨rfl, rfl⟩, rfl⟩ := hmarker
        obtain ⟨rfl, hne, hkey⟩ := opening?_eq_some.mp hopen
        obtain ⟨rfl, -⟩ := unclosed_of_dropInfix? hkey hdrop
        have hpos : 0 < (beginMarker key').length := by
          rw [beginMarker_eq, beginStart_eq]
          simp
        refine ⟨?_, Nat.sub_le _ _, fun t => ?_⟩
        · simp only [List.length_append]
          omega
        · have hnil : endMarker key' ≠ [] := by
            rw [endMarker_delimited]
            exact List.cons_ne_nil _ _
          unfold userBlock?
          rw [opening?_append hopen]
          simp only [Option.bind_eq_bind, Option.bind_some, dropInfix?_append hnil hdrop,
            Option.pure_def, List.length_append, Option.some.injEq, Prod.mk.injEq, true_and]
          omega

end Markers

-- ---------------------------------------------------------------------------
-- The blocks of a file
-- ---------------------------------------------------------------------------

section Extract

variable {word : WordClass} {s key text : List Char}

/-- A line without a marker is skipped by everything that begins at a begin marker. -/
theorem findAll_unmarked {β : Type} {f : List Char → Option (β × Nat)}
    (hf : ∀ s, opening? word s = none → f s = none) (hs : Unmarked s) (t : List Char) :
    findAll f (readText (s ++ '\n' :: t)) = findAll f (readText t) := by
  obtain ⟨g, hread, hpat⟩ := readText_line s
  have hg : Unmarked g := fun h => hs ((hpat _ (by decide)).2 h)
  rw [hread, List.append_cons]
  refine findAll_append_of_none fun u hu hne => ?_
  obtain ⟨v, rfl, hv⟩ : ∃ v, u = v ++ ['\n'] ∧ v <:+ g := by
    rcases List.suffix_concat_iff.mp hu with rfl | ⟨v, rfl, hv⟩
    · exact absurd rfl hne
    · exact ⟨v, rfl, hv⟩
  rw [List.append_assoc, List.singleton_append]
  exact hf _ (Unmarked.opening? (fun h => hg (h.trans hv.isInfix)) _)

theorem userBlock?_eq_none (h : opening? word s = none) : userBlock? word s = none := by
  unfold userBlock?
  rw [h]
  rfl

theorem marker?_eq_none (h : opening? word s = none) : marker? word s = none := by
  unfold marker?
  rw [h]
  rfl

theorem extractUserCode_unmarked (hs : Unmarked s) (t : List Char) :
    extractUserCode word (s ++ '\n' :: t) = extractUserCode word t :=
  findAll_unmarked (fun _ => userBlock?_eq_none) hs t

/-- A match at the head ends at the first end marker. -/
theorem findAll_userBlock (hne : key ≠ []) (hkey : ∀ c ∈ key, word.isWord c = true)
    (htext : ¬ endMarker key <:+: text ++ ['/']) (t : List Char) :
    findAll (userBlock? word) (beginMarker key ++ (text ++ endMarker key ++ t)) =
      (key, text) :: findAll (userBlock? word) t := by
  have hblock : userBlock? word (beginMarker key ++ (text ++ endMarker key ++ t)) =
      some ((key, text), (beginMarker key ++ text ++ endMarker key).length) := by
    unfold userBlock?
    rw [opening?_eq_some.mpr ⟨rfl, hne, hkey⟩]
    simp only [Option.bind_eq_bind, Option.bind_some, Option.pure_def,
      dropInfix?_endMarker hkey htext, List.length_append, Option.some.injEq, Prod.mk.injEq, true_and]
    omega
  have hpos : 0 < (beginMarker key ++ text ++ endMarker key).length := by
    rw [beginMarker_eq, beginStart_eq]
    simp
  have hrest : (beginMarker key ++ (text ++ endMarker key ++ t)).drop
      (beginMarker key ++ text ++ endMarker key).length = t := by
    rw [← List.append_assoc, ← List.append_assoc, List.drop_left]
  rw [findAll_of_match hblock hpos (by rw [beginMarker_eq, beginStart_eq]; simp), hrest]

/-- A block comes back with its text. -/
theorem extractUserCode_block (hkey : IsKey key) (htext : TextFor key text) (t : List Char) :
    extractUserCode word (beginMarker key ++ text ++ endMarker key ++ '\n' :: t) =
      (key, text) :: extractUserCode word t := by
  have hreturn : '\r' ∉ beginMarker key ++ text ++ endMarker key := by
    have hkeyReturn : '\r' ∉ key := fun h => absurd (hkey.2 _ h) (by decide)
    rw [beginMarker_eq, endMarker_eq, beginStart_eq, endStart_eq, markerStop_eq]
    simp [hkeyReturn, htext.lineEnds]
  have hread : readText (beginMarker key ++ text ++ endMarker key ++ '\n' :: t) =
      beginMarker key ++ (text ++ endMarker key ++ '\n' :: readText t) := by
    rw [readText_append_of_not_mem hreturn, readText, if_neg (by decide)]
    simp only [List.append_assoc]
  have hnewline : opening? word ('\n' :: readText t) = none :=
    Unmarked.opening? (s := []) (by decide) _
  unfold extractUserCode
  rw [hread, findAll_userBlock hkey.1 (hkey.isWord word) htext.unclosed,
    findAll_cons_of_none (userBlock?_eq_none hnewline)]

/-- A text that comes back does not hold the end marker of its key. -/
theorem unclosed_of_mem_extractUserCode {content : List Char}
    (h : (key, text) ∈ extractUserCode word content) : ¬ endMarker key <:+: text ++ ['/'] := by
  obtain ⟨u, n, -, hmatch⟩ := exists_match_of_mem h
  unfold userBlock? at hmatch
  cases hopen : opening? word u with
  | none => simp [hopen] at hmatch
  | some e =>
    cases hdrop : e.2.dropInfix? (endMarker e.1) with
    | none => simp [hopen, hdrop] at hmatch
    | some e' =>
      simp only [hopen, Option.bind_eq_bind, Option.bind_some, hdrop, Option.pure_def,
        Option.some.injEq, Prod.mk.injEq] at hmatch
      obtain ⟨⟨rfl, rfl⟩, -⟩ := hmatch
      obtain ⟨-, -, hkey⟩ := opening?_eq_some.mp hopen
      exact (unclosed_of_dropInfix? hkey hdrop).2

/-- A line outside the blocks. -/
def Line.Unmarked : Line → Prop
  | code parts => AutoSerialBridge.Unmarked (parts.flatMap Part.render)
  | block key => IsKey key.toList

/-- A line with the given texts in its block. -/
def Line.renderWith (content : List Char → List Char) : Line → List Char
  | code parts => parts.flatMap Part.render ++ ['\n']
  | block key =>
    beginMarker key.toList ++ content key.toList ++ endMarker key.toList ++ ['\n']

/-- The text in the block of a key. -/
def UserBlocks.content (blocks : UserBlocks) (key : List Char) : List Char :=
  (blocks.get? key).getD ['\n']

theorem UserBlocks.content_eq {blocks : UserBlocks} {key text : List Char}
    (h : blocks.get? key = some text) : blocks.content key = text := by
  unfold content
  rw [h, Option.getD_some]

theorem renderFile_eq (lines : List Line) (blocks : UserBlocks) :
    renderFile lines blocks = lines.flatMap (Line.renderWith blocks.content) := by
  unfold renderFile
  refine List.flatMap_congr fun line _ => ?_
  cases line <;> rfl

/-- The blocks of the lines, with the given texts. -/
def entries (content : List Char → List Char) (lines : List Line) : UserBlocks :=
  (blockKeys lines).map fun key => (key.toList, content key.toList)

/-- **The blocks of a file** whose other lines have no marker. -/
theorem extractUserCode_lines {content : List Char → List Char} {lines : List Line}
    (hlines : ∀ line ∈ lines, line.Unmarked)
    (hcontent : ∀ key ∈ blockKeys lines, TextFor key.toList (content key.toList)) (t : List Char) :
    extractUserCode word (lines.flatMap (Line.renderWith content) ++ t) =
      entries content lines ++ extractUserCode word t := by
  induction lines with
  | nil => rfl
  | cons line lines ih =>
    obtain ⟨hline, hrest⟩ := List.forall_mem_cons.mp hlines
    rw [List.flatMap_cons, List.append_assoc]
    cases line with
    | code parts =>
      rw [Line.renderWith, List.append_assoc, List.singleton_append, extractUserCode_unmarked hline]
      exact ih hrest hcontent
    | block key =>
      have hkeys : blockKeys (.block key :: lines) = key :: blockKeys lines := rfl
      rw [hkeys, List.forall_mem_cons] at hcontent
      rw [Line.renderWith, List.append_assoc, List.singleton_append,
        extractUserCode_block hline hcontent.1, ih hrest hcontent.2]
      rfl

/-- **A file determines the texts in its blocks.** -/
theorem content_eq_of_render_eq {content content' : List Char → List Char} {lines : List Line}
    (hkeys : ∀ key ∈ blockKeys lines, IsKey key.toList)
    (hcontent : ∀ key ∈ blockKeys lines,
      ¬ endMarker key.toList <:+: content key.toList ++ ['/'] ∧
      ¬ endMarker key.toList <:+: content' key.toList ++ ['/'])
    (h : lines.flatMap (Line.renderWith content) = lines.flatMap (Line.renderWith content')) :
    ∀ key ∈ blockKeys lines, content key.toList = content' key.toList := by
  induction lines with
  | nil => exact nofun
  | cons line lines ih =>
    rw [List.flatMap_cons, List.flatMap_cons] at h
    cases line with
    | code parts => exact ih hkeys hcontent (List.append_cancel_left h)
    | block key =>
      have hcons : blockKeys (.block key :: lines) = key :: blockKeys lines := rfl
      rw [hcons, List.forall_mem_cons] at hkeys hcontent ⊢
      simp only [Line.renderWith, List.append_assoc, List.append_cancel_left_eq] at h
      have hdrop := congrArg (fun s : List Char => s.dropInfix? (endMarker key.toList)) h
      have word : WordClass := ⟨isWordChar, fun _ _ => rfl⟩
      simp only [← List.append_assoc (content key.toList), ← List.append_assoc (content' key.toList)]
        at hdrop
      rw [dropInfix?_endMarker (hkeys.1.isWord word) hcontent.1.1,
        dropInfix?_endMarker (hkeys.1.isWord word) hcontent.1.2] at hdrop
      obtain ⟨htext, hrest⟩ := Prod.mk.inj (Option.some.inj hdrop)
      exact ⟨htext, ih hkeys.2 hcontent.2 (List.append_cancel_left hrest)⟩

end Extract

-- ---------------------------------------------------------------------------
-- Regeneration
-- ---------------------------------------------------------------------------

section Lookup

variable {content : List Char → List Char} {lines : List Line} {key : List Char}

/-- The last assignment counts. -/
theorem get?_append (blocks blocks' : UserBlocks) (key : List Char) :
    UserBlocks.get? (blocks ++ blocks') key = (blocks'.get? key).or (blocks.get? key) := by
  unfold UserBlocks.get?
  rw [List.reverse_append, List.lookup_append]

theorem get?_eq_none {blocks : UserBlocks} : blocks.get? key = none ↔ ∀ e ∈ blocks, e.1 ≠ key := by
  unfold UserBlocks.get?
  rw [List.lookup_eq_none_iff]
  simp only [List.mem_reverse, bne_iff_ne, ne_eq, @eq_comm _ key]

theorem mem_of_get?_eq_some {blocks : UserBlocks} {text : List Char} (h : blocks.get? key = some text) :
    (key, text) ∈ blocks := by
  obtain ⟨l₁, l₂, heq, -⟩ := List.lookup_eq_some_iff.mp h
  rw [← List.mem_reverse, heq]
  simp

theorem get?_entries (content : List Char → List Char) {key : String} (h : key ∈ blockKeys lines) :
    (entries content lines).get? key.toList = some (content key.toList) := by
  cases hget : (entries content lines).get? key.toList with
  | none => exact absurd rfl (get?_eq_none.mp hget _ (List.mem_map_of_mem h))
  | some text =>
    obtain ⟨k, -, hk⟩ := List.mem_map.mp (mem_of_get?_eq_some hget)
    obtain ⟨hkey, rfl⟩ := Prod.mk.inj hk
    rw [hkey]

theorem get?_entries_eq_none (content : List Char → List Char)
    (h : ∀ k ∈ blockKeys lines, k.toList ≠ key) : (entries content lines).get? key = none := by
  rw [get?_eq_none]
  intro e he
  obtain ⟨k, hk, rfl⟩ := List.mem_map.mp he
  exact h k hk

end Lookup

/-- A text for the block of every key of a file. -/
def assigned (lines : List Line) (texts : String → List Char) : UserBlocks :=
  (blockKeys lines).map fun key => (key.toList, texts key)

/-- No text contains the end marker of its key, and every line ends with a newline. -/
def TextsFor (lines : List Line) (texts : String → List Char) : Prop :=
  ∀ key ∈ blockKeys lines, TextFor key.toList (texts key)

/-- A file with these texts in its blocks, generated from other lines, and once more: the old file gives
back exactly the texts, the new one carries them where it has the key, and then nothing changes. -/
structure Regenerates (word : WordClass) (lines lines' : List Line) (texts : String → List Char) :
    Prop where
  extracted : ∀ key, (extractUserCode word (renderFile lines (assigned lines texts))).get? key =
    (assigned lines texts).get? key
  carried : renderFile lines' (extractUserCode word (renderFile lines (assigned lines texts))) =
    renderFile lines' (assigned lines texts)
  stable : renderFile lines' (extractUserCode word (renderFile lines'
      (extractUserCode word (renderFile lines (assigned lines texts))))) =
    renderFile lines' (extractUserCode word (renderFile lines (assigned lines texts)))

section Regenerates

variable {word : WordClass} {lines lines' : List Line} {texts : String → List Char}

/-- The texts by the characters of the keys. -/
theorem content_assigned {key : String} (h : key ∈ blockKeys lines) :
    (assigned lines texts).content key.toList = texts key := by
  have hentries : assigned lines texts = entries (fun k => texts (String.ofList k)) lines := by
    unfold assigned entries
    simp only [String.ofList_toList]
  rw [hentries]
  exact (UserBlocks.content_eq (get?_entries _ h)).trans (by rw [String.ofList_toList])

/-- The same blocks give the same file. -/
theorem renderFile_congr {blocks blocks' : UserBlocks}
    (h : ∀ key ∈ blockKeys lines, blocks.content key.toList = blocks'.content key.toList) :
    renderFile lines blocks = renderFile lines blocks' := by
  rw [renderFile_eq, renderFile_eq]
  refine List.flatMap_congr fun line hline => ?_
  cases line with
  | code parts => rfl
  | block key =>
    have hmem : key ∈ blockKeys lines := List.mem_filterMap.mpr ⟨_, hline, rfl⟩
    rw [Line.renderWith, Line.renderWith, h key hmem]

theorem mem_blockKeys {key : String} : key ∈ blockKeys lines ↔ .block key ∈ lines := by
  unfold blockKeys
  rw [List.mem_filterMap]
  constructor
  · rintro ⟨line, hline, hkey⟩
    cases line with
    | code parts => cases hkey
    | block k => exact Option.some.inj hkey ▸ hline
  · exact fun h => ⟨_, h, rfl⟩

/-- A short text holds no end marker. -/
theorem textFor_of_length {key text : List Char} (hreturn : '\r' ∉ text) (h : text.length < 10) :
    TextFor key text := by
  refine ⟨hreturn, fun hpart => ?_⟩
  have hle := hpart.length_le
  rw [endMarker_eq, endStart_eq] at hle
  simp only [List.length_append, List.length_cons, List.length_nil] at hle
  omega

/-- What a regenerated block holds: the text of its key, or the default. -/
theorem TextsFor.content (h : TextsFor lines texts) (key : String) :
    TextFor key.toList ((assigned lines texts).content key.toList) := by
  by_cases hkey : key ∈ blockKeys lines
  · rw [content_assigned hkey]
    exact h key hkey
  · have hnone : (assigned lines texts).get? key.toList = none := by
      refine get?_eq_none.mpr fun e he heq => ?_
      obtain ⟨k, hk, rfl⟩ := List.mem_map.mp he
      exact hkey (String.toList_inj.mp heq ▸ hk)
    unfold UserBlocks.content
    rw [hnone]
    exact textFor_of_length (by decide) (by decide)

theorem entries_assigned : entries (assigned lines texts).content lines = assigned lines texts :=
  List.map_congr_left fun _ hkey => by rw [content_assigned hkey]

theorem content_entries {content : List Char → List Char} {key : String} (h : key ∈ blockKeys lines) :
    (entries content lines).content key.toList = content key.toList :=
  UserBlocks.content_eq (get?_entries content h)

/-- The blocks of an unmarked file. -/
theorem extractUserCode_renderFile {blocks : UserBlocks} (hlines : ∀ line ∈ lines, line.Unmarked)
    (hblocks : ∀ key ∈ blockKeys lines, TextFor key.toList (blocks.content key.toList)) :
    extractUserCode word (renderFile lines blocks) = entries blocks.content lines := by
  have hextract : extractUserCode word _ = _ := extractUserCode_lines hlines hblocks []
  rw [List.append_nil] at hextract
  rw [renderFile_eq, hextract]
  exact List.append_nil _

/-- **Regeneration between two files without other markers.** -/
theorem regenerates_of_unmarked (hlines : ∀ line ∈ lines, line.Unmarked)
    (hlines' : ∀ line ∈ lines', line.Unmarked) (htexts : TextsFor lines texts) :
    Regenerates word lines lines' texts := by
  have hfile : extractUserCode word (renderFile lines (assigned lines texts)) = assigned lines texts := by
    rw [extractUserCode_renderFile hlines fun key _ => htexts.content key, entries_assigned]
  have hfile' : extractUserCode word (renderFile lines' (assigned lines texts)) =
      entries (assigned lines texts).content lines' :=
    extractUserCode_renderFile hlines' fun key _ => htexts.content key
  refine ⟨fun key => by rw [hfile], by rw [hfile], ?_⟩
  rw [hfile, hfile']
  exact renderFile_congr fun key hkey => content_entries hkey

end Regenerates

end AutoSerialBridge
