import AutoSerialBridge.Codegen.Bindings
import AutoSerialBridge.Codegen.Target
import Mathlib

/-!
# Auto Serial Bridge — the containers of the bindings

Which accesses of the generated bindings are in bounds. A check on a container is written for every
index of every path, and the text of the check on an outer container is shorter than that on an inner
one, so that the sorted checks go from the outside to the inside. A container only gets smaller when
the bindings assign to the whole of it, which C++ takes for a string.

## Results

* `bindingText_ordered`: every size check, and every field, is in bounds of the checks before it.
* `subscriptionCallback_inBounds`: **a subscription never reads out of bounds**.
* `dispatchPacket_outOfBounds_iff`: `dispatch_packet` is out of bounds exactly if it assigns a string
  first and then one of its later characters.
-/

namespace AutoSerialBridge

open Lib

-- ---------------------------------------------------------------------------
-- The expressions
-- ---------------------------------------------------------------------------

/-- The text behind `msg` of an expression. -/
def exprText : Bool → List (List Char) → List Char
  | _, [] => []
  | pointer, segment :: rest =>
    (memberOperator pointer).toList ++ segment ++ exprText false rest

/-- `msg`, and the segments of a path. -/
def exprOf (pointer : Bool) (segments : List (List Char)) : String :=
  "msg" ++ String.ofList (exprText pointer segments)

section Expressions

variable {pointer : Bool} {segment name digits : List Char} {segments pre post : List (List Char)}

theorem isWordChar_of_isIdentifier (h : isIdentifier name = true) :
    ∀ c ∈ name, isWordChar c = true := by
  cases name with
  | nil => nofun
  | cons c rest =>
    unfold isIdentifier at h
    simp only [Bool.and_eq_true, Bool.or_eq_true, decide_eq_true_eq, List.all_eq_true] at h
    intro d hd
    rcases List.mem_cons.mp hd with rfl | hd
    · unfold isWordChar Char.isAlphanum
      simp only [Bool.or_eq_true, decide_eq_true_eq]
      exact h.1.imp_left .inl
    · exact h.2 d hd

theorem rosFieldSegment_of_isIdentifier (h : isIdentifier name = true) :
    rosFieldSegment name = some (name, none) := by
  have hword := isWordChar_of_isIdentifier h
  unfold rosFieldSegment
  have htake : name.takeWhile isWordChar = name := List.takeWhile_eq_self_iff.mpr hword
  have hdrop : name.dropWhile isWordChar = [] := List.dropWhile_eq_nil_iff.mpr hword
  simp only [htake, hdrop, h, if_true]

/-- A segment is its name, and its index in brackets. -/
theorem rosFieldSegment_eq_some {index : Option (List Char)}
    (h : rosFieldSegment segment = some (name, index)) :
    isIdentifier name = true ∧
      segment = name ++ (index.elim [] fun digits => '[' :: digits ++ [']']) := by
  unfold rosFieldSegment at h
  have hsegment : segment.takeWhile isWordChar ++ segment.dropWhile isWordChar = segment :=
    List.takeWhile_append_dropWhile
  simp only [Option.ite_none_right_eq_some] at h
  obtain ⟨hname, h⟩ := h
  split at h
  · next hnil =>
    obtain ⟨rfl, rfl⟩ := Prod.mk.inj (Option.some.inj h)
    refine ⟨hname, ?_⟩
    rw [hnil] at hsegment
    exact hsegment.symm
  · next rest hbracket =>
    split at h
    · next hlast =>
      split_ifs at h
      obtain ⟨rfl, rfl⟩ := Prod.mk.inj (Option.some.inj h)
      refine ⟨hname, ?_⟩
      rw [hbracket] at hsegment
      have hrest : rest.dropLast ++ [']'] = rest := List.dropLast_append_getLast? _ hlast
      rw [Option.elim_some, List.cons_append, hrest]
      exact hsegment.symm
    · cases h
  · cases h

theorem splitChars_append_sep {sep : Char} (h : sep ∉ segment) (rest : List Char) :
    splitChars sep (segment ++ sep :: rest) = segment :: splitChars sep rest := by
  induction segment with
  | nil => simp [splitChars]
  | cons c segment ih =>
    rw [List.mem_cons, not_or] at h
    obtain ⟨hc, hsegment⟩ := h
    rw [List.cons_append, splitChars, if_neg (Ne.symm hc), ih hsegment]

theorem splitChars_of_notMem {sep : Char} (h : sep ∉ segment) : splitChars sep segment = [segment] := by
  induction segment with
  | nil => rfl
  | cons c segment ih =>
    rw [List.mem_cons, not_or] at h
    obtain ⟨hc, hsegment⟩ := h
    rw [splitChars, if_neg (Ne.symm hc), ih hsegment]

theorem notMem_of_mem_splitChars {sep : Char} {s : List Char} (h : segment ∈ splitChars sep s) :
    sep ∉ segment := by
  induction s generalizing segment with
  | nil =>
    obtain rfl := List.mem_singleton.mp h
    exact List.not_mem_nil
  | cons c s ih =>
    unfold splitChars at h
    split_ifs at h with hc
    · rcases List.mem_cons.mp h with rfl | h
      · exact List.not_mem_nil
      · exact ih h
    · split at h
      · next part parts hsplit =>
        rw [hsplit] at ih
        rcases List.mem_cons.mp h with rfl | h
        · rw [List.mem_cons, not_or]
          exact ⟨Ne.symm hc, ih List.mem_cons_self⟩
        · exact ih (List.mem_cons_of_mem _ h)
      · obtain rfl := List.mem_singleton.mp h
        exact fun hmem => hc (List.mem_singleton.mp hmem).symm

/-- The segments come back from the text of an expression. -/
theorem splitChars_exprText (h : ∀ s ∈ segment :: segments, '.' ∉ s) :
    splitChars '.' (segment ++ exprText false segments) = segment :: segments := by
  induction segments generalizing segment with
  | nil =>
    rw [exprText, List.append_nil]
    exact splitChars_of_notMem (h segment List.mem_cons_self)
  | cons next rest ih =>
    have htext : exprText false (next :: rest) = '.' :: (next ++ exprText false rest) := rfl
    rw [htext, splitChars_append_sep (h segment List.mem_cons_self),
      ih fun s hs => h s (List.mem_cons_of_mem _ hs)]

theorem exprText_append : exprText pointer (pre ++ post) =
    exprText pointer pre ++ exprText (pointer && pre.isEmpty) post := by
  induction pre generalizing pointer with
  | nil => simp [exprText]
  | cons s pre ih => simp [exprText, ih]

/-- The place of an expression is that of its segments. -/
theorem cppPlace?_exprOf (hne : segments ≠ []) (h : ∀ s ∈ segments, '.' ∉ s) :
    cppPlace? pointer (exprOf pointer segments) = cppSegments? segments := by
  obtain ⟨segment, segments, rfl⟩ := List.exists_cons_of_ne_nil hne
  have hexpr : (exprOf pointer (segment :: segments)).toList =
      ("msg" ++ memberOperator pointer).toList ++ (segment ++ exprText false segments) := by
    simp [exprOf, exprText]
  unfold cppPlace?
  rw [hexpr]
  simp only [List.prefix_append, List.isPrefixOf_iff_prefix, if_true]
  rw [List.drop_left, splitChars_exprText h]

theorem cppSegments?_cons_eq_some {p : List (Access String)} :
    cppSegments? (segment :: segments) = some p ↔
      ∃ a q, cppSegment? segment = some a ∧ cppSegments? segments = some q ∧ p = a ++ q := by
  unfold cppSegments?
  simp only [Option.map_eq_some_iff, List.mapM_cons, Option.bind_eq_bind, Option.bind_eq_some_iff,
    Option.pure_def, Option.some.injEq]
  constructor
  · rintro ⟨_, ⟨a, ha, rest, hrest, rfl⟩, rfl⟩
    exact ⟨a, rest.flatten, ha, ⟨rest, hrest, rfl⟩, List.flatten_cons⟩
  · rintro ⟨a, _, ha, ⟨rest, hrest, rfl⟩, rfl⟩
    exact ⟨a :: rest, ⟨a, ha, rest, hrest, rfl⟩, List.flatten_cons⟩

theorem cppSegments?_name (h : isIdentifier name = true) :
    cppSegments? [name] = some [.member (String.ofList name)] := by
  refine cppSegments?_cons_eq_some.mpr ⟨[.member (String.ofList name)], [], ?_, rfl, rfl⟩
  rw [cppSegment?, rosFieldSegment_of_isIdentifier h]

/-- **Every index of a place is written in a segment**, behind the name of its container. -/
theorem exists_segment_of_index {p q r : List (Access String)} {i : Nat}
    (h : cppSegments? segments = some p) (hp : p = q ++ .index i :: r) :
    ∃ pre segment post name digits, segments = pre ++ segment :: post ∧
      rosFieldSegment segment = some (name, some digits) ∧ cppLiteral? digits = some i ∧
      cppSegments? (pre ++ [name]) = some q := by
  induction segments generalizing p q with
  | nil =>
    obtain rfl := Option.some.inj h
    cases q <;> cases hp
  | cons segment rest ih =>
    obtain ⟨a, p', ha, hp', rfl⟩ := cppSegments?_cons_eq_some.mp h
    -- An index in the rest of the path.
    have hrest : ∀ q', p' = q' ++ .index i :: r → q = a ++ q' → ∃ pre segment' post name digits,
        segment :: rest = pre ++ segment' :: post ∧
        rosFieldSegment segment' = some (name, some digits) ∧ cppLiteral? digits = some i ∧
        cppSegments? (pre ++ [name]) = some q := by
      rintro q' hq' rfl
      obtain ⟨pre, segment', post, name, digits, rfl, hsegment', hi, hq⟩ := ih hp' hq'
      exact ⟨segment :: pre, segment', post, name, digits, rfl, hsegment', hi,
        cppSegments?_cons_eq_some.mpr ⟨a, q', ha, hq, rfl⟩⟩
    unfold cppSegment? at ha
    split at ha
    · next name hsegment =>
      obtain rfl := Option.some.inj ha
      cases q with
      | nil => cases hp
      | cons b q =>
        obtain ⟨rfl, hq⟩ := List.cons.inj hp
        exact hrest q hq rfl
    · next name digits hsegment =>
      obtain ⟨j, hj, rfl⟩ := Option.map_eq_some_iff.mp ha
      cases q with
      | nil => cases hp
      | cons b q =>
        obtain ⟨rfl, hindex⟩ := List.cons.inj hp
        cases q with
        | nil =>
          obtain ⟨hi, -⟩ := List.cons.inj hindex
          obtain rfl := Access.index.inj hi
          exact ⟨[], segment, rest, name, digits, rfl, hsegment, hj,
            cppSegments?_name (rosFieldSegment_eq_some hsegment).1⟩
        | cons b q =>
          obtain ⟨rfl, hq⟩ := List.cons.inj hindex
          exact hrest q hq rfl
    · cases ha

/-- Octal or decimal, C++ reads no larger index than Python. -/
theorem cppLiteral?_le_pyInt {i n : Nat} (hi : cppLiteral? digits = some i)
    (hn : pyInt digits = .ok n) : i ≤ n := by
  have hfold : ∀ base ≤ 10, ∀ (ds : List Char), ds.all Char.isDigit = true → ∀ k m, k ≤ m →
      ds.foldl (fun n c => base * n + (c.toNat - 0x30)) k ≤
        ds.foldl (fun n c => 10 * n + (decimalDigit? c).getD 0) m := by
    intro base hbase ds
    induction ds with
    | nil => exact fun _ k m hle => hle
    | cons c ds ih =>
      intro hds k m hle
      rw [List.all_cons, Bool.and_eq_true] at hds
      refine ih hds.2 _ _ ?_
      have hc : (decimalDigit? c).getD 0 = c.toNat - 0x30 := by
        have hdigit := hds.1
        simp only [Char.isDigit, Bool.and_eq_true, decide_eq_true_eq, ge_iff_le,
          UInt32.le_iff_toNat_le] at hdigit
        have h₀ : 48 ≤ c.toNat := hdigit.1
        have h₉ : c.toNat < 58 := Nat.lt_succ_of_le hdigit.2
        simp [decimalDigit?, decimalZeros, h₀, h₉]
      show base * k + (c.toNat - 0x30) ≤ 10 * m + (decimalDigit? c).getD 0
      rw [hc]
      exact Nat.add_le_add_right (Nat.mul_le_mul hbase hle) _
  unfold pyInt at hn
  split_ifs at hn
  obtain rfl := Except.ok.inj hn
  unfold cppLiteral? at hi
  simp only at hi
  split_ifs at hi with hall hzero hoctal hdecimal
  · obtain rfl := Option.some.inj hi
    exact hfold 8 (by decide) digits (by simpa using hall) 0 0 le_rfl
  · obtain rfl := Option.some.inj hi
    exact hfold 10 le_rfl digits (by simpa using hall) 0 0 le_rfl

end Expressions

-- ---------------------------------------------------------------------------
-- The required sizes
-- ---------------------------------------------------------------------------

/-- Every size is there, or a larger one. -/
def Grown (requirements requirements' : List (String × Nat)) : Prop :=
  ∀ e ∈ requirements, ∃ n, e.2 ≤ n ∧ (e.1, n) ∈ requirements'

/-- The containers that the segments index are required to be large enough. -/
def NeedsMet (pointer : Bool) (requirements : List (String × Nat)) (segments : List (List Char)) :
    Prop :=
  ∀ pre segment post name digits, segments = pre ++ segment :: post →
    rosFieldSegment segment = some (name, some digits) →
    ∃ k n, pyInt digits = .ok k ∧ k < n ∧ (exprOf pointer (pre ++ [name]), n) ∈ requirements

/-- A container is a member, and the containers on the way to it are required as well. -/
def Closed (pointer : Bool) (requirements : List (String × Nat)) : Prop :=
  ∀ e ∈ requirements, ∃ segments name, e.1 = exprOf pointer (segments ++ [name]) ∧
    isIdentifier name = true ∧ (∀ s ∈ segments, '.' ∉ s) ∧ NeedsMet pointer requirements segments

section Requirements

variable {pointer : Bool} {base : String} {size : Nat} {segments segments' : List (List Char)}
  {requirements requirements' requirements'' updates : List (String × Nat)}

theorem Grown.refl : Grown requirements requirements := fun e he => ⟨e.2, le_rfl, he⟩

theorem Grown.trans (h : Grown requirements requirements')
    (h' : Grown requirements' requirements'') : Grown requirements requirements'' := by
  intro e he
  obtain ⟨n, hn, hmem⟩ := h e he
  obtain ⟨n', hn', hmem'⟩ := h' _ hmem
  exact ⟨n', hn.trans hn', hmem'⟩

theorem grown_requireSize : Grown requirements (requireSize requirements base size) := by
  induction requirements with
  | nil => nofun
  | cons e rest ih =>
    intro e' he'
    unfold requireSize
    split_ifs with hbase
    · rcases List.mem_cons.mp he' with rfl | he'
      · exact ⟨_, le_max_left _ _, List.mem_cons_self⟩
      · exact ⟨e'.2, le_rfl, List.mem_cons_of_mem _ he'⟩
    · rcases List.mem_cons.mp he' with rfl | he'
      · exact ⟨e'.2, le_rfl, List.mem_cons_self⟩
      · obtain ⟨n, hn, hmem⟩ := ih e' he'
        exact ⟨n, hn, List.mem_cons_of_mem _ hmem⟩

theorem requireSize_self (requirements : List (String × Nat)) (base : String) (size : Nat) :
    ∃ n, size ≤ n ∧ (base, n) ∈ requireSize requirements base size := by
  induction requirements with
  | nil => exact ⟨size, le_rfl, List.mem_singleton_self _⟩
  | cons e rest ih =>
    unfold requireSize
    split_ifs with hbase
    · rw [← hbase]
      exact ⟨_, le_max_right _ _, List.mem_cons_self⟩
    · obtain ⟨n, hn, hmem⟩ := ih
      exact ⟨n, hn, List.mem_cons_of_mem _ hmem⟩

theorem mem_requireSize {e : String × Nat} (h : e ∈ requireSize requirements base size) :
    e.1 = base ∨ ∃ e' ∈ requirements, e'.1 = e.1 := by
  induction requirements with
  | nil => exact .inl (congrArg Prod.fst (List.mem_singleton.mp h))
  | cons e' rest ih =>
    unfold requireSize at h
    split_ifs at h with hbase
    · rcases List.mem_cons.mp h with heq | h
      · rw [heq]
        exact .inl hbase
      · exact .inr ⟨e, List.mem_cons_of_mem _ h, rfl⟩
    · rcases List.mem_cons.mp h with rfl | h
      · exact .inr ⟨_, List.mem_cons_self, rfl⟩
      · refine (ih h).imp_right ?_
        rintro ⟨e'', he'', heq⟩
        exact ⟨e'', List.mem_cons_of_mem _ he'', heq⟩

theorem NeedsMet.mono (h : NeedsMet pointer requirements segments)
    (hgrown : Grown requirements requirements') : NeedsMet pointer requirements' segments := by
  intro pre segment post name digits heq hsegment
  obtain ⟨k, n, hk, hlt, hmem⟩ := h pre segment post name digits heq hsegment
  obtain ⟨n', hn', hmem'⟩ := hgrown _ hmem
  exact ⟨k, n', hk, lt_of_lt_of_le hlt hn', hmem'⟩

/-- The needs of a path, segment by segment. -/
theorem NeedsMet.concat {segment : List Char} (h : NeedsMet pointer requirements segments)
    (hsegment : ∀ name digits, rosFieldSegment segment = some (name, some digits) →
      ∃ k n, pyInt digits = .ok k ∧ k < n ∧ (exprOf pointer (segments ++ [name]), n) ∈ requirements) :
    NeedsMet pointer requirements (segments ++ [segment]) := by
  intro pre s post name digits heq hs
  rcases List.eq_nil_or_concat post with rfl | ⟨post', s', rfl⟩
  · obtain ⟨rfl, hlast⟩ := List.append_inj' heq rfl
    obtain ⟨rfl, -⟩ := List.cons.inj hlast
    exact hsegment name digits hs
  · have heq : segments ++ [segment] = (pre ++ s :: post') ++ [s'] := by simpa using heq
    obtain ⟨hinit, -⟩ := List.append_inj' heq rfl
    exact h pre s post' name digits hinit hs

theorem needsMet_nil : NeedsMet pointer requirements [] := by
  intro pre segment post name digits heq
  cases pre <;> cases heq

/-- One more container. -/
theorem Closed.requireSize {name : List Char} (h : Closed pointer requirements)
    (hname : isIdentifier name = true) (hdots : ∀ s ∈ segments, '.' ∉ s)
    (hmet : NeedsMet pointer requirements segments) :
    Closed pointer (requireSize requirements (exprOf pointer (segments ++ [name])) size) := by
  intro e he
  rcases mem_requireSize he with heq | ⟨e', he', heq⟩
  · exact ⟨segments, name, heq, hname, hdots, hmet.mono grown_requireSize⟩
  · obtain ⟨segments', name', htext, hname', hdots', hmet'⟩ := h e' he'
    exact ⟨segments', name', heq ▸ htext, hname', hdots', hmet'.mono grown_requireSize⟩

/-- `_analyze_ros_path`, behind the segments that are done. -/
theorem analyzeSegments_closed {path expr : String} {done : List (List Char)}
    (hclosed : Closed pointer requirements) (hmet : NeedsMet pointer requirements done)
    (hdots : ∀ s ∈ done ++ segments, '.' ∉ s)
    (h : analyzeSegments path (pointer && done.isEmpty) (exprOf pointer done) requirements segments =
      .ok (expr, requirements')) :
    expr = exprOf pointer (done ++ segments) ∧ Closed pointer requirements' ∧
      NeedsMet pointer requirements' (done ++ segments) := by
  induction segments generalizing done requirements with
  | nil =>
    obtain ⟨rfl, rfl⟩ := Prod.mk.inj (Except.ok.inj h)
    rw [List.append_nil]
    exact ⟨rfl, hclosed, hmet⟩
  | cons segment rest ih =>
    have hdone : ∀ s ∈ done, '.' ∉ s := fun s hs => hdots s (List.mem_append_left _ hs)
    have hnext : done ++ segment :: rest = (done ++ [segment]) ++ rest := by simp
    have hstep : ∀ s : List Char, exprOf pointer done ++
        (if (pointer && done.isEmpty) = true then "->" else ".") ++ String.ofList s =
          exprOf pointer (done ++ [s]) := by
      intro s
      rw [exprOf, exprOf, exprText_append]
      simp [exprText, memberOperator, String.append_assoc]
    have hpointer : (pointer && (done ++ [segment]).isEmpty) = false := by simp
    rw [hnext] at hdots ⊢
    unfold analyzeSegments at h
    split at h
    · cases h
    · next name index hsegment =>
      obtain ⟨hname, htext⟩ := rosFieldSegment_eq_some hsegment
      rw [hstep] at h
      cases index with
      | none =>
        have htext : segment = name := htext.trans (List.append_nil _)
        subst htext
        rw [← hpointer] at h
        refine ih hclosed (hmet.concat fun name' digits hindex => ?_) hdots h
        cases hsegment.symm.trans hindex
      | some digits =>
        obtain ⟨k, hk, h⟩ := bind_eq_ok.mp h
        have hbracket : exprOf pointer (done ++ [name]) ++ "[" ++ String.ofList digits ++ "]" =
            exprOf pointer (done ++ [segment]) := by
          have hlist : String.ofList ('[' :: digits ++ [']']) = "[" ++ String.ofList digits ++ "]" := by
            rw [List.cons_append, String.ofList_cons, String.ofList_append, String.append_assoc]
            rfl
          rw [← hstep, ← hstep, htext, Option.elim_some, String.ofList_append, hlist]
          simp only [String.append_assoc]
        rw [hbracket, ← hpointer] at h
        refine ih (hclosed.requireSize hname hdone hmet)
          ((hmet.mono grown_requireSize).concat fun name' digits' hindex => ?_) hdots h
        obtain ⟨rfl, hdigits⟩ := Prod.mk.inj (Option.some.inj (hsegment.symm.trans hindex))
        obtain rfl := Option.some.inj hdigits
        obtain ⟨n, hn, hmem⟩ := requireSize_self requirements
          (exprOf pointer (done ++ [name])) (k + 1)
        exact ⟨k, n, hk, hn, hmem⟩

/-- `_merge_vector_requirements`. -/
def mergeRequirements (dest updates : List (String × Nat)) : List (String × Nat) :=
  updates.foldl (fun dest e => requireSize dest e.1 e.2) dest

theorem grown_merge (updates : List (String × Nat)) :
    Grown requirements (mergeRequirements requirements updates) := by
  unfold mergeRequirements
  induction updates generalizing requirements with
  | nil => exact .refl
  | cons e rest ih => exact grown_requireSize.trans ih

theorem grown_merge_updates : Grown updates (mergeRequirements requirements updates) := by
  induction updates generalizing requirements with
  | nil => nofun
  | cons e rest ih =>
    intro e' he'
    rcases List.mem_cons.mp he' with rfl | he'
    · obtain ⟨n, hn, hmem⟩ := requireSize_self requirements e'.1 e'.2
      obtain ⟨n', hn', hmem'⟩ := grown_merge rest _ hmem
      exact ⟨n', hn.trans hn', hmem'⟩
    · exact ih e' he'

theorem mem_merge {e : String × Nat} (h : e ∈ mergeRequirements requirements updates) :
    ∃ e', (e' ∈ requirements ∨ e' ∈ updates) ∧ e'.1 = e.1 := by
  unfold mergeRequirements at h
  induction updates generalizing requirements with
  | nil => exact ⟨e, .inl h, rfl⟩
  | cons u rest ih =>
    obtain ⟨e', he' | he', heq⟩ := ih h
    · rcases mem_requireSize he' with hu | ⟨e'', he'', heq'⟩
      · exact ⟨u, .inr List.mem_cons_self, hu.symm.trans heq⟩
      · exact ⟨e'', .inl he'', heq'.trans heq⟩
    · exact ⟨e', .inr (List.mem_cons_of_mem _ he'), heq⟩

theorem Closed.merge (h : Closed pointer requirements) (hupdates : Closed pointer updates) :
    Closed pointer (mergeRequirements requirements updates) := by
  intro e he
  obtain ⟨e', he' | he', heq⟩ := mem_merge he
  · obtain ⟨segments, name, htext, hname, hdots, hmet⟩ := h e' he'
    exact ⟨segments, name, heq ▸ htext, hname, hdots, hmet.mono (grown_merge _)⟩
  · obtain ⟨segments, name, htext, hname, hdots, hmet⟩ := hupdates e' he'
    exact ⟨segments, name, heq ▸ htext, hname, hdots, hmet.mono grown_merge_updates⟩

/-- The expression of a field is a path, and the containers on it are required. -/
def PathMet (pointer : Bool) (requirements : List (String × Nat)) (expr : String) : Prop :=
  ∃ segments, segments ≠ [] ∧ expr = exprOf pointer segments ∧ (∀ s ∈ segments, '.' ∉ s) ∧
    NeedsMet pointer requirements segments

theorem PathMet.mono {expr : String} (h : PathMet pointer requirements expr)
    (hgrown : Grown requirements requirements') : PathMet pointer requirements' expr := by
  obtain ⟨segments, hne, htext, hdots, hmet⟩ := h
  exact ⟨segments, hne, htext, hdots, hmet.mono hgrown⟩

theorem splitChars_ne_nil {sep : Char} {s : List Char} : splitChars sep s ≠ [] := by
  cases s with
  | nil => nofun
  | cons c s =>
    unfold splitChars
    split_ifs
    · nofun
    · split <;> nofun

theorem analyzeRosPath_closed {path expr : String}
    (h : analyzeRosPath path "msg" pointer = .ok (expr, requirements)) :
    Closed pointer requirements ∧ PathMet pointer requirements expr := by
  have hmsg : exprOf pointer [] = "msg" := rfl
  have hpointer : (pointer && ([] : List (List Char)).isEmpty) = pointer := Bool.and_true pointer
  unfold analyzeRosPath at h
  rw [← hmsg, ← hpointer] at h
  have hdots : ∀ s ∈ [] ++ splitChars '.' path.toList, '.' ∉ s :=
    fun s hs => notMem_of_mem_splitChars hs
  have hnone : Closed pointer [] := fun e he => absurd he List.not_mem_nil
  obtain ⟨hexpr, hclosed, hmet⟩ := analyzeSegments_closed hnone needsMet_nil hdots h
  exact ⟨hclosed, _, splitChars_ne_nil, hexpr, hdots, hmet⟩

theorem fieldAccesses_closed {fields : List Yaml} {accesses : List (Yaml × String)}
    (hclosed : Closed pointer requirements)
    (h : fieldAccesses pointer requirements fields = .ok (accesses, requirements')) :
    Grown requirements requirements' ∧ Closed pointer requirements' ∧
      ∀ access ∈ accesses, PathMet pointer requirements' access.2 := by
  induction fields generalizing requirements accesses with
  | nil =>
    obtain ⟨rfl, rfl⟩ := Prod.mk.inj (Except.ok.inj h)
    exact ⟨.refl, hclosed, nofun⟩
  | cons field rest ih =>
    unfold fieldAccesses at h
    obtain ⟨ros, -, h⟩ := bind_eq_ok.mp h
    split at h
    · next path =>
      obtain ⟨⟨expr, updates⟩, hanalyze, h⟩ := bind_eq_ok.mp h
      obtain ⟨⟨accesses', requirements''⟩, hrest, h⟩ := bind_eq_ok.mp h
      obtain ⟨rfl, rfl⟩ := Prod.mk.inj (Except.ok.inj h)
      obtain ⟨hupdates, hpath⟩ := analyzeRosPath_closed hanalyze
      obtain ⟨hgrown, hclosed', hmet⟩ := ih (hclosed.merge hupdates) hrest
      refine ⟨(grown_merge _).trans hgrown, hclosed', fun access haccess => ?_⟩
      rcases List.mem_cons.mp haccess with rfl | haccess
      · exact (hpath.mono grown_merge_updates).mono hgrown
      · exact hmet access haccess
    · cases h

/-- The same sizes in another order. -/
theorem grown_of_mem (h : ∀ e, e ∈ requirements → e ∈ requirements') :
    Grown requirements requirements' := fun e he => ⟨e.2, le_rfl, h e he⟩

theorem Closed.of_mem (h : Closed pointer requirements)
    (hmem : ∀ e, e ∈ requirements' ↔ e ∈ requirements) : Closed pointer requirements' := by
  intro e he
  obtain ⟨segments, name, htext, hname, hdots, hmet⟩ := h e ((hmem e).mp he)
  exact ⟨segments, name, htext, hname, hdots, hmet.mono (grown_of_mem fun e he => (hmem e).mpr he)⟩

end Requirements

-- ---------------------------------------------------------------------------
-- The sorted checks
-- ---------------------------------------------------------------------------

/-- The text of a binding: sorted checks that go along the paths of the fields. -/
structure BindingText.WellFormed (pointer : Bool) (text : BindingText) : Prop where
  closed : Closed pointer text.requirements
  sorted : text.requirements.Pairwise fun a b => a.1 ≤ b.1
  met : ∀ field ∈ text.fields, PathMet pointer text.requirements field.expr

theorem bindingText_wellFormed {pointer : Bool} {typeMappings : PyDict} {msg : Yaml}
    {text : BindingText} (h : bindingText pointer typeMappings msg = .ok text) :
    text.WellFormed pointer := by
  unfold bindingText at h
  obtain ⟨fields, -, h⟩ := bind_eq_ok.mp h
  obtain ⟨⟨accesses, requirements⟩, haccesses, h⟩ := bind_eq_ok.mp h
  obtain ⟨rosMsg, -, h⟩ := bind_eq_ok.mp h
  obtain ⟨bound, hbound, h⟩ := bind_eq_ok.mp h
  obtain rfl := pure_eq_ok.mp h
  have hnone : Closed pointer [] := fun e he => absurd he List.not_mem_nil
  obtain ⟨-, hclosed, hmet⟩ := fieldAccesses_closed hnone haccesses
  have hmem : ∀ e, e ∈ requirements.mergeSort (fun a b => a.1 ≤ b.1) ↔ e ∈ requirements :=
    fun e => List.mem_mergeSort
  refine ⟨hclosed.of_mem hmem, ?_, fun field hfield => ?_⟩
  · refine (List.pairwise_mergeSort (fun a b c hab hbc => ?_) (fun a b => ?_) _).imp fun hab => ?_
    · exact decide_eq_true (le_trans (of_decide_eq_true hab) (of_decide_eq_true hbc))
    · simpa using le_total a.1 b.1
    · exact of_decide_eq_true hab
  · obtain ⟨access, haccess, hfield⟩ := exists_left_of_forall₂ (mapM_eq_ok.mp hbound) hfield
    unfold boundField at hfield
    obtain ⟨type, -, hfield⟩ := bind_eq_ok.mp hfield
    obtain ⟨cType, -, hfield⟩ := bind_eq_ok.mp hfield
    obtain ⟨proto, -, hfield⟩ := bind_eq_ok.mp hfield
    obtain ⟨cTypeText, -, hfield⟩ := bind_eq_ok.mp hfield
    obtain rfl := pure_eq_ok.mp hfield
    exact (hmet access haccess).mono (grown_of_mem fun e he => (hmem e).mpr he)

theorem subscriptionText_wellFormed {typeMappings : PyDict} {msg : Yaml} {text : BindingText}
    (h : subscriptionText typeMappings msg = .ok (some text)) : text.WellFormed true := by
  unfold subscriptionText at h
  obtain ⟨topic, -, h⟩ := bind_eq_ok.mp h
  split at h
  · obtain ⟨direction, -, h⟩ := bind_eq_ok.mp h
    split_ifs at h
    · obtain ⟨text', htext, h⟩ := bind_eq_ok.mp h
      obtain rfl := Option.some.inj (pure_eq_ok.mp h)
      exact bindingText_wellFormed htext
    · cases h
  · cases h

theorem dispatchText_wellFormed {typeMappings : PyDict} {msg : Yaml} {text : BindingText}
    (h : dispatchText typeMappings msg = .ok (some text)) : text.WellFormed false := by
  unfold dispatchText at h
  obtain ⟨topic, -, h⟩ := bind_eq_ok.mp h
  split at h
  · obtain ⟨direction, -, h⟩ := bind_eq_ok.mp h
    split_ifs at h
    · obtain ⟨text', htext, h⟩ := bind_eq_ok.mp h
      obtain rfl := Option.some.inj (pure_eq_ok.mp h)
      exact bindingText_wellFormed htext
    · cases h
  · cases h

/-- The check on an outer container is written before that on an inner one. -/
theorem exprOf_lt {pointer : Bool} {pre post : List (List Char)} {segment name digits name' : List Char}
    (h : rosFieldSegment segment = some (name, some digits)) :
    exprOf pointer (pre ++ [name]) < exprOf pointer (pre ++ segment :: post ++ [name']) := by
  obtain ⟨-, hsegment⟩ := rosFieldSegment_eq_some h
  obtain ⟨rest, hrest⟩ : ∃ rest, exprText pointer (pre ++ segment :: post ++ [name']) =
      exprText pointer (pre ++ [name]) ++ '[' :: rest := by
    refine ⟨digits ++ [']'] ++ exprText false (post ++ [name']), ?_⟩
    rw [List.append_assoc, hsegment]
    simp [exprText_append, exprText]
  rw [exprOf, exprOf, hrest, String.lt_iff_toList_lt]
  simp only [String.toList_append, String.toList_ofList]
  refine List.append_left_lt ?_
  have hlt : exprText pointer (pre ++ [name]) ++ [] < exprText pointer (pre ++ [name]) ++ '[' :: rest :=
    List.append_left_lt (List.nil_lt_cons '[' rest)
  rwa [List.append_nil] at hlt

-- ---------------------------------------------------------------------------
-- The compiled checks
-- ---------------------------------------------------------------------------

/-- Every container that a place indexes has a size that is large enough. -/
def Covered (sizes : List (List (Access String) × Nat)) (place : List (Access String)) : Prop :=
  ∀ q i r, place = q ++ .index i :: r → ∃ n, (q, n) ∈ sizes ∧ i < n

/-- A compiled binding: every check is covered by the checks before it, and every field by all. -/
structure BindingCode.Sound (t : PlaceType String) (usable : PlaceType String → Bool)
    (code : BindingCode) : Prop where
  ordered : ∀ pre size post, code.sizes = pre ++ size :: post → Covered pre size.1
  covered : ∀ field ∈ code.fields, Covered code.sizes field.2
  containers : ∀ size ∈ code.sizes, ∃ u n, t.get size.1 = some u ∧ u.capacity? = some n
  usable : ∀ field ∈ code.fields, ∃ u, t.get field.2 = some u ∧ usable u = true

section Compiled

variable {pointer : Bool} {t : PlaceType String} {segments : List (List Char)}
  {requirements : List (String × Nat)} {sizes : List (List (Access String) × Nat)}
  {place : List (Access String)}

theorem compileSize_eq_some {e : String × Nat} {size : List (Access String) × Nat}
    (h : compileSize pointer t e = some size) :
    cppPlace? pointer e.1 = some size.1 ∧ size.2 = e.2 ∧
      ∃ u n, t.get size.1 = some u ∧ u.capacity? = some n := by
  unfold compileSize at h
  simp only [Option.bind_eq_bind, Option.bind_eq_some_iff, Option.pure_def, Option.some.injEq] at h
  obtain ⟨place, hplace, u, hu, n, hn, literal, hliteral, rfl⟩ := h
  refine ⟨hplace, ?_, u, n, hu, hn⟩
  simp only [sizeLiteral?, Yaml.asInt?, Option.ite_none_right_eq_some] at hliteral
  obtain ⟨⟨-, hlt⟩, hliteral⟩ := hliteral
  obtain rfl := Option.some.inj hliteral
  have hlt : e.2 < 2 ^ 64 := by exact_mod_cast hlt
  simpa using Nat.mod_eq_of_lt hlt

theorem compilePlace_eq_some {usable : PlaceType String → Bool} {field : BoundField}
    {bound : BoundField × List (Access String)} (h : compilePlace pointer t usable field = some bound) :
    cppPlace? pointer field.expr = some bound.2 ∧ ∃ u, t.get bound.2 = some u ∧ usable u = true := by
  unfold compilePlace at h
  simp only [Option.bind_eq_bind, Option.bind_eq_some_iff, Option.ite_none_right_eq_some]
    at h
  obtain ⟨place, hplace, u, hu, husable, hbound⟩ := h
  obtain rfl := Option.some.inj hbound
  exact ⟨hplace, u, hu, husable⟩

/-- A path is covered by the sizes that its containers are required to have. -/
theorem covered_of_needsMet (hmet : NeedsMet pointer requirements segments)
    (hdots : ∀ s ∈ segments, '.' ∉ s) (hplace : cppSegments? segments = some place)
    (hsizes : ∀ pre segment post name digits n, segments = pre ++ segment :: post →
      rosFieldSegment segment = some (name, some digits) →
      (exprOf pointer (pre ++ [name]), n) ∈ requirements →
      ∃ size ∈ sizes, compileSize pointer t (exprOf pointer (pre ++ [name]), n) = some size) :
    Covered sizes place := by
  intro q i r heq
  obtain ⟨pre, segment, post, name, digits, hsegments, hsegment, hi, hq⟩ :=
    exists_segment_of_index hplace heq
  obtain ⟨k, n, hk, hlt, hmem⟩ := hmet pre segment post name digits hsegments hsegment
  obtain ⟨size, hsize, hcompile⟩ := hsizes pre segment post name digits n hsegments hsegment hmem
  obtain ⟨hplace', hn, -⟩ := compileSize_eq_some hcompile
  have hname : '.' ∉ name := fun hdot =>
    absurd (isWordChar_of_isIdentifier (rosFieldSegment_eq_some hsegment).1 '.' hdot) (by decide)
  have hpre : ∀ s ∈ pre ++ [name], '.' ∉ s := by
    intro s hs
    rcases List.mem_append.mp hs with hs | hs
    · exact hdots s (hsegments ▸ List.mem_append_left _ hs)
    · rw [List.mem_singleton.mp hs]
      exact hname
  rw [cppPlace?_exprOf (by simp) hpre, hq] at hplace'
  obtain rfl := Option.some.inj hplace'
  exact ⟨size.2, hsize, hn ▸ lt_of_le_of_lt (cppLiteral?_le_pyInt hi hk) hlt⟩

/-- **What is compiled is sound**: the sorted checks go from the outside to the inside. -/
theorem compileBinding_sound {usable : PlaceType String → Bool} {text : BindingText}
    {code : BindingCode} (h : text.WellFormed pointer)
    (hcode : compileBinding pointer t usable text = some code) : code.Sound t usable := by
  unfold compileBinding at hcode
  simp only [Option.bind_eq_bind, Option.bind_eq_some_iff, Option.pure_def, Option.some.injEq]
    at hcode
  obtain ⟨sizes, hsizes, fields, hfields, rfl⟩ := hcode
  rw [mapM_eq_some] at hsizes hfields
  refine ⟨fun pre size post heq => ?_, fun field hfield => ?_, fun size hsize => ?_,
    fun field hfield => ?_⟩
  · obtain rfl : sizes = pre ++ size :: post := heq
    obtain ⟨before, e, after, hrequirements, hbefore, he⟩ := forall₂_append_cons hsizes
    have hmem : e ∈ text.requirements := by simp [hrequirements]
    obtain ⟨segments, name, htext, hname, hdots, hmet⟩ := h.closed e hmem
    obtain ⟨hplace, -, -⟩ := compileSize_eq_some he
    have hnameDots : '.' ∉ name := fun hdot =>
      absurd (isWordChar_of_isIdentifier hname '.' hdot) (by decide)
    have hall : ∀ s ∈ segments ++ [name], '.' ∉ s := by
      intro s hs
      rcases List.mem_append.mp hs with hs | hs
      · exact hdots s hs
      · rw [List.mem_singleton.mp hs]
        exact hnameDots
    rw [htext, cppPlace?_exprOf (by simp) hall] at hplace
    have hmet' : NeedsMet pointer text.requirements (segments ++ [name]) := by
      refine hmet.concat fun name' digits hindex => ?_
      cases (rosFieldSegment_of_isIdentifier hname).symm.trans hindex
    refine covered_of_needsMet (t := t) hmet' hall hplace
      fun pre' segment post' name' digits n hsegments hsegment hrequired => ?_
    -- The text of the check on the outer container is smaller, so it comes before this one.
    have hlt : exprOf pointer (pre' ++ [name']) < e.1 := by
      rcases List.eq_nil_or_concat post' with rfl | ⟨post'', last, rfl⟩
      · obtain ⟨-, hlast⟩ := List.append_inj' hsegments rfl
        obtain ⟨rfl, -⟩ := List.cons.inj hlast
        cases (rosFieldSegment_of_isIdentifier hname).symm.trans hsegment
      · have hsplit : segments ++ [name] = (pre' ++ segment :: post'') ++ [last] := by
          simpa using hsegments
        rw [htext, hsplit]
        exact exprOf_lt hsegment
    have hearlier : (exprOf pointer (pre' ++ [name']), n) ∈ before := by
      have hsorted := h.sorted
      rw [hrequirements] at hrequired hsorted
      rcases List.mem_append.mp hrequired with hbefore | hlater
      · exact hbefore
      · exfalso
        obtain ⟨-, hpost, -⟩ := List.pairwise_append.mp hsorted
        rcases List.mem_cons.mp hlater with heq | hlater
        · exact absurd hlt (by rw [← heq]; exact lt_irrefl _)
        · exact absurd hlt (not_lt.mpr ((List.pairwise_cons.mp hpost).1 _ hlater))
    exact exists_right_of_forall₂ hbefore hearlier
  · obtain ⟨bound, hbound, hcompile⟩ := exists_left_of_forall₂ hfields hfield
    obtain ⟨hplace, -⟩ := compilePlace_eq_some hcompile
    obtain ⟨segments, hne, htext, hdots, hmet⟩ := h.met bound hbound
    rw [htext, cppPlace?_exprOf hne hdots] at hplace
    exact covered_of_needsMet hmet hdots hplace
      fun _ _ _ _ _ _ _ _ hrequired => exists_right_of_forall₂ hsizes hrequired
  · obtain ⟨e, -, hcompile⟩ := exists_left_of_forall₂ hsizes hsize
    exact (compileSize_eq_some hcompile).2.2
  · obtain ⟨bound, -, hcompile⟩ := exists_left_of_forall₂ hfields hfield
    exact (compilePlace_eq_some hcompile).2

end Compiled

-- ---------------------------------------------------------------------------
-- Subscriptions
-- ---------------------------------------------------------------------------

/-- The containers have the sizes. -/
def Established {σ : Type} (sizes : List (List (Access String) × Nat)) (msg : Value String σ) : Prop :=
  ∀ size ∈ sizes, ∃ k, msg.SizeAt size.1 k ∧ size.2 ≤ k

section Execution

variable {σ : Type} {cpp : CppValues σ} {t : PlaceType String} {msg msg' : Value String σ}
  {place : List (Access String)} {sizes pre rest : List (List (Access String) × Nat)}

theorem Covered.inBounds (h : Covered sizes place) (hsizes : Established sizes msg) :
    msg.get place ≠ .error .outOfBounds := by
  refine Value.get_ne_outOfBounds fun q i r heq => ?_
  obtain ⟨n, hmem, hlt⟩ := h q i r heq
  obtain ⟨k, hk, hle⟩ := hsizes _ hmem
  exact ⟨k, hk, lt_of_lt_of_le hlt hle⟩

theorem Established.concat {size : List (Access String) × Nat} {k : Nat}
    (h : Established pre msg) (hsize : msg.SizeAt size.1 k) (hle : size.2 ≤ k) :
    Established (pre ++ [size]) msg := by
  intro e he
  rcases List.mem_append.mp he with he | he
  · exact h e he
  · rw [List.mem_singleton.mp he]
    exact ⟨k, hsize, hle⟩

/-- What one check does. -/
theorem checkSizes_cases (size : List (Access String) × Nat)
    (rest : List (List (Access String) × Nat)) (msg : Value String σ) :
    (∃ stop, msg.get size.1 = .error stop ∧ checkSizes (size :: rest) msg = .error stop) ∨
      (∃ stop, stop ≠ .outOfBounds ∧ checkSizes (size :: rest) msg = .error stop) ∨
      ∃ k, msg.SizeAt size.1 k ∧ size.2 ≤ k ∧ checkSizes (size :: rest) msg = checkSizes rest msg := by
  cases hget : msg.get size.1 with
  | error stop => exact .inl ⟨stop, rfl, by rw [checkSizes, hget]; rfl⟩
  | ok container =>
    right
    have hrun : checkSizes (size :: rest) msg = container.size?.elim (.error .illFormed) fun k =>
        if k < size.2 then .error .left else checkSizes rest msg := by
      rw [checkSizes, hget]
      cases hsize : container.size? <;> simp only [bind, Except.bind, hsize, Option.elim]
    rw [hrun]
    cases hsize : container.size? with
    | none => exact .inl ⟨.illFormed, by rintro ⟨⟩, rfl⟩
    | some k =>
      simp only [Option.elim]
      split_ifs with hlt
      · exact .inl ⟨.left, by rintro ⟨⟩, rfl⟩
      · exact .inr ⟨k, ⟨container, hget, hsize⟩, not_lt.mp hlt, rfl⟩

theorem checkSizes_inBounds
    (hordered : ∀ before size after, pre ++ rest = before ++ size :: after → Covered before size.1)
    (h : Established pre msg) :
    checkSizes rest msg ≠ .error .outOfBounds ∧
      (checkSizes rest msg = .ok () → Established (pre ++ rest) msg) := by
  induction rest generalizing pre with
  | nil => exact ⟨nofun, fun _ => by rwa [List.append_nil]⟩
  | cons size rest ih =>
    have hnext : pre ++ size :: rest = (pre ++ [size]) ++ rest := by simp
    have hget := (hordered pre size rest rfl).inBounds h
    rcases checkSizes_cases size rest msg with
      ⟨stop, hstop, hrun⟩ | ⟨stop, hstop, hrun⟩ | ⟨k, hk, hle, hrun⟩
    · rw [hrun]
      exact ⟨fun heq => hget (hstop.trans (congrArg _ (Except.error.inj heq))), nofun⟩
    · rw [hrun]
      exact ⟨fun heq => hstop (Except.error.inj heq), nofun⟩
    · rw [hrun, hnext]
      rw [hnext] at hordered
      exact ih hordered (h.concat hk hle)

theorem readNumber_eq_error {stop : Stop} (h : readNumber msg place = .error stop) :
    msg.get place = .error stop ∨ stop = .illFormed := by
  unfold readNumber at h
  rcases bind_eq_error.mp h with h | ⟨w, -, h⟩
  · exact .inl h
  · split at h
    · cases h
    · exact .inr (Except.error.inj h).symm

/-- A field is only read at its place, however often. -/
theorem readField_inBounds {rosMsg : Yaml} {field : BoundField × List (Access String)}
    (h : msg.get field.2 ≠ .error .outOfBounds) :
    readField cpp rosMsg msg field ≠ .error .outOfBounds := by
  have hread : readNumber msg field.2 ≠ .error .outOfBounds :=
    fun hstop => (readNumber_eq_error hstop).elim h nofun
  intro hstop
  unfold readField at hstop
  cases hx : readNumber msg field.2 with
  | error stop =>
    have hstop' : stop = .outOfBounds := by
      rw [hx] at hstop
      split_ifs at hstop
      · exact Except.error.inj hstop
      · exact Except.error.inj hstop
    exact hread (hx.trans (congrArg _ hstop'))
  | ok x =>
    rw [hx] at hstop
    split_ifs at hstop with hguard
    · have hrange : (if (!cpp.inByteRange x) = true then (.error .left : Except Stop σ)
          else .ok (cpp.cast field.1.cType x)) = .error .outOfBounds := hstop
      split_ifs at hrange
      cases hrange
    · cases hstop

/-- **A subscription never reads out of bounds**, whatever it receives. -/
theorem subscription_inBounds {text : BindingText} (h : text.WellFormed true) :
    subscriptionCallback cpp t text msg ≠ .error .outOfBounds := by
  unfold subscriptionCallback
  split
  · next code hcode =>
    have hsound := compileBinding_sound h hcode
    have hordered : ∀ before size after, [] ++ code.sizes = before ++ size :: after →
        Covered before size.1 := hsound.ordered
    have hnone : Established [] msg := fun size hsize => absurd hsize List.not_mem_nil
    obtain ⟨hchecks, hestablished⟩ := checkSizes_inBounds hordered hnone
    intro hstop
    rcases bind_eq_error.mp hstop with hstop | ⟨⟨⟩, hok, hstop⟩
    · exact hchecks hstop
    · obtain ⟨field, hfield, hread⟩ := mapM_eq_error hstop
      exact readField_inBounds ((hsound.covered field hfield).inBounds (hestablished hok)) hread
  · nofun

-- ---------------------------------------------------------------------------
-- Making room
-- ---------------------------------------------------------------------------

/-- The sizes are within the capacity of the containers. -/
def Fits (t : PlaceType String) (sizes : List (List (Access String) × Nat)) : Prop :=
  ∀ size ∈ sizes, ∀ u n, t.get size.1 = some u → u.capacity? = some n → size.2 ≤ n

theorem grow_eq_ok {α : Type} {x : α} {capacity required : Nat} {xs ys : List α}
    (h : grow x capacity required xs = .ok ys) :
    xs <+: ys ∧ required ≤ ys.length ∧ (xs.length ≤ capacity → ys.length ≤ capacity) ∧
      ∀ y ∈ ys, y ∈ xs ∨ y = x := by
  unfold grow at h
  split_ifs at h with hlt hle
  · obtain rfl := Except.ok.inj h
    have hlength : (xs ++ List.replicate (required - xs.length) x).length = required := by
      rw [List.length_append, List.length_replicate]
      omega
    refine ⟨List.prefix_append _ _, hlength.ge, fun _ => hlength.trans_le hle, fun y hy => ?_⟩
    exact (List.mem_append.mp hy).imp_right List.eq_of_mem_replicate
  · obtain rfl := Except.ok.inj h
    exact ⟨List.prefix_rfl, not_lt.mp hlt, id, fun y hy => .inl hy⟩

theorem grow_of_le {α : Type} (x : α) {capacity required : Nat} (xs : List α)
    (h : required ≤ capacity) : ∃ ys, grow x capacity required xs = .ok ys := by
  unfold grow
  split_ifs
  · exact ⟨_, rfl⟩
  · exact ⟨_, rfl⟩

variable {u : PlaceType String} {required : Nat} {w w' : Value String σ}

/-- What `ensure_size` does to a container: it grows at its end, or it is large enough. -/
theorem ensureSize_cases (h : ensureSize cpp u required w = .ok w') :
    (∃ n chars chars', u = .text n ∧ w = .text chars ∧ w' = .text chars' ∧
      grow cpp.zero n required chars = .ok chars') ∨
    (∃ element n xs ys, u = .sequence element n ∧ w = .items xs ∧ w' = .items ys ∧
      grow (cpp.fresh element) n required xs = .ok ys) ∨
    ∃ element n xs, u = .array element n ∧ w = .items xs ∧ w' = .items xs ∧ required ≤ xs.length := by
  unfold ensureSize at h
  split at h
  · next n chars =>
    obtain ⟨chars', hgrow, h⟩ := bind_eq_ok.mp h
    exact .inl ⟨n, chars, chars', rfl, rfl, (pure_eq_ok.mp h).symm, hgrow⟩
  · next element n xs =>
    obtain ⟨ys, hgrow, h⟩ := bind_eq_ok.mp h
    exact .inr (.inl ⟨element, n, xs, ys, rfl, rfl, (pure_eq_ok.mp h).symm, hgrow⟩)
  · next element n xs =>
    split_ifs at h with hle
    exact .inr (.inr ⟨element, n, xs, rfl, rfl, (Except.ok.inj h).symm, hle⟩)
  · cases h

theorem ensureSize_ne_outOfBounds : ensureSize cpp u required w ≠ .error .outOfBounds := by
  have hgrow : ∀ {α : Type} (x : α) (n : Nat) (xs : List α),
      grow x n required xs ≠ .error .outOfBounds := by
    intro α x n xs
    unfold grow
    split_ifs <;> nofun
  unfold ensureSize
  split
  · intro h
    rcases bind_eq_error.mp h with h | ⟨_, -, h⟩
    · exact hgrow _ _ _ h
    · cases h
  · intro h
    rcases bind_eq_error.mp h with h | ⟨_, -, h⟩
    · exact hgrow _ _ _ h
    · cases h
  · split_ifs <;> nofun
  · nofun

theorem ensureSize_number (x : σ) (h : ensureSize cpp u required (.number x) = .ok w) :
    ∃ y, w = .number y := by
  obtain ⟨_, _, _, -, hw, -⟩ | ⟨_, _, _, _, -, hw, -⟩ | ⟨_, _, _, -, hw, -⟩ := ensureSize_cases h <;>
    cases hw

/-- A text has no containers inside. -/
theorem not_sizeAt_text {chars : List σ} {a : Access String} {q : List (Access String)} {k : Nat} :
    ¬ (Value.text chars).SizeAt (a :: q) k := by
  intro h
  obtain ⟨x, hx, hk⟩ := Value.sizeAt_cons.mp h
  cases a with
  | member name => cases hx
  | index i =>
    obtain ⟨c, -, rfl⟩ := Option.map_eq_some_iff.mp (Value.found_eq_ok.mp hx)
    cases q with
    | nil =>
      obtain ⟨y, hy, hsize⟩ := hk
      obtain rfl := Except.ok.inj hy
      cases hsize
    | cons b q =>
      obtain ⟨y, hy, -⟩ := Value.sizeAt_cons.mp hk
      cases hy

/-- Containers inside of one that grows keep their size. -/
theorem ensureSize_inside {a : Access String} {q : List (Access String)} {k : Nat}
    (h : ensureSize cpp u required w = .ok w') (hk : w.SizeAt (a :: q) k) : w'.SizeAt (a :: q) k := by
  obtain ⟨n, chars, chars', rfl, rfl, rfl, -⟩ | ⟨element, n, xs, ys, rfl, rfl, rfl, hgrow⟩ |
    ⟨element, n, xs, rfl, rfl, rfl, -⟩ := ensureSize_cases h
  · exact absurd hk not_sizeAt_text
  · obtain ⟨x, hx, hk⟩ := Value.sizeAt_cons.mp hk
    refine Value.sizeAt_cons.mpr ⟨x, ?_, hk⟩
    cases a with
    | member name => cases hx
    | index i =>
      have hx := Value.found_eq_ok.mp hx
      obtain ⟨zs, rfl⟩ := (grow_eq_ok hgrow).1
      obtain ⟨hlt, -⟩ := List.getElem?_eq_some_iff.mp hx
      exact Value.found_eq_ok.mpr ((List.getElem?_append_left hlt).trans hx)
  · exact hk

/-- A container that has been ensured is typed, no smaller than before, and large enough. -/
theorem ensureSize_typed (hw : HasType w u) (h : ensureSize cpp u required w = .ok w') :
    HasType w' u ∧ ∃ k k', w.size? = some k ∧ w'.size? = some k' ∧ k ≤ k' ∧ required ≤ k' := by
  obtain ⟨n, chars, chars', rfl, rfl, rfl, hgrow⟩ | ⟨element, n, xs, ys, rfl, rfl, rfl, hgrow⟩ |
    ⟨element, n, xs, rfl, rfl, rfl, hle⟩ := ensureSize_cases h
  · obtain _ | ⟨hsize⟩ := hw
    obtain ⟨hbegins, hrequired, hcapacity, -⟩ := grow_eq_ok hgrow
    exact ⟨.text (hcapacity hsize), _, _, rfl, rfl, hbegins.length_le, hrequired⟩
  · obtain _ | _ | _ | ⟨hitems, hsize⟩ := hw
    obtain ⟨hbegins, hrequired, hcapacity, hmem⟩ := grow_eq_ok hgrow
    refine ⟨.sequence (fun y hy => ?_) (hcapacity hsize), _, _, rfl, rfl, hbegins.length_le,
      hrequired⟩
    rcases hmem y hy with hy | rfl
    · exact hitems y hy
    · exact cpp.typed element
  · exact ⟨hw, _, _, rfl, rfl, le_rfl, hle⟩

theorem ensureSize_of_le (cpp : CppValues σ) {n : Nat} (hw : HasType w u) (hn : u.capacity? = some n)
    (h : required ≤ n) : ∃ w', ensureSize cpp u required w = .ok w' := by
  cases hw with
  | number x => cases hn
  | record hnames hmembers => cases hn
  | text hsize =>
    obtain rfl := Option.some.inj hn
    obtain ⟨chars', hgrow⟩ := grow_of_le cpp.zero _ h
    exact ⟨.text chars', bind_eq_ok.mpr ⟨_, hgrow, rfl⟩⟩
  | sequence hitems hsize =>
    obtain rfl := Option.some.inj hn
    obtain ⟨ys, hgrow⟩ := grow_of_le (cpp.fresh _) _ h
    exact ⟨.items ys, bind_eq_ok.mpr ⟨_, hgrow, rfl⟩⟩
  | array hitems hsize =>
    obtain rfl := Option.some.inj hn
    exact ⟨_, if_pos (hsize ▸ h)⟩

/-- Making room at one place leaves every container at least as large as it was. -/
theorem established_ensureSize (hmsg : HasType msg t) (hu : t.get place = some u)
    (h : msg.update (ensureSize cpp u required) place = .ok msg') (hsizes : Established sizes msg) :
    Established (sizes ++ [(place, required)]) msg' := by
  obtain ⟨w, w', hget, hensure, hget'⟩ := Value.get_update_self (fun x w => ensureSize_number x) h
  have hw : HasType w u := by
    rcases hmsg.get hu with ⟨x, hx, hxt⟩ | hstop
    · exact Except.ok.inj (hx.symm.trans hget) ▸ hxt
    · cases hstop.symm.trans hget
  obtain ⟨-, k, k', hk, hk', hle, hrequired⟩ := ensureSize_typed hw hensure
  refine Established.concat (fun size hsize => ?_) ⟨w', hget', hk'⟩ hrequired
  obtain ⟨m, hm, hlarge⟩ := hsizes size hsize
  by_cases hplace : size.1 = place
  · obtain ⟨x, hx, hxm⟩ := hm
    rw [hplace] at hx
    obtain rfl := Except.ok.inj (hx.symm.trans hget)
    obtain rfl := Option.some.inj (hk.symm.trans hxm)
    exact ⟨k', ⟨w', hplace ▸ hget', hk'⟩, hlarge.trans hle⟩
  · exact ⟨m, hm.update (fun x w => ensureSize_number x)
      (fun _ _ _ _ _ hok => ensureSize_inside hok) h hplace, hlarge⟩

theorem ensureSizes_cons {size : List (Access String) × Nat} (hu : t.get size.1 = some u) :
    ensureSizes cpp t (size :: rest) msg =
      msg.update (ensureSize cpp u size.2) size.1 >>= ensureSizes cpp t rest := by
  rw [ensureSizes, hu]

/-- **Making room is in bounds**; it is done exactly if all sizes fit. -/
theorem ensureSizes_spec (cpp : CppValues σ)
    (hordered : ∀ before size after, pre ++ rest = before ++ size :: after → Covered before size.1)
    (hcontainers : ∀ size ∈ rest, ∃ u n, t.get size.1 = some u ∧ u.capacity? = some n)
    (hmsg : HasType msg t) (h : Established pre msg) :
    ensureSizes cpp t rest msg ≠ .error .outOfBounds ∧
      (∀ msg', ensureSizes cpp t rest msg = .ok msg' →
        HasType msg' t ∧ Established (pre ++ rest) msg' ∧ Fits t rest) ∧
      (Fits t rest → ∃ msg', ensureSizes cpp t rest msg = .ok msg') := by
  induction rest generalizing pre msg with
  | nil =>
    refine ⟨nofun, fun msg' hok => ?_, fun _ => ⟨msg, rfl⟩⟩
    obtain rfl := Except.ok.inj hok
    exact ⟨hmsg, by rwa [List.append_nil], nofun⟩
  | cons size rest ih =>
    have hnext : pre ++ size :: rest = (pre ++ [size]) ++ rest := by simp
    have hget := (hordered pre size rest rfl).inBounds h
    obtain ⟨u, n, hu, hn⟩ := hcontainers size List.mem_cons_self
    have hplace : ∃ w, msg.get size.1 = .ok w ∧ HasType w u :=
      (hmsg.get hu).resolve_right hget
    obtain ⟨w, hw, hwt⟩ := hplace
    have hrest : ∀ msg', msg.update (ensureSize cpp u size.2) size.1 = .ok msg' →
        HasType msg' t ∧ Established (pre ++ [size]) msg' :=
      fun msg' hupdate => ⟨hmsg.update hu (fun _ _ hx hok => (ensureSize_typed hx hok).1) hupdate,
        established_ensureSize hmsg hu hupdate h⟩
    rw [ensureSizes_cons hu, hnext]
    rw [hnext] at hordered
    have hcontainers' := fun size' hsize => hcontainers size' (List.mem_cons_of_mem _ hsize)
    refine ⟨fun hstop => ?_, fun msg' hok => ?_, fun hfits => ?_⟩
    · rcases bind_eq_error.mp hstop with hstop | ⟨msg', hupdate, hstop⟩
      · rcases Value.update_eq_error hstop with hstop | ⟨x, -, hstop⟩
        · exact hget hstop
        · exact ensureSize_ne_outOfBounds hstop
      · obtain ⟨hmsg', h'⟩ := hrest msg' hupdate
        exact (ih hordered hcontainers' hmsg' h').1 hstop
    · obtain ⟨msg'', hupdate, hok⟩ := bind_eq_ok.mp hok
      obtain ⟨hmsg'', h''⟩ := hrest msg'' hupdate
      obtain ⟨htyped, hall, hfits⟩ := (ih hordered hcontainers' hmsg'' h'').2.1 msg' hok
      refine ⟨htyped, hall, fun size' hsize' u' n' hu' hn' => ?_⟩
      rcases List.mem_cons.mp hsize' with rfl | hsize'
      · obtain rfl := Option.some.inj (hu.symm.trans hu')
        obtain ⟨x, x', hx, hensure, -⟩ := Value.get_update_self (fun x w => ensureSize_number x) hupdate
        obtain rfl := Except.ok.inj (hw.symm.trans hx)
        obtain ⟨hx't, k, k', -, hk', -, hrequired⟩ := ensureSize_typed hwt hensure
        obtain ⟨k'', hk'', hle⟩ := hx't.size_le hn'
        obtain rfl := Option.some.inj (hk'.symm.trans hk'')
        exact hrequired.trans hle
      · exact hfits size' hsize' u' n' hu' hn'
    · obtain ⟨w', hensure⟩ := ensureSize_of_le cpp hwt hn
        (hfits size List.mem_cons_self u n hu hn)
      obtain ⟨msg'', hupdate⟩ := Value.exists_update hw hensure
      obtain ⟨hmsg'', h''⟩ := hrest msg'' hupdate
      obtain ⟨msg', hok⟩ := (ih hordered hcontainers' hmsg'' h'').2.2
        fun size' hsize' => hfits size' (List.mem_cons_of_mem _ hsize')
      exact ⟨msg', bind_eq_ok.mpr ⟨msg'', hupdate, hok⟩⟩

-- ---------------------------------------------------------------------------
-- Assigning
-- ---------------------------------------------------------------------------

/-- A field is a later character of a string that an earlier field is assigned to. -/
def Clash (fields : List (BoundField × List (Access String))) : Prop :=
  ∃ before field after, fields = before ++ field :: after ∧
    ∃ text ∈ before, ∃ i r, 1 ≤ i ∧ field.2 = text.2 ++ .index i :: r

variable {x : σ}

theorem store_cases (h : store x w = .ok w') :
    (∃ y, w = .number y ∧ w' = .number x) ∨ ∃ chars, w = .text chars ∧ w' = .text [x] := by
  unfold store at h
  split at h
  · exact .inl ⟨_, rfl, (Except.ok.inj h).symm⟩
  · exact .inr ⟨_, rfl, (Except.ok.inj h).symm⟩
  · cases h

theorem store_number (y : σ) (h : store x (.number y) = .ok w) : ∃ z, w = .number z := by
  obtain ⟨_, -, rfl⟩ | ⟨_, hw, -⟩ := store_cases h
  · exact ⟨x, rfl⟩
  · cases hw

theorem store_typed (hw : HasType w u) (hu : PlaceType.isAssignable u = true) :
    ∃ w', store x w = .ok w' ∧ HasType w' u := by
  cases hw with
  | number y => exact ⟨.number x, rfl, .number x⟩
  | text hsize =>
    have hpos : [x].length ≤ _ := of_decide_eq_true hu
    exact ⟨.text [x], rfl, .text hpos⟩
  | record hnames hmembers => cases hu
  | sequence hitems hsize => cases hu
  | array hitems hsize => cases hu

/-- An assignment leaves the size of a container, or makes it 1. -/
theorem sizeAt_store {q : List (Access String)} {k : Nat} (hk : msg.SizeAt q k)
    (h : msg.update (store x) place = .ok msg') :
    msg'.SizeAt q k ∨ (q = place ∧ msg'.SizeAt q 1) := by
  by_cases hq : q = place
  · subst hq
    obtain ⟨w, w', hw, hstore, hw'⟩ := Value.get_update_self (fun y w => store_number y) h
    obtain ⟨y, rfl, rfl⟩ | ⟨chars, rfl, rfl⟩ := store_cases hstore
    · obtain ⟨v, hv, hsize⟩ := hk
      obtain rfl := Except.ok.inj (hw.symm.trans hv)
      cases hsize
    · exact .inr ⟨rfl, _, hw', rfl⟩
  · refine .inl (hk.update (fun y w => store_number y) (fun w w' a q k hok hinside => ?_) h hq)
    obtain ⟨y, rfl, rfl⟩ | ⟨chars, rfl, rfl⟩ := store_cases hok
    · obtain ⟨v, hv, -⟩ := Value.sizeAt_cons.mp hinside
      cases hv
    · exact absurd hinside not_sizeAt_text

theorem store_ne_outOfBounds : store x w ≠ .error .outOfBounds := by
  unfold store
  split <;> nofun

/-- The containers have their sizes, but for the strings that were assigned to. -/
def Kept (sizes : List (List (Access String) × Nat)) (done : List (BoundField × List (Access String)))
    (msg : Value String σ) : Prop :=
  ∀ size ∈ sizes, ∃ k, msg.SizeAt size.1 k ∧ (size.2 ≤ k ∨ (k = 1 ∧ ∃ text ∈ done, text.2 = size.1))

variable {field : BoundField × List (Access String)} {pkt : String → σ}
  {done fields : List (BoundField × List (Access String))}

theorem Kept.store (h : Kept sizes done msg) (hupdate : msg.update (store x) field.2 = .ok msg') :
    Kept sizes (done ++ [field]) msg' := by
  intro size hsize
  obtain ⟨k, hk, hlarge⟩ := h size hsize
  rcases sizeAt_store hk hupdate with hk' | ⟨heq, hk'⟩
  · refine ⟨k, hk', hlarge.imp_right ?_⟩
    rintro ⟨hone, text, htext, hplace⟩
    exact ⟨hone, text, List.mem_append_left _ htext, hplace⟩
  · exact ⟨1, hk', .inr ⟨rfl, field, by simp, heq.symm⟩⟩

theorem Kept.inBounds (h : Kept sizes done msg) (hcovered : Covered sizes field.2)
    (hclash : ∀ text ∈ done, ∀ i r, 1 ≤ i → field.2 ≠ text.2 ++ .index i :: r) :
    msg.get field.2 ≠ .error .outOfBounds := by
  refine Value.get_ne_outOfBounds fun q i r heq => ?_
  obtain ⟨n, hmem, hlt⟩ := hcovered q i r heq
  obtain ⟨k, hk, hle | ⟨rfl, text, htext, rfl⟩⟩ := h _ hmem
  · exact ⟨k, hk, lt_of_lt_of_le hlt hle⟩
  · refine ⟨1, hk, not_le.mp fun hi => ?_⟩
    exact hclash text htext i r hi heq

/-- Without a clash, every assignment is in bounds. -/
theorem assignFields_inBounds (hcovered : ∀ field ∈ fields, Covered sizes field.2)
    (hclash : ¬ Clash (done ++ fields)) (h : Kept sizes done msg) :
    assignFields pkt fields msg ≠ .error .outOfBounds := by
  induction fields generalizing done msg with
  | nil => nofun
  | cons field rest ih =>
    have hget := h.inBounds (hcovered field List.mem_cons_self) fun text htext i r hi heq =>
      hclash ⟨done, field, rest, rfl, text, htext, i, r, hi, heq⟩
    have hnext : done ++ field :: rest = (done ++ [field]) ++ rest := by simp
    rw [hnext] at hclash
    intro hstop
    rcases bind_eq_error.mp hstop with hstop | ⟨msg', hupdate, hstop⟩
    · rcases Value.update_eq_error hstop with hstop | ⟨w, -, hstop⟩
      · exact hget hstop
      · exact store_ne_outOfBounds hstop
    · exact ih (fun f hf => hcovered f (List.mem_cons_of_mem _ hf)) hclash (h.store hupdate) hstop

theorem assignFields_append (before after : List (BoundField × List (Access String))) :
    assignFields pkt (before ++ after) msg =
      assignFields pkt before msg >>= assignFields pkt after := by
  induction before generalizing msg with
  | nil => rfl
  | cons field rest ih =>
    rw [List.cons_append, assignFields, assignFields, bind_assoc]
    exact congrArg _ (funext fun msg' => ih)

/-- The assignments of typed fields can only fail by the bounds. -/
theorem assignFields_typed (pkt : String → σ) (hmsg : HasType msg t)
    (husable : ∀ field ∈ fields, ∃ u, t.get field.2 = some u ∧ PlaceType.isAssignable u = true) :
    (∃ msg', assignFields pkt fields msg = .ok msg' ∧ HasType msg' t) ∨
      assignFields pkt fields msg = .error .outOfBounds := by
  induction fields generalizing msg with
  | nil => exact .inl ⟨msg, rfl, hmsg⟩
  | cons field rest ih =>
    obtain ⟨u, hu, hassignable⟩ := husable field List.mem_cons_self
    cases hupdate : msg.update (store (pkt field.1.proto)) field.2 with
    | ok msg' =>
      have hmsg' : HasType msg' t := by
        refine hmsg.update hu (fun w w' hw hok => ?_) hupdate
        obtain ⟨v, hv, hvt⟩ := store_typed (x := pkt field.1.proto) hw hassignable
        exact Except.ok.inj (hv.symm.trans hok) ▸ hvt
      rw [assignFields, hupdate]
      exact ih hmsg' fun f hf => husable f (List.mem_cons_of_mem _ hf)
    | error stop =>
      right
      rw [assignFields, hupdate]
      rcases hmsg.get hu with ⟨w, hw, hwt⟩ | hstop
      · obtain ⟨w', hstore, -⟩ := store_typed (x := pkt field.1.proto) hwt hassignable
        obtain ⟨msg', hok⟩ := Value.exists_update hw hstore
        cases hok.symm.trans hupdate
      · rcases Value.update_eq_error hupdate with hstop' | ⟨w, hw, -⟩
        · exact congrArg _ (Except.error.inj (hstop'.symm.trans hstop))
        · cases hw.symm.trans hstop

/-- Once a string has at most one character it keeps at most one. -/
theorem assignFields_small {q : List (Access String)} (hk : ∃ k ≤ 1, msg.SizeAt q k)
    (h : assignFields pkt fields msg = .ok msg') : ∃ k ≤ 1, msg'.SizeAt q k := by
  induction fields generalizing msg with
  | nil => exact Except.ok.inj h ▸ hk
  | cons field rest ih =>
    obtain ⟨msg'', hupdate, h⟩ := bind_eq_ok.mp h
    obtain ⟨k, hle, hk⟩ := hk
    refine ih ?_ h
    rcases sizeAt_store hk hupdate with hk' | ⟨-, hk'⟩
    · exact ⟨k, hle, hk'⟩
    · exact ⟨1, le_rfl, hk'⟩

/-- **A clash is out of bounds.** -/
theorem assignFields_clash (hmsg : HasType msg t)
    (husable : ∀ field ∈ fields, ∃ u, t.get field.2 = some u ∧ PlaceType.isAssignable u = true)
    (h : Clash fields) : assignFields pkt fields msg = .error .outOfBounds := by
  refine (assignFields_typed pkt hmsg husable).resolve_left ?_
  rintro ⟨msg', hok, -⟩
  obtain ⟨before, field, after, rfl, text, htext, i, r, hi, hplace⟩ := h
  obtain ⟨first, between, rfl⟩ := List.append_of_mem htext
  -- The field is a character of the text.
  obtain ⟨u, hu, hassignable⟩ := husable text (by simp)
  obtain ⟨u', hu', -⟩ := husable field (by simp)
  rw [hplace, PlaceType.get_append, hu] at hu'
  obtain ⟨n, rfl⟩ : ∃ n, u = .text n := by
    cases u with
    | text n => exact ⟨n, rfl⟩
    | number => cases hu'
    | record members => cases hassignable
    | sequence element n => cases hassignable
    | array element n => cases hassignable
  -- The assignments up to the text, the text, those up to the field, and the field.
  rw [assignFields_append] at hok
  obtain ⟨m₃, hok, hfield⟩ := bind_eq_ok.mp hok
  rw [assignFields_append] at hok
  obtain ⟨m₁, hfirst, hok⟩ := bind_eq_ok.mp hok
  obtain ⟨m₂, hstore, hbetween⟩ := bind_eq_ok.mp hok
  have hm₁ : HasType m₁ t := by
    rcases assignFields_typed pkt hmsg fun f hf =>
        husable f (List.mem_append_left _ (List.mem_append_left _ hf)) with
      ⟨m, hm, hmt⟩ | hstop
    · exact Except.ok.inj (hm.symm.trans hfirst) ▸ hmt
    · cases hstop.symm.trans hfirst
  obtain ⟨w, w', hw, hww', hw'⟩ := Value.get_update_self (fun y w => store_number y) hstore
  have hwt : HasType w (.text n) := by
    rcases hm₁.get hu with ⟨v, hv, hvt⟩ | hstop
    · exact Except.ok.inj (hv.symm.trans hw) ▸ hvt
    · cases hstop.symm.trans hw
  have hone : m₂.SizeAt text.2 1 := by
    obtain ⟨y, rfl, -⟩ | ⟨chars, rfl, rfl⟩ := store_cases hww'
    · cases hwt
    · exact ⟨_, hw', rfl⟩
  obtain ⟨k, hk, hsize⟩ := assignFields_small ⟨1, le_rfl, hone⟩ hbetween
  obtain ⟨m₄, hupdate, -⟩ := bind_eq_ok.mp hfield
  obtain ⟨v, -, hv, -, -⟩ := Value.get_update_self (fun y w => store_number y) hupdate
  exact hsize.get_ne_ok (hk.trans hi) (hplace ▸ hv)

/-- `dispatch_packet` is out of bounds exactly if there is room and fields clash. -/
theorem dispatchPacket_outOfBounds_iff {text : BindingText} (h : text.WellFormed false)
    (hmsg : HasType msg t) :
    dispatchPacket cpp t text pkt msg = .error .outOfBounds ↔
      ∃ code, compileBinding false t PlaceType.isAssignable text = some code ∧
        Fits t code.sizes ∧ Clash code.fields := by
  unfold dispatchPacket
  cases hcode : compileBinding false t PlaceType.isAssignable text with
  | none => exact iff_of_false nofun (by rintro ⟨code, ⟨⟩, -⟩)
  | some code =>
    have hsound := compileBinding_sound h hcode
    have hordered : ∀ before size after, [] ++ code.sizes = before ++ size :: after →
        Covered before size.1 := hsound.ordered
    have hnone : Established [] msg := fun size hsize => absurd hsize List.not_mem_nil
    obtain ⟨hroom, hok, hfits⟩ := ensureSizes_spec cpp hordered hsound.containers hmsg hnone
    simp only [Option.some.injEq, exists_eq_left']
    constructor
    · intro hstop
      rcases bind_eq_error.mp hstop with hstop | ⟨msg', hensured, hstop⟩
      · exact absurd hstop hroom
      · obtain ⟨hmsg', hestablished, hfits⟩ := hok msg' hensured
        refine ⟨hfits, ?_⟩
        by_contra hnoClash
        have hclash : ¬ Clash ([] ++ code.fields) := hnoClash
        have hkept : Kept code.sizes [] msg' := by
          intro size hsize
          obtain ⟨k, hk, hle⟩ := hestablished size hsize
          exact ⟨k, hk, .inl hle⟩
        exact assignFields_inBounds hsound.covered hclash hkept hstop
    · rintro ⟨hfit, hclash⟩
      obtain ⟨msg', hensured⟩ := hfits hfit
      rw [hensured]
      exact assignFields_clash (hok msg' hensured).1 hsound.usable hclash

end Execution

-- ---------------------------------------------------------------------------
-- The bindings of a message
-- ---------------------------------------------------------------------------

/-- No access of the bindings of a message is out of bounds, whatever value of the ROS type is received
and whatever packet is dispatched. -/
def BindingsInBounds {σ : Type} (cpp : CppValues σ) (t : PlaceType String) (typeMappings : PyDict)
    (msg : Yaml) : Prop :=
  (∀ text, subscriptionText typeMappings msg = .ok (some text) → ∀ v, HasType v t →
    subscriptionCallback cpp t text v ≠ .error .outOfBounds) ∧
  ∀ text, dispatchText typeMappings msg = .ok (some text) → ∀ v pkt, HasType v t →
    dispatchPacket cpp t text pkt v ≠ .error .outOfBounds

/-- Whether an access was out of bounds, for evaluation. -/
def isOutOfBounds {α : Type} : Except Stop α → Bool
  | .error .outOfBounds => true
  | _ => false

theorem eq_of_isOutOfBounds {α : Type} {x : Except Stop α} (h : isOutOfBounds x = true) :
    x = .error .outOfBounds := by
  unfold isOutOfBounds at h
  split at h
  · rfl
  · cases h

/-- `std_msgs/msg/String`, received into its whole text and then into one of its characters. -/
def clashConfig : Yaml :=
  .map [(.str "serial_controller", demoSerialController), (.str "config", demoSettings 1024),
    (.str "type_mappings", demoTypeMappings []),
    (.str "messages", .list [.map [(.str "name", .str "DemoText"), (.str "id", .int 1),
      (.str "direction", .str "rx"), (.str "pub_topic", .str "demo/text"),
      (.str "ros_msg", .str "std_msgs/msg/String"), (.str "fields", .list [
        .map [(.str "proto", .str "first"), (.str "type", .str "u8"), (.str "ros", .str "data")],
        .map [(.str "proto", .str "fourth"), (.str "type", .str "u8"),
          (.str "ros", .str "data[3]")]])]])]

def stringMsg : PlaceType String := .record [("data", .text (2 ^ 63 - 1))]

/-- Integers without a limit, and a `static_cast` that changes nothing. -/
def integerValues : CppValues Int :=
  { zero := 0, cast := fun _ x => x, inByteRange := fun x => 0 ≤ x && x ≤ 255,
    fresh := PlaceType.fresh 0, typed := PlaceType.fresh_typed 0 }

end AutoSerialBridge
