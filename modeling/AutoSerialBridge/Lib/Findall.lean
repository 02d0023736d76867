import Mathlib

/-!
# Matches in a sequence

Reading a sequence from left to right: the first occurrence of a pattern (`List.dropInfix?`), and the
matches of a matcher that do not overlap, each the leftmost one behind the one before (`findAll`). A
matcher says what it found at the head of a sequence and how many elements that takes.

## Results

* `dropInfix?_eq_some_iff_dropLast`, `dropInfix?_delimited`: where the first occurrence is; behind a
  text in which the pattern cannot begin.
* `findAll_append_of_none`, `findAll_of_match`: one step of `findAll`.
* `findAll_append`, `exists_open_of_mem`: the matches of a sequence with another one behind it, when the
  matcher can tell those that end in the first one from those that are still open.
-/

namespace AutoSerialBridge.Lib

variable {α β γ : Type}

-- ---------------------------------------------------------------------------
-- Occurrences of a pattern
-- ---------------------------------------------------------------------------

/-- A pattern does not cross an element that it does not contain. -/
theorem prefix_of_prefix_append_cons {pat s t : List α} {a : α} (ha : a ∉ pat)
    (h : pat <+: s ++ a :: t) : pat <+: s := by
  rcases List.prefix_or_prefix_of_prefix h (List.prefix_append s (a :: t)) with hp | hp
  · exact hp
  · obtain ⟨rest, rfl⟩ := hp
    obtain ⟨suffix, hsuffix⟩ := h
    rw [List.append_assoc, List.append_cancel_left_eq] at hsuffix
    cases rest with
    | nil => rw [List.append_nil]
    | cons b rest =>
      rw [List.cons_append, List.cons.injEq] at hsuffix
      exact absurd (List.mem_append_right _ (hsuffix.1 ▸ List.mem_cons_self)) ha

@[inherit_doc prefix_of_prefix_append_cons]
theorem infix_of_infix_append_cons {pat s t : List α} {a : α} (ha : a ∉ pat)
    (h : pat <:+: s ++ a :: t) : pat <:+: s ∨ pat <:+: t := by
  induction s with
  | nil =>
    rw [List.nil_append, List.infix_cons_iff] at h
    rcases h with h | h
    · exact .inl (prefix_of_prefix_append_cons ha (s := []) h).isInfix
    · exact .inr h
  | cons b s ih =>
    rw [List.cons_append, List.infix_cons_iff] at h
    rcases h with h | h
    · exact .inl (prefix_of_prefix_append_cons ha (s := b :: s) h).isInfix
    · exact (ih h).imp_left fun hs => hs.trans (List.suffix_cons b s).isInfix

/-- A pattern with the same element at both ends and nowhere else overlaps itself in that element
only. -/
theorem infix_append_dropLast_iff {a : α} {mid t : List α} (ha : a ∉ mid) :
    a :: (mid ++ [a]) <:+: t ++ (a :: (mid ++ [a])).dropLast ↔ a :: (mid ++ [a]) <:+: t ++ [a] := by
  have hdrop : (a :: (mid ++ [a])).dropLast = a :: mid := by
    rw [← List.cons_append, List.dropLast_concat]
  rw [hdrop]
  constructor
  · rintro ⟨t', r', heq⟩
    have hsplit : (t' ++ a :: mid ++ [a]) ++ r' = (t ++ [a]) ++ mid := by simpa using heq
    rcases List.append_eq_append_iff.mp hsplit with ⟨u, hu, -⟩ | ⟨u, hu, hmid⟩
    · exact ⟨t', u, by simpa using hu.symm⟩
    · rcases List.eq_nil_or_concat u with rfl | ⟨u, b, rfl⟩
      · exact ⟨t', [], by simpa using hu⟩
      · -- the last element of the pattern would be one of `mid`
        rw [List.concat_eq_append, ← List.append_assoc] at hu
        obtain ⟨-, hb⟩ := List.append_inj' hu rfl
        obtain rfl := List.singleton_inj.mp hb
        exact absurd (hmid ▸ by simp) ha
  · intro h
    exact h.trans ⟨[], mid, by simp⟩

section DecidableEq

variable [BEq α] [LawfulBEq α] {pat s t r : List α}

theorem dropPrefix?_eq_some {p : List α} : s.dropPrefix? p = some r ↔ s = p ++ r := by
  rw [List.dropPrefix?_eq_some_iff]
  simp

/-- The first occurrence: none begins before it. -/
theorem dropInfix?_eq_some_iff_dropLast (hpat : pat ≠ []) :
    s.dropInfix? pat = some (t, r) ↔ s = t ++ pat ++ r ∧ ¬ pat <:+: t ++ pat.dropLast := by
  have hlength : pat.dropLast.length + 1 = pat.length := by
    rw [List.length_dropLast]
    exact Nat.succ_pred_eq_of_pos (List.length_pos_iff.mpr hpat)
  rw [List.dropInfix?_eq_some_iff]
  simp only [beq_iff_eq, exists_eq_right]
  constructor
  · rintro ⟨rfl, hfirst⟩
    refine ⟨rfl, ?_⟩
    rintro ⟨t', r', heq⟩
    have hwhole : t ++ pat ++ r = t' ++ pat ++ (r' ++ [pat.getLast hpat] ++ r) := by
      calc t ++ pat ++ r = t ++ (pat.dropLast ++ [pat.getLast hpat]) ++ r := by
            rw [List.dropLast_append_getLast]
        _ = t ++ pat.dropLast ++ [pat.getLast hpat] ++ r := by simp only [List.append_assoc]
        _ = t' ++ pat ++ (r' ++ [pat.getLast hpat] ++ r) := by
            rw [← heq]
            simp only [List.append_assoc]
    have hle := hfirst t' pat _ hwhole rfl
    have hlen := congrArg List.length heq
    simp only [List.length_append] at hlen
    omega
  · rintro ⟨rfl, hfirst⟩
    refine ⟨rfl, fun t' pat' r' heq hpat' => ?_⟩
    rw [hpat'] at heq
    by_contra hlt
    have hbegins : t' ++ pat <+: t ++ pat.dropLast := by
      refine List.prefix_of_prefix_length_le ⟨r', heq.symm⟩ ?_ ?_
      · refine ⟨[pat.getLast hpat] ++ r, ?_⟩
        rw [← List.append_assoc, List.append_assoc t, List.dropLast_append_getLast]
      · simp only [List.length_append]
        omega
    exact hfirst ((List.suffix_append t' pat).isInfix.trans hbegins.isInfix)

theorem dropInfix?_eq_none_iff : s.dropInfix? pat = none ↔ ¬ pat <:+: s := by
  constructor
  · rintro hnone ⟨t, r, heq⟩
    -- a shortest part before an occurrence
    have hex : ∃ n t r, t ++ pat ++ r = s ∧ t.length = n := ⟨_, t, r, heq, rfl⟩
    classical
    obtain ⟨t, r, hs, ht⟩ := Nat.find_spec hex
    have hsome : s.dropInfix? pat = some (t, r) := by
      rw [List.dropInfix?_eq_some_iff]
      refine ⟨⟨pat, hs.symm, beq_self_eq_true _⟩, fun t' pat' r' heq hpat' => ?_⟩
      rw [eq_of_beq hpat'] at heq
      rw [ht]
      exact Nat.find_min' hex ⟨t', r', heq.symm, rfl⟩
    rw [hsome] at hnone
    cases hnone
  · intro hpart
    cases h : s.dropInfix? pat with
    | none => rfl
    | some e =>
      obtain ⟨⟨_, rfl, hbeq⟩, -⟩ := List.dropInfix?_eq_some_iff.mp h
      obtain rfl := eq_of_beq hbeq
      exact absurd ⟨e.1, e.2, rfl⟩ hpart

/-- What stands behind does not move the first occurrence. -/
theorem dropInfix?_append (hpat : pat ≠ []) (h : s.dropInfix? pat = some (t, r)) (u : List α) :
    (s ++ u).dropInfix? pat = some (t, r ++ u) := by
  rw [dropInfix?_eq_some_iff_dropLast hpat] at h ⊢
  obtain ⟨rfl, hfirst⟩ := h
  exact ⟨List.append_assoc _ _ _, hfirst⟩

/-- Behind a text in which the pattern cannot begin. -/
theorem dropInfix?_delimited {a : α} {mid : List α} (ha : a ∉ mid)
    (ht : ¬ a :: (mid ++ [a]) <:+: t ++ [a]) :
    (t ++ (a :: (mid ++ [a])) ++ r).dropInfix? (a :: (mid ++ [a])) = some (t, r) := by
  rw [dropInfix?_eq_some_iff_dropLast (List.cons_ne_nil _ _), infix_append_dropLast_iff ha]
  exact ⟨rfl, ht⟩

end DecidableEq

-- ---------------------------------------------------------------------------
-- Matches that do not overlap
-- ---------------------------------------------------------------------------

/-- The matches behind the elements to skip. -/
def findAllFrom (m : List α → Option (β × Nat)) : Nat → List α → List β
  | _, [] => []
  | skip + 1, _ :: rest => findAllFrom m skip rest
  | 0, a :: rest =>
    match m (a :: rest) with
    | some (b, n) => b :: findAllFrom m (n - 1) rest
    | none => findAllFrom m 0 rest

/-- The matches of a matcher, from left to right. -/
def findAll (m : List α → Option (β × Nat)) (s : List α) : List β := findAllFrom m 0 s

section FindAll

variable {m : List α → Option (β × Nat)} {s t : List α}

@[simp] theorem findAll_nil : findAll m [] = [] := rfl

theorem findAllFrom_eq (skip : Nat) (s : List α) :
    findAllFrom m skip s = findAll m (s.drop skip) := by
  induction s generalizing skip with
  | nil => simp [findAll, findAllFrom]
  | cons a s ih =>
    cases skip with
    | zero => rfl
    | succ skip => rw [findAllFrom, ih, List.drop_succ_cons]

theorem findAll_of_match {b : β} {n : Nat} (h : m s = some (b, n)) (hn : 0 < n) (hs : s ≠ []) :
    findAll m s = b :: findAll m (s.drop n) := by
  obtain ⟨a, s, rfl⟩ := List.exists_cons_of_ne_nil hs
  obtain ⟨k, rfl⟩ := Nat.exists_eq_succ_of_ne_zero hn.ne'
  unfold findAll
  rw [findAllFrom, h]
  exact congrArg (b :: ·) (findAllFrom_eq k s)

theorem findAll_cons_of_none {a : α} (h : m (a :: s) = none) : findAll m (a :: s) = findAll m s := by
  unfold findAll
  rw [findAllFrom, h]

/-- No match begins in the first part. -/
theorem findAll_append_of_none (h : ∀ u, u <:+ s → u ≠ [] → m (u ++ t) = none) :
    findAll m (s ++ t) = findAll m t := by
  induction s with
  | nil => rfl
  | cons a s ih =>
    have hhead : m (a :: (s ++ t)) = none := h _ List.suffix_rfl (List.cons_ne_nil _ _)
    rw [List.cons_append, findAll_cons_of_none hhead]
    exact ih fun u hu => h u (hu.trans (List.suffix_cons a s))

theorem exists_match_of_mem {b : β} (h : b ∈ findAll m s) : ∃ u n, u <:+ s ∧ m u = some (b, n) := by
  have hfrom : ∀ (s : List α) (skip : Nat), b ∈ findAllFrom m skip s →
      ∃ u n, u <:+ s ∧ m u = some (b, n) := by
    intro s
    induction s with
    | nil =>
      intro skip hmem
      rw [findAllFrom] at hmem
      cases hmem
    | cons a s ih =>
      intro skip hmem
      have hrest : ∀ skip, b ∈ findAllFrom m skip s → ∃ u n, u <:+ a :: s ∧ m u = some (b, n) := by
        intro skip hmem
        obtain ⟨u, n, hu, hmatch⟩ := ih skip hmem
        exact ⟨u, n, hu.trans (List.suffix_cons a s), hmatch⟩
      cases skip with
      | succ skip => exact hrest skip hmem
      | zero =>
        rw [findAllFrom] at hmem
        split at hmem
        · next b' n hmatch =>
          rcases List.mem_cons.mp hmem with rfl | hmem
          · exact ⟨a :: s, n, List.suffix_rfl, hmatch⟩
          · exact hrest _ hmem
        · exact hrest _ hmem
  exact hfrom s 0 h

end FindAll

section Open

variable {m : List α → Option (β × Nat)} {m' : List α → Option (Option β × Nat)} {s : List α}

/-- `m'` is `m` on the parts of `s`, but that it also finds, as `none`, the matches that begin in a
part and do not end there. -/
structure Closes (m : List α → Option (β × Nat)) (m' : List α → Option (Option β × Nat))
    (s : List α) : Prop where
  none : ∀ u, u <:+ s → u ≠ [] → m' u = .none → ∀ t, m (u ++ t) = .none
  some : ∀ u, u <:+ s → ∀ b n, m' u = .some (.some b, n) →
    0 < n ∧ n ≤ u.length ∧ ∀ t, m (u ++ t) = .some (b, n)

theorem Closes.suffix {u : List α} (h : Closes m m' s) (hu : u <:+ s) : Closes m m' u :=
  ⟨fun v hv => h.none v (hv.trans hu), fun v hv => h.some v (hv.trans hu)⟩

theorem findAllFrom_append {skip : Nat} (h : Closes m m' s) (hskip : skip ≤ s.length)
    (hall : ∀ c ∈ findAllFrom m' skip s, c ≠ none) (t : List α) :
    findAllFrom m skip (s ++ t) = (findAllFrom m' skip s).reduceOption ++ findAll m t := by
  induction s generalizing skip with
  | nil =>
    obtain rfl := Nat.le_zero.mp hskip
    rfl
  | cons a s ih =>
    have hrest := h.suffix (List.suffix_cons a s)
    cases skip with
    | succ skip => exact ih hrest (Nat.le_of_succ_le_succ hskip) hall
    | zero =>
      cases hm : m' (a :: s) with
      | none =>
        have hnone : m (a :: (s ++ t)) = none :=
          h.none _ List.suffix_rfl (List.cons_ne_nil _ _) hm t
        simp only [List.cons_append, findAllFrom, hm, hnone] at hall ⊢
        exact ih hrest (Nat.zero_le _) hall
      | some e =>
        obtain ⟨c, n⟩ := e
        cases c with
        | none =>
          simp only [findAllFrom, hm] at hall
          exact absurd rfl (hall none List.mem_cons_self)
        | some b =>
          obtain ⟨-, hn, hsome⟩ := h.some _ List.suffix_rfl b n hm
          have hsome : m (a :: (s ++ t)) = some (b, n) := hsome t
          simp only [List.cons_append, findAllFrom, hm, hsome] at hall ⊢
          rw [List.reduceOption_cons_of_some, List.cons_append]
          refine congrArg (b :: ·) (ih hrest ?_ fun c hc => hall c (List.mem_cons_of_mem _ hc))
          rw [List.length_cons] at hn
          omega

/-- All matches that begin in `s` end there. -/
theorem findAll_append (h : Closes m m' s) (hall : ∀ c ∈ findAll m' s, c ≠ none) (t : List α) :
    findAll m (s ++ t) = (findAll m' s).reduceOption ++ findAll m t :=
  findAllFrom_append h (Nat.zero_le _) hall t

theorem exists_openFrom_of_mem {skip : Nat} (h : Closes m m' s) (hskip : skip ≤ s.length)
    (hmem : none ∈ findAllFrom m' skip s) :
    ∃ pre u n, u <:+ s ∧ m' u = some (none, n) ∧
      ∀ t, findAllFrom m skip (s ++ t) = pre ++ findAll m (u ++ t) := by
  induction s generalizing skip with
  | nil =>
    rw [findAllFrom] at hmem
    cases hmem
  | cons a s ih =>
    have hrest := h.suffix (List.suffix_cons a s)
    cases skip with
    | succ skip =>
      obtain ⟨pre, u, n, hu, hopen, heq⟩ := ih hrest (Nat.le_of_succ_le_succ hskip) hmem
      exact ⟨pre, u, n, hu.trans (List.suffix_cons a s), hopen, heq⟩
    | zero =>
      cases hm : m' (a :: s) with
      | none =>
        simp only [findAllFrom, hm] at hmem
        obtain ⟨pre, u, n, hu, hopen, heq⟩ := ih hrest (Nat.zero_le _) hmem
        refine ⟨pre, u, n, hu.trans (List.suffix_cons a s), hopen, fun t => ?_⟩
        have hnone : m (a :: (s ++ t)) = none :=
          h.none _ List.suffix_rfl (List.cons_ne_nil _ _) hm t
        simp only [List.cons_append, findAllFrom, hnone]
        exact heq t
      | some e =>
        obtain ⟨c, n⟩ := e
        cases c with
        | none => exact ⟨[], a :: s, n, List.suffix_rfl, hm, fun _ => rfl⟩
        | some b =>
          obtain ⟨-, hn, hsome⟩ := h.some _ List.suffix_rfl b n hm
          simp only [findAllFrom, hm, List.mem_cons, reduceCtorEq, false_or] at hmem
          have hlen : n - 1 ≤ s.length := by
            rw [List.length_cons] at hn
            omega
          obtain ⟨pre, u, k, hu, hopen, heq⟩ := ih hrest hlen hmem
          refine ⟨b :: pre, u, k, hu.trans (List.suffix_cons a s), hopen, fun t => ?_⟩
          have hsome : m (a :: (s ++ t)) = some (b, n) := hsome t
          simp only [List.cons_append, findAllFrom, hsome]
          exact congrArg (b :: ·) (heq t)

/-- A match begins in `s` and is still open at its end: the first one of them. -/
theorem exists_open_of_mem (h : Closes m m' s) (hmem : none ∈ findAll m' s) :
    ∃ pre u n, u <:+ s ∧ m' u = some (none, n) ∧
      ∀ t, findAll m (s ++ t) = pre ++ findAll m (u ++ t) :=
  exists_openFrom_of_mem h (Nat.zero_le _) hmem

end Open

end AutoSerialBridge.Lib
