import Mathlib

/-!
# Streaming scanners

A receiver that looks at the head of its buffer and either waits for more input or removes a
prefix, possibly reporting something, is described by one function: the `Verdict` on the bytes
buffered so far. Nothing here depends on what is scanned.

The point of the file is **chunk independence**. A verdict that advances may not change when more
input arrives (`Scanner.stable`); then a step taken on a part of the input is a step on the whole
input (`Steps.append`), two complete scans of one input agree (`Steps.unique`), and therefore any
interleaving of "append some input" and "scan for a while" ends where the single scan of the
whole input ends.

## Results

* `Scanner.scan_spec`   — the executable scan makes steps until it has to wait.
* `Scanner.Steps.unique` — complete scans are deterministic.
* `Scanner.scan_append` — scanning a concatenation is scanning the residue with the rest.
* `Scanner.Steps.length_lt` — a scan that starts with an advance frees room.
* `Scanner.scan_filterMap` — forgetting part of the reports commutes with scanning.
-/

namespace AutoSerialBridge.Lib

/-- What the receiver does with the buffered input: wait for more, or remove `n` items and
possibly report `out`. -/
inductive Verdict (β : Type) where
  | wait
  | advance (n : Nat) (out : Option β)
deriving DecidableEq, Repr

/-- Keep only part of what is reported. -/
def Verdict.filterMap {β γ : Type} (f : β → Option γ) : Verdict β → Verdict γ
  | .wait => .wait
  | .advance n out => .advance n (out.bind f)

/-- A scanner is its verdict function, with the three laws that make it a streaming decoder. -/
structure Scanner (α β : Type) where
  verdict : List α → Verdict β
  pos : ∀ {l : List α} {n : Nat} {out : Option β}, verdict l = .advance n out → 0 < n
  le_length : ∀ {l : List α} {n : Nat} {out : Option β},
    verdict l = .advance n out → n ≤ l.length
  stable : ∀ {l : List α} {n : Nat} {out : Option β} (m : List α),
    verdict l = .advance n out → verdict (l ++ m) = .advance n out

namespace Scanner

variable {α β : Type} (S : Scanner α β)

-- ---------------------------------------------------------------------------
-- Runs of a scanner
-- ---------------------------------------------------------------------------

/-- `S.Steps l es r`: starting with `l` buffered, some advances report `es` and leave `r`. -/
inductive Steps : List α → List β → List α → Prop where
  | refl (l : List α) : Steps l [] l
  | head {l r : List α} {n : Nat} {out : Option β} {es : List β}
      (hv : S.verdict l = .advance n out) (hs : Steps (l.drop n) es r) :
      Steps l (out.toList ++ es) r

variable {S}

theorem Steps.single {l : List α} {n : Nat} {out : Option β}
    (hv : S.verdict l = .advance n out) : S.Steps l out.toList (l.drop n) := by
  simpa using Steps.head hv (Steps.refl (S := S) (l.drop n))

theorem Steps.trans {l m r : List α} {es fs : List β}
    (h : S.Steps l es m) (h' : S.Steps m fs r) : S.Steps l (es ++ fs) r := by
  induction h with
  | refl l => simpa using h'
  | head hv _ ih =>
    rw [List.append_assoc]
    exact Steps.head hv (ih h')

/-- A run on a part of the input is a run on the whole input. -/
theorem Steps.append {l r : List α} {es : List β} (h : S.Steps l es r) (m : List α) :
    S.Steps (l ++ m) es (r ++ m) := by
  induction h with
  | refl l => exact Steps.refl _
  | head hv _ ih =>
    refine Steps.head (S.stable m hv) ?_
    rw [List.drop_append_of_le_length (S.le_length hv)]
    exact ih

/-- What a run leaves is a suffix of what it started with. -/
theorem Steps.suffix {l r : List α} {es : List β} (h : S.Steps l es r) : r <:+ l := by
  induction h with
  | refl l => exact List.suffix_refl l
  | head _ _ ih => exact ih.trans (List.drop_suffix _ _)

/-- Complete runs are deterministic: a waiting buffer is the end of the run. -/
theorem Steps.unique {l r r' : List α} {es es' : List β}
    (h : S.Steps l es r) (hr : S.verdict r = .wait)
    (h' : S.Steps l es' r') (hr' : S.verdict r' = .wait) : es = es' ∧ r = r' := by
  induction h generalizing es' r' with
  | refl l =>
    cases h' with
    | refl => exact ⟨rfl, rfl⟩
    | head hv _ => rw [hr] at hv; cases hv
  | head hv _ ih =>
    cases h' with
    | refl => rw [hr'] at hv; cases hv
    | head hv' hs' =>
      rw [hv] at hv'
      cases hv'
      obtain ⟨rfl, rfl⟩ := ih hr hs' hr'
      exact ⟨rfl, rfl⟩

/-- A run whose first verdict advances leaves strictly less than it started with. -/
theorem Steps.length_lt {l r : List α} {es : List β} (h : S.Steps l es r)
    (hl : S.verdict l ≠ .wait) (hr : S.verdict r = .wait) : r.length < l.length := by
  cases h with
  | refl => exact absurd hr hl
  | head hv hs =>
    have hpos := S.pos hv
    have hle := S.le_length hv
    have hsuf := hs.suffix.length_le
    rw [List.length_drop] at hsuf
    omega

-- ---------------------------------------------------------------------------
-- The executable scan
-- ---------------------------------------------------------------------------

variable (S)

/-- Advance until the verdict is to wait; every advance removes an item, so the length of the
input is enough fuel. -/
def scanWith : Nat → List α → List β × List α
  | 0, l => ([], l)
  | fuel + 1, l =>
    match S.verdict l with
    | .wait => ([], l)
    | .advance n out =>
      let (es, r) := scanWith fuel (l.drop n)
      (out.toList ++ es, r)

/-- The complete scan of an input: everything reported, and the residue. -/
def scan (l : List α) : List β × List α := S.scanWith l.length l

theorem verdict_nil : S.verdict [] = .wait := by
  cases h : S.verdict [] with
  | wait => rfl
  | advance n out =>
    have hpos := S.pos h
    have hle := S.le_length h
    simp only [List.length_nil] at hle
    omega

theorem scanWith_spec : ∀ {fuel : Nat} {l : List α}, l.length ≤ fuel →
    S.Steps l (S.scanWith fuel l).1 (S.scanWith fuel l).2 ∧
      S.verdict (S.scanWith fuel l).2 = .wait := by
  intro fuel
  induction fuel with
  | zero =>
    intro l hl
    obtain rfl : l = [] := List.length_eq_zero_iff.mp (by omega)
    exact ⟨Steps.refl _, S.verdict_nil⟩
  | succ fuel ih =>
    intro l hl
    rw [scanWith]
    cases hv : S.verdict l with
    | wait => exact ⟨Steps.refl _, hv⟩
    | advance n out =>
      have hpos := S.pos hv
      have hdrop : (l.drop n).length ≤ fuel := by
        rw [List.length_drop]
        omega
      obtain ⟨hsteps, hwait⟩ := ih hdrop
      exact ⟨Steps.head hv hsteps, hwait⟩

theorem scan_spec (l : List α) :
    S.Steps l (S.scan l).1 (S.scan l).2 ∧ S.verdict (S.scan l).2 = .wait :=
  S.scanWith_spec (Nat.le_refl _)

variable {S}

/-- Any complete run computes the scan. -/
theorem Steps.eq_scan {l r : List α} {es : List β} (h : S.Steps l es r)
    (hr : S.verdict r = .wait) : S.scan l = (es, r) := by
  obtain ⟨hsteps, hwait⟩ := S.scan_spec l
  obtain ⟨h1, h2⟩ := hsteps.unique hwait h hr
  exact Prod.ext h1 h2

theorem scan_of_wait {l : List α} (h : S.verdict l = .wait) : S.scan l = ([], l) :=
  (Steps.refl l).eq_scan h

/-- Scanning after a run is scanning from where the run stopped. -/
theorem Steps.scan_eq {l r : List α} {es : List β} (h : S.Steps l es r) :
    S.scan l = (es ++ (S.scan r).1, (S.scan r).2) := by
  obtain ⟨hsteps, hwait⟩ := S.scan_spec r
  exact (h.trans hsteps).eq_scan hwait

/-- **Chunk independence.** Scanning a concatenation is scanning the first part and then its
residue together with the second part. -/
theorem scan_append (l m : List α) :
    S.scan (l ++ m) =
      ((S.scan l).1 ++ (S.scan ((S.scan l).2 ++ m)).1, (S.scan ((S.scan l).2 ++ m)).2) :=
  ((S.scan_spec l).1.append m).scan_eq

/-- A property of every report of a single verdict is a property of every report of a run. -/
theorem Steps.forall_report {P : β → Prop}
    (h1 : ∀ {l n b}, S.verdict l = .advance n (some b) → P b)
    {l r : List α} {es : List β} (h : S.Steps l es r) : ∀ b ∈ es, P b := by
  induction h with
  | refl l => simp
  | head hv _ ih =>
    rename_i out _ _
    intro b hb
    rcases List.mem_append.mp hb with hout | hes
    · cases out with
      | none => simp at hout
      | some b' =>
        obtain rfl : b = b' := by simpa using hout
        exact h1 hv
    · exact ih b hes

-- ---------------------------------------------------------------------------
-- Forgetting part of the report
-- ---------------------------------------------------------------------------

theorem scan_congr {S T : Scanner α β} (h : ∀ l, S.verdict l = T.verdict l) (l : List α) :
    S.scan l = T.scan l := by
  have hST : ∀ {l r : List α} {es : List β}, S.Steps l es r → T.Steps l es r := by
    intro l r es hs
    induction hs with
    | refl l => exact Steps.refl l
    | head hv _ ih => exact Steps.head (by rw [← h]; exact hv) ih
  obtain ⟨hsteps, hwait⟩ := S.scan_spec l
  exact ((hST hsteps).eq_scan (by rw [← h]; exact hwait)).symm

variable {γ : Type}

/-- The scanner that reports only what `f` keeps. -/
def filterMap (S : Scanner α β) (f : β → Option γ) : Scanner α γ where
  verdict l := (S.verdict l).filterMap f
  pos {l n out} h := by
    cases hv : S.verdict l with
    | wait => rw [hv] at h; cases h
    | advance n' out' => rw [hv] at h; cases h; exact S.pos hv
  le_length {l n out} h := by
    cases hv : S.verdict l with
    | wait => rw [hv] at h; cases h
    | advance n' out' => rw [hv] at h; cases h; exact S.le_length hv
  stable {l n out} m h := by
    cases hv : S.verdict l with
    | wait => rw [hv] at h; cases h
    | advance n' out' => rw [hv] at h; rw [S.stable m hv, h]

theorem scan_filterMap (S : Scanner α β) (f : β → Option γ) (l : List α) :
    (S.filterMap f).scan l = ((S.scan l).1.filterMap f, (S.scan l).2) := by
  have hmap : ∀ {l r : List α} {es : List β}, S.Steps l es r →
      (S.filterMap f).Steps l (es.filterMap f) r := by
    intro l r es hs
    induction hs with
    | refl l => exact Steps.refl l
    | @head l r n out es hv _ ih =>
      have hv' : (S.filterMap f).verdict l = .advance n (out.bind f) := by
        simp only [filterMap, hv, Verdict.filterMap]
      have hout : (out.toList ++ es).filterMap f = (out.bind f).toList ++ es.filterMap f := by
        rw [List.filterMap_append]
        congr 1
        cases out with
        | none => rfl
        | some b => cases hfb : f b <;> simp [hfb]
      rw [hout]
      exact Steps.head hv' ih
  obtain ⟨hsteps, hwait⟩ := S.scan_spec l
  exact (hmap hsteps).eq_scan (by simp only [filterMap, hwait, Verdict.filterMap])

end Scanner

end AutoSerialBridge.Lib
