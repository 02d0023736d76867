import Mathlib

/-!
# Computations that can fail

Inversion rules for `Except` and `Option` computations: what is known when a bind, or a `mapM` over
a list, has returned. A successful `mapM` is the pointwise relation `List.Forall₂` between its
arguments and its results, and the lemmas on `List.Forall₂` here say what passes along it.
-/

namespace AutoSerialBridge.Lib

variable {ε α β γ : Type}

theorem bind_eq_ok {x : Except ε α} {f : α → Except ε β} {b : β} :
    (x >>= f) = .ok b ↔ ∃ a, x = .ok a ∧ f a = .ok b := by
  cases x with
  | error e => exact ⟨nofun, nofun⟩
  | ok a => exact ⟨fun h => ⟨a, rfl, h⟩, fun ⟨_, rfl, h⟩ => h⟩

theorem bind_eq_error {x : Except ε α} {f : α → Except ε β} {e : ε} :
    (x >>= f) = .error e ↔ x = .error e ∨ ∃ a, x = .ok a ∧ f a = .error e := by
  cases x with
  | error e' =>
    exact ⟨fun h => .inl (congrArg _ (Except.error.inj h)), by rintro (⟨⟨⟩⟩ | ⟨_, ⟨⟩, -⟩); rfl⟩
  | ok a => exact ⟨fun h => .inr ⟨a, rfl, h⟩, by rintro (⟨⟨⟩⟩ | ⟨_, ⟨⟩, h⟩); exact h⟩

@[simp] theorem pure_eq_ok {a b : α} : (pure a : Except ε α) = .ok b ↔ a = b :=
  ⟨fun h => Except.ok.inj h, fun h => h ▸ rfl⟩

@[simp] theorem throw_ne_ok {e : ε} {b : α} : (throw e : Except ε α) ≠ .ok b := nofun

/-- A `mapM` that returns has returned at every element. -/
theorem mapM_eq_ok {f : α → Except ε β} {xs : List α} {ys : List β} :
    xs.mapM f = .ok ys ↔ List.Forall₂ (fun x y => f x = .ok y) xs ys := by
  induction xs generalizing ys with
  | nil =>
    rw [List.mapM_nil, pure_eq_ok, List.forall₂_nil_left_iff, eq_comm]
  | cons x xs ih =>
    rw [List.mapM_cons, bind_eq_ok]
    constructor
    · rintro ⟨y, hy, h⟩
      obtain ⟨ys', hys', h⟩ := bind_eq_ok.mp h
      rw [← pure_eq_ok.mp h]
      exact .cons hy (ih.mp hys')
    · rintro (_ | ⟨hy, h⟩)
      exact ⟨_, hy, bind_eq_ok.mpr ⟨_, ih.mpr h, rfl⟩⟩

/-- A `mapM` that fails has failed at some element. -/
theorem mapM_eq_error {f : α → Except ε β} {xs : List α} {e : ε} (h : xs.mapM f = .error e) :
    ∃ x ∈ xs, f x = .error e := by
  induction xs with
  | nil => cases h
  | cons x xs ih =>
    rw [List.mapM_cons] at h
    rcases bind_eq_error.mp h with hx | ⟨y, -, h⟩
    · exact ⟨x, List.mem_cons_self, hx⟩
    · rcases bind_eq_error.mp h with hxs | ⟨ys, -, h⟩
      · obtain ⟨x', hx', he⟩ := ih hxs
        exact ⟨x', List.mem_cons_of_mem _ hx', he⟩
      · cases h

@[inherit_doc mapM_eq_ok]
theorem mapM_eq_some {f : α → Option β} {xs : List α} {ys : List β} :
    xs.mapM f = some ys ↔ List.Forall₂ (fun x y => f x = some y) xs ys := by
  induction xs generalizing ys with
  | nil => simp [List.forall₂_nil_left_iff, eq_comm]
  | cons x xs ih =>
    simp only [List.mapM_cons, Option.bind_eq_bind, Option.bind_eq_some_iff, Option.pure_def,
      Option.some.injEq]
    constructor
    · rintro ⟨y, hy, ys', hys', rfl⟩
      exact .cons hy (ih.mp hys')
    · rintro (_ | ⟨hy, h⟩)
      exact ⟨_, hy, _, ih.mpr h, rfl⟩

/-- The computation returns. -/
def Returns (x : Except ε α) : Prop := ∃ a, x = .ok a

theorem returns_ok (a : α) : Returns (.ok a : Except ε α) := ⟨a, rfl⟩

theorem not_returns_error (e : ε) : ¬ Returns (.error e : Except ε α) := nofun

theorem returns_of_isOk {x : Except ε α} (h : x.isOk = true) : Returns x := by
  cases x with
  | error e => cases h
  | ok a => exact ⟨a, rfl⟩

/-- A check on the result, for evaluation. -/
theorem exists_of_toOption_any {x : Except ε α} {p : α → Bool} (h : x.toOption.any p = true) :
    ∃ a, x = .ok a ∧ p a = true := by
  cases x with
  | error e => cases h
  | ok a => exact ⟨a, rfl, h⟩

@[simp] theorem returns_pure (a : α) : Returns (pure a : Except ε α) := returns_ok a

theorem returns_bind {x : Except ε α} {f : α → Except ε β} :
    Returns (x >>= f) ↔ ∃ a, x = .ok a ∧ Returns (f a) := by
  constructor
  · rintro ⟨b, h⟩
    obtain ⟨a, hx, hf⟩ := bind_eq_ok.mp h
    exact ⟨a, hx, b, hf⟩
  · rintro ⟨a, hx, b, hf⟩
    exact ⟨b, bind_eq_ok.mpr ⟨a, hx, hf⟩⟩

theorem returns_bind_pure {x : Except ε α} {f : α → β} :
    Returns (x >>= fun a => pure (f a)) ↔ Returns x := by
  rw [returns_bind]
  exact ⟨fun ⟨a, hx, _⟩ => ⟨a, hx⟩, fun ⟨a, hx⟩ => ⟨a, hx, returns_pure _⟩⟩

theorem returns_bind_ok {x : Except ε α} {f : α → Except ε β} {a : α} (h : x = .ok a) :
    Returns (x >>= f) ↔ Returns (f a) := by
  rw [h]
  rfl

/-- What follows does not depend on the value. -/
theorem returns_bind_and {x : Except ε α} {f : α → Except ε β} {P : Prop}
    (h : ∀ a, x = .ok a → (Returns (f a) ↔ P)) : Returns (x >>= f) ↔ Returns x ∧ P := by
  rw [returns_bind]
  constructor
  · rintro ⟨a, hx, hf⟩
    exact ⟨⟨a, hx⟩, (h a hx).mp hf⟩
  · rintro ⟨⟨a, hx⟩, hP⟩
    exact ⟨a, hx, (h a hx).mpr hP⟩

theorem returns_mapM {f : α → Except ε β} {xs : List α} :
    Returns (xs.mapM f) ↔ ∀ x ∈ xs, Returns (f x) := by
  induction xs with
  | nil =>
    rw [List.mapM_nil]
    exact iff_of_true (returns_pure _) nofun
  | cons x xs ih =>
    rw [List.mapM_cons, returns_bind, List.forall_mem_cons, ← ih]
    constructor
    · rintro ⟨y, hy, h⟩
      exact ⟨⟨y, hy⟩, returns_bind_pure.mp h⟩
    · rintro ⟨⟨y, hy⟩, h⟩
      exact ⟨y, hy, returns_bind_pure.mpr h⟩

/-- A `filterM` that returns at every element filters. -/
theorem filterM_eq_ok {f : α → Except ε Bool} {p : α → Bool} {xs : List α}
    (h : ∀ x ∈ xs, f x = .ok (p x)) : xs.filterM f = .ok (xs.filter p) := by
  have haux : ∀ acc : List α, List.filterAuxM f xs acc = .ok ((xs.filter p).reverse ++ acc) := by
    induction xs with
    | nil => exact fun _ => rfl
    | cons x xs ih =>
      intro acc
      rw [List.filterAuxM, h x List.mem_cons_self]
      refine (ih (fun y hy => h y (List.mem_cons_of_mem _ hy)) _).trans ?_
      cases hx : p x <;> simp [hx]
  unfold List.filterM
  refine bind_eq_ok.mpr ⟨_, haux [], ?_⟩
  rw [List.append_nil, List.reverse_reverse]
  rfl

/-- Every element on the right comes from one on the left. -/
theorem exists_left_of_forall₂ {R : α → β → Prop} {xs : List α} {ys : List β}
    (h : List.Forall₂ R xs ys) {y : β} (hy : y ∈ ys) : ∃ x ∈ xs, R x y := by
  induction h with
  | nil => cases hy
  | cons hr _ ih =>
    rcases List.mem_cons.mp hy with rfl | hy
    · exact ⟨_, List.mem_cons_self, hr⟩
    · obtain ⟨x, hx, hr⟩ := ih hy
      exact ⟨x, List.mem_cons_of_mem _ hx, hr⟩

/-- Every element on the left leads to one on the right. -/
theorem exists_right_of_forall₂ {R : α → β → Prop} {xs : List α} {ys : List β}
    (h : List.Forall₂ R xs ys) {x : α} (hx : x ∈ xs) : ∃ y ∈ ys, R x y := by
  obtain ⟨y, hy, hr⟩ := exists_left_of_forall₂ h.flip hx
  exact ⟨y, hy, hr⟩

/-- An element on the right splits both lists. -/
theorem forall₂_append_cons {R : α → β → Prop} {xs : List α} {pre post : List β} {y : β}
    (h : List.Forall₂ R xs (pre ++ y :: post)) :
    ∃ pre' x post', xs = pre' ++ x :: post' ∧ List.Forall₂ R pre' pre ∧ R x y := by
  induction pre generalizing xs with
  | nil =>
    obtain ⟨x, post', hr, -, rfl⟩ := List.forall₂_cons_right_iff.mp h
    exact ⟨[], x, post', rfl, .nil, hr⟩
  | cons z pre ih =>
    obtain ⟨x', rest, hr, hrest, rfl⟩ := List.forall₂_cons_right_iff.mp h
    obtain ⟨pre', x, post', rfl, hpre, hx⟩ := ih hrest
    exact ⟨x' :: pre', x, post', rfl, .cons hr hpre, hx⟩

/-- A property that the relation keeps holds of all elements of both lists or of neither. -/
theorem forall_mem_congr_of_forall₂ {R : α → β → Prop} {P : α → Prop} {Q : β → Prop} {xs : List α}
    {ys : List β} (h : List.Forall₂ R xs ys) (hR : ∀ x y, R x y → (P x ↔ Q y)) :
    (∀ x ∈ xs, P x) ↔ ∀ y ∈ ys, Q y := by
  induction h with
  | nil => exact iff_of_true nofun nofun
  | cons hr _ ih => rw [List.forall_mem_cons, List.forall_mem_cons, hR _ _ hr, ih]

/-- A property that the relation keeps holds of some element of both lists or of neither. -/
theorem exists_mem_congr_of_forall₂ {R : α → β → Prop} {P : α → Prop} {Q : β → Prop} {xs : List α}
    {ys : List β} (h : List.Forall₂ R xs ys) (hR : ∀ x y, R x y → (P x ↔ Q y)) :
    (∃ x ∈ xs, P x) ↔ ∃ y ∈ ys, Q y := by
  induction h with
  | nil => exact iff_of_false (by simp) (by simp)
  | cons hr _ ih => rw [List.exists_mem_cons_iff, List.exists_mem_cons_iff, hR _ _ hr, ih]

/-- A quantity that the relation keeps has the same list of values on both sides. -/
theorem map_eq_of_forall₂ {R : α → β → Prop} {f : α → γ} {g : β → γ} {xs : List α} {ys : List β}
    (h : List.Forall₂ R xs ys) (hR : ∀ x y, x ∈ xs → R x y → f x = g y) :
    xs.map f = ys.map g := by
  induction h with
  | nil => rfl
  | cons hr _ ih =>
    rw [List.map_cons, List.map_cons, hR _ _ List.mem_cons_self hr,
      ih fun x y hx => hR x y (List.mem_cons_of_mem _ hx)]

/-- A partial function with a value at every element picks all of them. -/
theorem filterMap_eq_of_forall₂ {R : α → β → Prop} {f : α → Option γ} {g : β → γ} {xs : List α}
    {ys : List β} (h : List.Forall₂ R xs ys) (hR : ∀ x y, R x y → f x = some (g y)) :
    xs.filterMap f = ys.map g := by
  induction h with
  | nil => rfl
  | cons hr _ ih => rw [List.filterMap_cons_some (hR _ _ hr), ih, List.map_cons]

theorem forall₂_comp {R : α → β → Prop} {S : β → γ → Prop} {T : α → γ → Prop}
    (hT : ∀ x y z, R x y → S y z → T x z) {xs : List α} {ys : List β} {zs : List γ}
    (h : List.Forall₂ R xs ys) (h' : List.Forall₂ S ys zs) : List.Forall₂ T xs zs := by
  induction h generalizing zs with
  | nil => exact List.forall₂_nil_left_iff.mp h' ▸ .nil
  | cons hr _ ih =>
    obtain ⟨z, zs, hs, hrest, rfl⟩ := List.forall₂_cons_left_iff.mp h'
    exact .cons (hT _ _ _ hr hs) (ih hrest)

/-- Two lists related to a common one, side by side. -/
theorem forall₂_and_of_common {R : α → β → Prop} {S : α → γ → Prop} {xs : List α} {ys : List β}
    {zs : List γ} (h : List.Forall₂ R xs ys) (h' : List.Forall₂ S xs zs) :
    List.Forall₂ (fun x z => ∃ y, R x y ∧ S x z) xs zs := by
  induction h generalizing zs with
  | nil => exact List.forall₂_nil_left_iff.mp h' ▸ .nil
  | cons hr _ ih =>
    obtain ⟨z, zs, hs, hrest, rfl⟩ := List.forall₂_cons_left_iff.mp h'
    exact .cons ⟨_, hr, hs⟩ (ih hrest)

/-- A pairwise property of the left list that the relation carries over. -/
theorem pairwise_of_forall₂ {R : α → β → Prop} {P : α → α → Prop} {Q : β → β → Prop} {xs : List α}
    {ys : List β} (h : List.Forall₂ R xs ys) (hP : xs.Pairwise P)
    (hQ : ∀ x y x' y', R x y → R x' y' → P x x' → Q y y') : ys.Pairwise Q := by
  induction h with
  | nil => exact .nil
  | cons hr hrest ih =>
    obtain ⟨hhead, htail⟩ := List.pairwise_cons.mp hP
    refine List.pairwise_cons.mpr ⟨fun y hy => ?_, ih htail⟩
    obtain ⟨x, hx, hxy⟩ := exists_left_of_forall₂ hrest hy
    exact hQ _ _ _ _ hr hxy (hhead x hx)

/-- A partial function without repeated values tells the elements apart. -/
theorem eq_of_nodup_filterMap {f : α → Option β} {xs : List α} (h : (xs.filterMap f).Nodup)
    {x y : α} {b : β} (hx : x ∈ xs) (hy : y ∈ xs) (hfx : f x = some b) (hfy : f y = some b) :
    x = y := by
  induction xs with
  | nil => cases hx
  | cons z xs ih =>
    have hmem : ∀ {w : α}, w ∈ xs → f w = some b → b ∈ xs.filterMap f :=
      fun hw hfw => List.mem_filterMap.mpr ⟨_, hw, hfw⟩
    have htail : (xs.filterMap f).Nodup := by
      rw [List.filterMap_cons] at h
      split at h
      · exact h
      · exact (List.nodup_cons.mp h).2
    have hhead : f z = some b → b ∉ xs.filterMap f := by
      intro hz
      rw [List.filterMap_cons_some hz] at h
      exact (List.nodup_cons.mp h).1
    rcases List.mem_cons.mp hx with rfl | hx'
    · rcases List.mem_cons.mp hy with rfl | hy'
      · rfl
      · exact absurd (hmem hy' hfy) (hhead hfx)
    · rcases List.mem_cons.mp hy with rfl | hy'
      · exact absurd (hmem hx' hfx) (hhead hfy)
      · exact ih htail hx' hy'

/-- A function that returns at every element of a list has one list of results. -/
theorem forall₂_ok_unique {f : α → Except ε β} {xs : List α} {ys ys' : List β}
    (h : List.Forall₂ (fun x y => f x = .ok y) xs ys)
    (h' : List.Forall₂ (fun x y => f x = .ok y) xs ys') : ys = ys' :=
  Except.ok.inj ((mapM_eq_ok.mpr h).symm.trans (mapM_eq_ok.mpr h'))

end AutoSerialBridge.Lib
