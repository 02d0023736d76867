import AutoSerialBridge.Lib.Fallible
import Mathlib

/-!
# Places in a value

A value is a number, a text, a record or a sequence of items. A place is a path of accesses, by member
or by index; an index that is not below the size ends the evaluation (`Stop.outOfBounds`), and an access
the value does not have is an ill-formed program (`Stop.illFormed`).

## Results

* `get_ne_outOfBounds`: a place is in bounds if every container on the way is large enough.
* `get_update_self`, `SizeAt.update`: what an update at one place leaves of another.
* `HasType.get`, `HasType.update`: a typed place can only fail by its bounds.
-/

namespace AutoSerialBridge.Lib

/-- What ends an evaluation. -/
inductive Stop where
  | illFormed
  | outOfBounds
  /-- A container was to grow over its largest size. -/
  | thrown
  /-- The code left the block by itself. -/
  | left
deriving DecidableEq

inductive Access (ν : Type) where
  | member (name : ν)
  | index (i : Nat)
deriving DecidableEq

/-- A value with members named by `ν` and numbers in `σ`. -/
inductive Value (ν σ : Type) where
  | number (x : σ)
  | text (chars : List σ)
  | record (members : List (ν × Value ν σ))
  | items (xs : List (Value ν σ))

namespace Value

variable {ν σ : Type} [DecidableEq ν]

/-- The value of a place that is there, or what its absence means. -/
def found (stop : Stop) : Option (Value ν σ) → Except Stop (Value ν σ)
  | some v => .ok v
  | none => .error stop

def access (v : Value ν σ) (a : Access ν) : Except Stop (Value ν σ) :=
  match v, a with
  | record members, .member name => found .illFormed (members.lookup name)
  | text chars, .index i => found .outOfBounds (chars[i]?.map number)
  | items xs, .index i => found .outOfBounds xs[i]?
  | _, _ => .error .illFormed

def get : List (Access ν) → Value ν σ → Except Stop (Value ν σ)
  | [], v => .ok v
  | a :: p, v => do get p (← v.access a)

/-- Another value at one access. A text only takes numbers. -/
def replace (v : Value ν σ) (a : Access ν) (w : Value ν σ) : Value ν σ :=
  match v, a, w with
  | record members, .member name, w =>
    record (members.map fun e => if e.1 = name then (e.1, w) else e)
  | text chars, .index i, number x => text (chars.set i x)
  | items xs, .index i, w => items (xs.set i w)
  | v, _, _ => v

def update (f : Value ν σ → Except Stop (Value ν σ)) :
    List (Access ν) → Value ν σ → Except Stop (Value ν σ)
  | [], v => f v
  | a :: p, v => do
    let w ← update f p (← v.access a)
    return v.replace a w

/-- The size of a container. -/
def size? : Value ν σ → Option Nat
  | text chars => some chars.length
  | items xs => some xs.length
  | _ => none

/-- The container at a place has this size. -/
def SizeAt (q : List (Access ν)) (v : Value ν σ) (k : Nat) : Prop :=
  ∃ w, get q v = .ok w ∧ w.size? = some k

-- ---------------------------------------------------------------------------
-- Reading
-- ---------------------------------------------------------------------------

section Get

variable {v w : Value ν σ} {a b : Access ν} {p q : List (Access ν)}

omit [DecidableEq ν] in
theorem found_eq_ok {stop : Stop} {o : Option (Value ν σ)} : found stop o = .ok v ↔ o = some v := by
  cases o <;> simp [found]

theorem get_cons : get (a :: p) v = v.access a >>= get p := rfl

theorem sizeAt_cons {k : Nat} : SizeAt (a :: p) v k ↔ ∃ w, v.access a = .ok w ∧ SizeAt p w k := by
  unfold SizeAt
  rw [get_cons]
  constructor
  · rintro ⟨x, hx, hk⟩
    obtain ⟨w, hw, hx⟩ := bind_eq_ok.mp hx
    exact ⟨w, hw, x, hx, hk⟩
  · rintro ⟨w, hw, x, hx, hk⟩
    exact ⟨x, bind_eq_ok.mpr ⟨w, hw, hx⟩, hk⟩

theorem get_append : get (p ++ q) v = get p v >>= get q := by
  induction p generalizing v with
  | nil => rfl
  | cons a p ih =>
    rw [List.cons_append, get_cons, get_cons]
    cases v.access a with
    | ok w => exact ih
    | error stop => rfl

/-- Nothing is at an index that is not below the size. -/
theorem SizeAt.get_ne_ok {k i : Nat} (h : SizeAt q v k) (hle : k ≤ i) :
    get (q ++ .index i :: p) v ≠ .ok w := by
  intro hget
  obtain ⟨x, hx, hk⟩ := h
  rw [get_append, hx] at hget
  have hget : (x.access (.index i) >>= get p) = .ok w := hget
  obtain ⟨y, hy, -⟩ := bind_eq_ok.mp hget
  cases x with
  | number c => cases hk
  | record members => cases hk
  | text chars =>
    obtain rfl := Option.some.inj hk
    obtain ⟨c, hc, -⟩ := Option.map_eq_some_iff.mp (found_eq_ok.mp hy)
    exact absurd (List.getElem?_eq_some_iff.mp hc).1 (Nat.not_lt.mpr hle)
  | items xs =>
    obtain rfl := Option.some.inj hk
    exact absurd (List.getElem?_eq_some_iff.mp (found_eq_ok.mp hy)).1 (Nat.not_lt.mpr hle)

/-- Only an index can be out of bounds. -/
theorem access_outOfBounds (h : v.access a = .error .outOfBounds) :
    ∃ i, a = .index i ∧ ∀ k, v.size? = some k → k ≤ i := by
  unfold access found at h
  split at h
  · split at h <;> cases h
  · next chars i =>
    split at h
    · cases h
    · next hnone => exact ⟨i, rfl, by rintro _ ⟨⟩; simpa using hnone⟩
  · next xs i =>
    split at h
    · cases h
    · next hnone => exact ⟨i, rfl, by rintro _ ⟨⟩; simpa using hnone⟩
  · cases h

/-- **In bounds**: every container on the way is larger than the index. -/
theorem get_ne_outOfBounds
    (h : ∀ q i r, p = q ++ .index i :: r → ∃ k, SizeAt q v k ∧ i < k) :
    get p v ≠ .error .outOfBounds := by
  induction p generalizing v with
  | nil => nofun
  | cons a p ih =>
    rw [get_cons]
    cases haccess : v.access a with
    | error stop =>
      rintro ⟨⟩
      obtain ⟨i, rfl, hle⟩ := access_outOfBounds haccess
      obtain ⟨k, ⟨_, hv, hk⟩, hlt⟩ := h [] i p rfl
      obtain rfl := Except.ok.inj hv
      exact absurd (hle k hk) (by omega)
    | ok w =>
      refine ih fun q i r hp => ?_
      obtain ⟨k, ⟨w', hw', hk⟩, hlt⟩ := h (a :: q) i r (by rw [hp]; rfl)
      rw [get_cons, haccess] at hw'
      exact ⟨k, ⟨w', hw', hk⟩, hlt⟩

end Get

-- ---------------------------------------------------------------------------
-- Updating
-- ---------------------------------------------------------------------------

section Update

variable {f : Value ν σ → Except Stop (Value ν σ)} {v v' w w' x : Value ν σ} {a b : Access ν}
  {p q : List (Access ν)}

theorem lookup_replace (members : List (ν × Value ν σ)) (name other : ν) (w : Value ν σ) :
    (members.map fun e => if e.1 = name then (e.1, w) else e).lookup other =
      if other = name then (members.lookup other).map fun _ => w else members.lookup other := by
  induction members with
  | nil => simp
  | cons e members ih =>
    obtain ⟨n, u⟩ := e
    rw [List.map_cons, List.lookup_cons, List.lookup_cons]
    by_cases hn : n = name
    · subst hn
      by_cases ho : other = n
      · subst ho
        simp
      · have hne : (other == n) = false := beq_eq_false_iff_ne.mpr ho
        simp [ho, hne, ih]
    · by_cases ho : other = n
      · subst ho
        simp [hn]
      · have hne : (other == n) = false := beq_eq_false_iff_ne.mpr ho
        simp [hn, hne, ih]

/-- The access sees the new value; in a text that must be a number. -/
theorem access_replace_self (h : v.access a = .ok w)
    (hnumber : ∀ x, w = number x → ∃ y, w' = number y) : (v.replace a w').access a = .ok w' := by
  unfold access at h
  split at h
  · next members name =>
    rw [found_eq_ok] at h
    simp [replace, access, lookup_replace, h, found]
  · next chars i =>
    rw [found_eq_ok, Option.map_eq_some_iff] at h
    obtain ⟨c, hc, rfl⟩ := h
    obtain ⟨y, rfl⟩ := hnumber c rfl
    obtain ⟨hlt, -⟩ := List.getElem?_eq_some_iff.mp hc
    simp [replace, access, hlt, found]
  · next xs i =>
    rw [found_eq_ok] at h
    obtain ⟨hlt, -⟩ := List.getElem?_eq_some_iff.mp h
    simp [replace, access, hlt, found]
  · cases h

/-- Another access does not. -/
theorem access_replace_ne (h : a ≠ b) : (v.replace a w).access b = v.access b := by
  unfold replace
  split
  · next members name =>
    cases b with
    | member other =>
      have hne : other ≠ name := fun heq => h (heq ▸ rfl)
      simp [access, lookup_replace, hne]
    | index i => rfl
  · next chars i x =>
    cases b with
    | member other => rfl
    | index j =>
      have hne : i ≠ j := fun heq => h (heq ▸ rfl)
      simp [access, List.getElem?_set_ne hne]
  · next w xs i =>
    cases b with
    | member other => rfl
    | index j =>
      have hne : i ≠ j := fun heq => h (heq ▸ rfl)
      simp [access, List.getElem?_set_ne hne]
  · rfl

theorem size?_replace : (v.replace a w).size? = v.size? := by
  unfold replace
  split <;> simp [size?]

/-- A number has no places. -/
theorem update_number (hf : ∀ x w, f (number x) = .ok w → ∃ y, w = number y) {x : σ}
    (h : update f p (number x) = .ok w) : ∃ y, w = number y := by
  cases p with
  | nil => exact hf x w h
  | cons a p => cases h

theorem update_cons : update f (a :: p) v =
    v.access a >>= fun w => update f p w >>= fun w' => pure (v.replace a w') := rfl

theorem update_cons_eq_ok : update f (a :: p) v = .ok v' ↔
    ∃ w w', v.access a = .ok w ∧ update f p w = .ok w' ∧ v.replace a w' = v' := by
  rw [update_cons]
  constructor
  · intro h
    obtain ⟨w, hw, h⟩ := bind_eq_ok.mp h
    obtain ⟨w', hw', h⟩ := bind_eq_ok.mp h
    exact ⟨w, w', hw, hw', pure_eq_ok.mp h⟩
  · rintro ⟨w, w', hw, hw', rfl⟩
    exact bind_eq_ok.mpr ⟨w, hw, bind_eq_ok.mpr ⟨w', hw', rfl⟩⟩

/-- The updated place holds the new value. -/
theorem get_update_self (hf : ∀ x w, f (number x) = .ok w → ∃ y, w = number y)
    (h : update f p v = .ok v') : ∃ w w', get p v = .ok w ∧ f w = .ok w' ∧ get p v' = .ok w' := by
  induction p generalizing v v' with
  | nil => exact ⟨v, v', rfl, h, rfl⟩
  | cons a p ih =>
    obtain ⟨w, w', hw, hupdate, rfl⟩ := update_cons_eq_ok.mp h
    obtain ⟨u, u', hu, hfu, hu'⟩ := ih hupdate
    refine ⟨u, u', ?_, hfu, ?_⟩
    · rw [get_cons, hw]
      exact hu
    · have hself : (v.replace a w').access a = .ok w' :=
        access_replace_self hw fun x hx => update_number hf (hx ▸ hupdate)
      rw [get_cons, hself]
      exact hu'

/-- **Another container keeps its size**, if the update keeps the containers inside the place. -/
theorem SizeAt.update {k : Nat} (hq : SizeAt q v k)
    (hf : ∀ x w, f (number x) = .ok w → ∃ y, w = number y)
    (hinside : ∀ w w' a q k, f w = .ok w' → SizeAt (a :: q) w k → SizeAt (a :: q) w' k)
    (h : update f p v = .ok v') (hne : q ≠ p) : SizeAt q v' k := by
  induction p generalizing v v' q with
  | nil =>
    cases q with
    | nil => exact absurd rfl hne
    | cons b q => exact hinside v v' b q k h hq
  | cons a p ih =>
    obtain ⟨w, w', hw, hupdate, rfl⟩ := update_cons_eq_ok.mp h
    obtain ⟨x, hx, hk⟩ := hq
    cases q with
    | nil =>
      obtain rfl := Except.ok.inj hx
      exact ⟨_, rfl, size?_replace.trans hk⟩
    | cons b q =>
      rw [get_cons] at hx
      by_cases hab : a = b
      · subst hab
        rw [hw] at hx
        obtain ⟨x', hx', hk'⟩ := ih ⟨x, hx, hk⟩ hupdate fun heq => hne (heq ▸ rfl)
        have hself : (v.replace a w').access a = .ok w' :=
          access_replace_self hw fun x hx => update_number hf (hx ▸ hupdate)
        refine ⟨x', ?_, hk'⟩
        rw [get_cons, hself]
        exact hx'
      · refine ⟨x, ?_, hk⟩
        rw [get_cons, access_replace_ne hab]
        exact hx

/-- A place that can be read can be updated. -/
theorem exists_update (hw : get p v = .ok w) (hf : f w = .ok w') : ∃ v', update f p v = .ok v' := by
  induction p generalizing v with
  | nil =>
    obtain rfl := Except.ok.inj hw
    exact ⟨w', hf⟩
  | cons a p ih =>
    rw [get_cons] at hw
    obtain ⟨x, hx, hw⟩ := bind_eq_ok.mp hw
    obtain ⟨x', hx'⟩ := ih hw
    exact ⟨_, update_cons_eq_ok.mpr ⟨x, x', hx, hx', rfl⟩⟩

/-- An update fails where its place is read, or by itself. -/
theorem update_eq_error {stop : Stop} (h : update f p v = .error stop) :
    get p v = .error stop ∨ ∃ w, get p v = .ok w ∧ f w = .error stop := by
  induction p generalizing v with
  | nil => exact .inr ⟨v, rfl, h⟩
  | cons a p ih =>
    rw [update_cons] at h
    rw [get_cons]
    rcases bind_eq_error.mp h with haccess | ⟨w, haccess, h⟩
    · rw [haccess]
      exact .inl rfl
    · rw [haccess]
      rcases bind_eq_error.mp h with hupdate | ⟨w', -, h⟩
      · exact ih hupdate
      · cases h

end Update

end Value

-- ---------------------------------------------------------------------------
-- Types
-- ---------------------------------------------------------------------------

/-- The type of a value. A text and a sequence can grow, an array cannot. -/
inductive PlaceType (ν : Type) where
  | number
  | text (capacity : Nat)
  | record (members : List (ν × PlaceType ν))
  | sequence (element : PlaceType ν) (capacity : Nat)
  | array (element : PlaceType ν) (length : Nat)

namespace PlaceType

variable {ν : Type} [DecidableEq ν]

def access (t : PlaceType ν) (a : Access ν) : Option (PlaceType ν) :=
  match t, a with
  | record members, .member name => members.lookup name
  | text _, .index _ => some number
  | sequence element _, .index _ => some element
  | array element _, .index _ => some element
  | _, _ => none

/-- The type of a place. -/
def get : List (Access ν) → PlaceType ν → Option (PlaceType ν)
  | [], t => some t
  | a :: p, t => do get p (← t.access a)

/-- The largest size of a container. -/
def capacity? : PlaceType ν → Option Nat
  | text n => some n
  | sequence _ n => some n
  | array _ n => some n
  | _ => none

theorem get_append {t : PlaceType ν} {p q : List (Access ν)} :
    t.get (p ++ q) = t.get p >>= get q := by
  induction p generalizing t with
  | nil => rfl
  | cons a p ih =>
    show (t.access a >>= fun u => u.get (p ++ q)) = (t.access a >>= fun u => u.get p) >>= get q
    cases t.access a with
    | some u => exact ih
    | none => rfl

end PlaceType

/-- Sequences and texts are within their capacity; a record has the members of its type. -/
inductive HasType {ν σ : Type} [DecidableEq ν] : Value ν σ → PlaceType ν → Prop where
  | number (x : σ) : HasType (.number x) .number
  | text {chars : List σ} {n : Nat} (hsize : chars.length ≤ n) : HasType (.text chars) (.text n)
  | record {members : List (ν × Value ν σ)} {types : List (ν × PlaceType ν)}
      (hnames : ∀ name, (types.lookup name).isSome = true → (members.lookup name).isSome = true)
      (hmembers : ∀ name w t, members.lookup name = some w → types.lookup name = some t →
        HasType w t) : HasType (.record members) (.record types)
  | sequence {xs : List (Value ν σ)} {t : PlaceType ν} {n : Nat} (hitems : ∀ x ∈ xs, HasType x t)
      (hsize : xs.length ≤ n) : HasType (.items xs) (.sequence t n)
  | array {xs : List (Value ν σ)} {t : PlaceType ν} {n : Nat} (hitems : ∀ x ∈ xs, HasType x t)
      (hsize : xs.length = n) : HasType (.items xs) (.array t n)

-- ---------------------------------------------------------------------------
-- Default values
-- ---------------------------------------------------------------------------

section Fresh

variable {ν σ : Type} [DecidableEq ν] (zero : σ)

mutual

/-- Empty texts and sequences, and zero numbers. -/
def PlaceType.fresh : PlaceType ν → Value ν σ
  | .number => .number zero
  | .text _ => .text []
  | .record members => .record (PlaceType.freshMembers members)
  | .sequence _ _ => .items []
  | .array element n => .items (List.replicate n element.fresh)

def PlaceType.freshMembers : List (ν × PlaceType ν) → List (ν × Value ν σ)
  | [] => []
  | (name, t) :: rest => (name, t.fresh) :: PlaceType.freshMembers rest

end

theorem PlaceType.lookup_freshMembers (name : ν) (members : List (ν × PlaceType ν)) :
    (PlaceType.freshMembers zero members).lookup name =
      (members.lookup name).map (PlaceType.fresh zero) := by
  induction members with
  | nil => rfl
  | cons e rest ih =>
    obtain ⟨n, t⟩ := e
    rw [PlaceType.freshMembers, List.lookup_cons, List.lookup_cons]
    split
    · rfl
    · exact ih

mutual

theorem PlaceType.fresh_typed : ∀ t : PlaceType ν, HasType (t.fresh zero) t
  | .number => .number zero
  | .text _ => .text (Nat.zero_le _)
  | .record members => by
    refine .record (fun name h => ?_) fun name w t hw ht => ?_
    · rw [PlaceType.lookup_freshMembers, Option.isSome_map]
      exact h
    · rw [PlaceType.lookup_freshMembers, ht] at hw
      obtain rfl := Option.some.inj hw
      exact PlaceType.freshMembers_typed members name t ht
  | .sequence _ _ => .sequence nofun (Nat.zero_le _)
  | .array element n => by
    refine .array (fun x hx => ?_) List.length_replicate
    rw [List.eq_of_mem_replicate hx]
    exact element.fresh_typed

theorem PlaceType.freshMembers_typed : ∀ (members : List (ν × PlaceType ν)) (name : ν)
    (t : PlaceType ν), members.lookup name = some t → HasType (t.fresh zero) t
  | [], _, _, h => nomatch h
  | (n, t') :: rest, name, t, h => by
    rw [List.lookup_cons] at h
    split at h
    · obtain rfl := Option.some.inj h
      exact t'.fresh_typed
    · exact PlaceType.freshMembers_typed rest name t h

end

end Fresh

namespace HasType

open Value

variable {ν σ : Type} [DecidableEq ν] {v v' w : Value ν σ} {t u : PlaceType ν} {a : Access ν}
  {p q : List (Access ν)} {f : Value ν σ → Except Stop (Value ν σ)}

theorem access (h : HasType v t) (ht : t.access a = some u) :
    (∃ w, v.access a = .ok w ∧ HasType w u) ∨ v.access a = .error .outOfBounds := by
  unfold PlaceType.access at ht
  split at ht
  · next types name =>
    obtain _ | _ | ⟨hnames, hmembers⟩ := h
    obtain ⟨w, hw⟩ := Option.isSome_iff_exists.mp (hnames name (by rw [ht]; rfl))
    exact .inl ⟨w, found_eq_ok.mpr hw, hmembers name w u hw ht⟩
  · next n i =>
    obtain _ | ⟨hsize⟩ := h
    next chars =>
    obtain rfl := Option.some.inj ht
    cases hc : chars[i]? with
    | some c => exact .inl ⟨.number c, found_eq_ok.mpr (by rw [hc]; rfl), .number c⟩
    | none => exact .inr (by simp [Value.access, hc, found])
  · next i =>
    obtain _ | _ | _ | ⟨hitems, hsize⟩ := h
    next xs =>
    obtain rfl := Option.some.inj ht
    cases hx : xs[i]? with
    | some x => exact .inl ⟨x, found_eq_ok.mpr hx, hitems x (List.mem_of_getElem? hx)⟩
    | none => exact .inr (by simp [Value.access, hx, found])
  · next i =>
    obtain _ | _ | _ | _ | ⟨hitems, hsize⟩ := h
    next xs =>
    obtain rfl := Option.some.inj ht
    cases hx : xs[i]? with
    | some x => exact .inl ⟨x, found_eq_ok.mpr hx, hitems x (List.mem_of_getElem? hx)⟩
    | none => exact .inr (by simp [Value.access, hx, found])
  · cases ht

/-- **A typed place can only fail by its bounds.** -/
theorem get (h : HasType v t) (ht : t.get p = some u) :
    (∃ w, Value.get p v = .ok w ∧ HasType w u) ∨ Value.get p v = .error .outOfBounds := by
  induction p generalizing v t with
  | nil =>
    obtain rfl := Option.some.inj ht
    exact .inl ⟨v, rfl, h⟩
  | cons a p ih =>
    obtain ⟨t', ht', ht⟩ := Option.bind_eq_some_iff.mp ht
    rw [get_cons]
    rcases h.access ht' with ⟨w, hw, hwt⟩ | hstop
    · rw [hw]
      exact ih hwt ht
    · rw [hstop]
      exact .inr rfl

theorem replace (h : HasType v t) (ht : t.access a = some u) (hw : HasType w u) :
    HasType (v.replace a w) t := by
  unfold PlaceType.access at ht
  split at ht
  · next types name =>
    obtain _ | _ | ⟨hnames, hmembers⟩ := h
    refine .record (fun other hother => ?_) fun other x t' hx ht' => ?_
    · rw [lookup_replace]
      have hsome := hnames other hother
      split_ifs
      · rw [Option.isSome_map]
        exact hsome
      · exact hsome
    · rw [lookup_replace] at hx
      split_ifs at hx with heq
      · subst heq
        obtain ⟨-, -, rfl⟩ := Option.map_eq_some_iff.mp hx
        obtain rfl := Option.some.inj (ht.symm.trans ht')
        exact hw
      · exact hmembers other x t' hx ht'
  · next n i =>
    obtain _ | ⟨hsize⟩ := h
    obtain rfl := Option.some.inj ht
    obtain ⟨x⟩ := hw
    exact .text (by rwa [List.length_set])
  · next i =>
    obtain _ | _ | _ | ⟨hitems, hsize⟩ := h
    obtain rfl := Option.some.inj ht
    refine .sequence (fun x hx => ?_) (by rwa [List.length_set])
    exact (List.mem_or_eq_of_mem_set hx).elim (hitems x) fun heq => heq ▸ hw
  · next i =>
    obtain _ | _ | _ | _ | ⟨hitems, hsize⟩ := h
    obtain rfl := Option.some.inj ht
    refine .array (fun x hx => ?_) (by rwa [List.length_set])
    exact (List.mem_or_eq_of_mem_set hx).elim (hitems x) fun heq => heq ▸ hw
  · cases ht

/-- A typed update keeps the type. -/
theorem update (h : HasType v t) (ht : t.get p = some u)
    (hf : ∀ w w', HasType w u → f w = .ok w' → HasType w' u) (hupdate : update f p v = .ok v') :
    HasType v' t := by
  induction p generalizing v v' t with
  | nil =>
    obtain rfl := Option.some.inj ht
    exact hf v v' h hupdate
  | cons a p ih =>
    obtain ⟨t', ht', ht⟩ := Option.bind_eq_some_iff.mp ht
    obtain ⟨w, w', hw, hinner, rfl⟩ := update_cons_eq_ok.mp hupdate
    have hwt : HasType w t' := by
      rcases h.access ht' with ⟨x, hx, hxt⟩ | hstop
      · exact Except.ok.inj (hx.symm.trans hw) ▸ hxt
      · cases hstop.symm.trans hw
    exact h.replace ht' (ih hwt ht hinner)

/-- A container is within its capacity. -/
theorem size_le (h : HasType v t) {n : Nat} (hn : t.capacity? = some n) :
    ∃ k, v.size? = some k ∧ k ≤ n := by
  cases h with
  | number x => cases hn
  | record hnames hmembers => cases hn
  | text hsize =>
    obtain rfl := Option.some.inj hn
    exact ⟨_, rfl, hsize⟩
  | sequence hitems hsize =>
    obtain rfl := Option.some.inj hn
    exact ⟨_, rfl, hsize⟩
  | array hitems hsize =>
    obtain rfl := Option.some.inj hn
    exact ⟨_, rfl, Nat.le_of_eq hsize⟩

end HasType

end AutoSerialBridge.Lib
