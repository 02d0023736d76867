import Mathlib

/-!
# Polynomials over GF(2)

Bit strings as polynomials, and the cyclic redundancy check of a generator polynomial: numbers by
their low bits (`lowBits`), byte strings most significant bit first (`ofBytes`), and what a multiple
of the generator says about the errors it lets through.

## Results

* `lowBits_shift` — a step of a shift register multiplies by `X`, up to a multiple of the generator.
* `ofBytes_foldl_table` — a table of remainders computes the remainder of a byte string.
* `not_dvd_of_burst`, `not_dvd_of_odd` — no generator with a constant term divides a burst that is no
  longer than its degree, none that `X + 1` divides divides an odd number of bits.
-/

namespace AutoSerialBridge.Lib

open Polynomial

-- ---------------------------------------------------------------------------
-- Numbers
-- ---------------------------------------------------------------------------

/-- The polynomial of the `w` low bits of a number. -/
noncomputable def lowBits (w n : Nat) : (ZMod 2)[X] :=
  ∑ i ∈ Finset.range w, if n.testBit i then X ^ i else 0

section LowBits

variable {w n a b : Nat}

theorem coeff_lowBits (w n i : Nat) :
    (lowBits w n).coeff i = if i < w ∧ n.testBit i = true then 1 else 0 := by
  have hterm : ∀ j, (if n.testBit j then (X : (ZMod 2)[X]) ^ j else 0).coeff i =
      if i = j then (if n.testBit i then 1 else 0) else 0 := by
    intro j
    by_cases hij : i = j
    · subst hij
      by_cases hb : n.testBit i = true <;> simp [hb]
    · by_cases hb : n.testBit j = true <;> simp [hb, hij, coeff_X_pow]
  rw [lowBits, finsetSum_coeff]
  simp only [hterm, Finset.sum_ite_eq, Finset.mem_range]
  by_cases hi : i < w <;> simp [hi]

theorem degree_lowBits_lt (w n : Nat) : (lowBits w n).degree < w := by
  rw [degree_lt_iff_coeff_zero]
  intro i hi
  rw [coeff_lowBits, if_neg]
  omega

@[simp] theorem lowBits_zero (w : Nat) : lowBits w 0 = 0 := by
  ext i
  simp [coeff_lowBits]

/-- Exclusive or is addition. -/
theorem lowBits_xor (w a b : Nat) : lowBits w (a ^^^ b) = lowBits w a + lowBits w b := by
  ext i
  rw [coeff_add, coeff_lowBits, coeff_lowBits, coeff_lowBits, Nat.testBit_xor]
  by_cases hi : i < w
  · cases ha : a.testBit i <;> cases hb : b.testBit i <;> simp [hi, CharTwo.add_self_eq_zero]
  · simp [hi]

theorem lowBits_succ (w n : Nat) :
    lowBits (w + 1) n = lowBits w n + if n.testBit w then X ^ w else 0 :=
  Finset.sum_range_succ ..

/-- A shift to the left multiplies by `X`. -/
theorem lowBits_shiftLeft (w n : Nat) : lowBits (w + 1) (n <<< 1) = X * lowBits w n := by
  ext i
  cases i with
  | zero => simp [coeff_lowBits]
  | succ i => simp [coeff_lowBits, coeff_X_mul]

theorem lowBits_mod (w n : Nat) : lowBits w (n % 2 ^ w) = lowBits w n := by
  ext i
  rw [coeff_lowBits, coeff_lowBits, Nat.testBit_mod_two_pow]
  by_cases hi : i < w <;> simp [hi]

theorem lowBits_inj (ha : a < 2 ^ w) (hb : b < 2 ^ w) (h : lowBits w a = lowBits w b) : a = b := by
  refine Nat.eq_of_testBit_eq fun i => ?_
  by_cases hi : i < w
  · have hcoeff := congrArg (fun q => q.coeff i) h
    simp only [coeff_lowBits, hi, true_and] at hcoeff
    cases ha' : a.testBit i <;> cases hb' : b.testBit i <;> simp_all
  · have hpow : 2 ^ w ≤ 2 ^ i := Nat.pow_le_pow_right (by omega) (by omega)
    rw [Nat.testBit_lt_two_pow (by omega), Nat.testBit_lt_two_pow (by omega)]

/-- The generator whose terms below `X ^ w` are the bits of `poly`. -/
noncomputable def generator (w poly : Nat) : (ZMod 2)[X] := X ^ w + lowBits w poly

theorem generator_monic (w poly : Nat) : (generator w poly).Monic :=
  monic_X_pow_add (degree_lowBits_lt w poly)

theorem generator_degree (w poly : Nat) : (generator w poly).degree = w := by
  have hlt : (lowBits w poly).degree < (X ^ w : (ZMod 2)[X]).degree := by
    rw [degree_X_pow]
    exact degree_lowBits_lt w poly
  rw [generator, degree_add_eq_left_of_degree_lt hlt, degree_X_pow]

/-- A step of the shift register: whatever its bits from `w` on are, the low ones are multiplied by
`X`, up to a multiple of the generator. -/
theorem lowBits_shift (w poly n : Nat) :
    generator (w + 1) poly ∣ X * lowBits (w + 1) n -
      lowBits (w + 1) (if n.testBit w then (n <<< 1) ^^^ poly else n <<< 1) := by
  have hshift : X * lowBits (w + 1) n =
      lowBits (w + 1) (n <<< 1) + if n.testBit w then X ^ (w + 1) else 0 := by
    rw [← lowBits_shiftLeft, lowBits_succ]
    simp
  rw [hshift]
  by_cases hb : n.testBit w = true
  · refine ⟨1, ?_⟩
    rw [if_pos hb, if_pos hb, lowBits_xor, generator, mul_one]
    have hneg : -lowBits (w + 1) poly = lowBits (w + 1) poly := CharTwo.neg_eq _
    linear_combination hneg
  · simp [hb]

end LowBits

-- ---------------------------------------------------------------------------
-- Byte strings
-- ---------------------------------------------------------------------------

/-- A byte string, most significant bit first. -/
noncomputable def ofBytes (l : List UInt8) : (ZMod 2)[X] :=
  l.foldl (fun q b => q * X ^ 8 + lowBits 8 b.toNat) 0

/-- The `i`-th bit of a byte string, most significant bit first. -/
def bitAt (l : List UInt8) (i : Nat) : Bool := (l.getD (i / 8) 0).toNat.testBit (7 - i % 8)

section Bytes

variable {b : UInt8} {l l' : List UInt8}

theorem ofBytes_append_singleton (l : List UInt8) (b : UInt8) :
    ofBytes (l ++ [b]) = ofBytes l * X ^ 8 + lowBits 8 b.toNat := by
  simp [ofBytes]

theorem ofBytes_cons (b : UInt8) (l : List UInt8) :
    ofBytes (b :: l) = lowBits 8 b.toNat * X ^ (8 * l.length) + ofBytes l := by
  induction l using List.reverseRecOn with
  | nil => simp [ofBytes]
  | append_singleton l c ih =>
    rw [← List.cons_append, ofBytes_append_singleton, ofBytes_append_singleton, ih,
      List.length_append, List.length_singleton]
    ring

theorem bitAt_cons_lt {i : Nat} (hi : i < 8) : bitAt (b :: l) i = b.toNat.testBit (7 - i) := by
  have hdiv : i / 8 = 0 := by omega
  have hmod : i % 8 = i := by omega
  rw [bitAt, hdiv, hmod, List.getD_cons_zero]

theorem bitAt_cons_add (i : Nat) : bitAt (b :: l) (8 + i) = bitAt l i := by
  have hdiv : (8 + i) / 8 = i / 8 + 1 := by omega
  have hmod : (8 + i) % 8 = i % 8 := by omega
  rw [bitAt, bitAt, hdiv, hmod, List.getD_cons_succ]

theorem ofBytes_eq_sum (l : List UInt8) : ofBytes l =
    ∑ i ∈ Finset.range (8 * l.length),
      if bitAt l i then X ^ (8 * l.length - 1 - i) else (0 : (ZMod 2)[X]) := by
  induction l with
  | nil => simp [ofBytes]
  | cons b l ih =>
    have hlen : 8 * (b :: l).length = 8 + 8 * l.length := by
      rw [List.length_cons]
      omega
    rw [hlen, Finset.sum_range_add, ofBytes_cons, ih]
    congr 1
    · -- the bits of the first byte
      rw [lowBits, Finset.sum_mul, ← Finset.sum_range_reflect]
      refine Finset.sum_congr rfl fun i hi => ?_
      have hi : i < 8 := Finset.mem_range.mp hi
      have hexp : 8 + 8 * l.length - 1 - i = 7 - i + 8 * l.length := by omega
      rw [bitAt_cons_lt hi, hexp, pow_add, ite_mul, zero_mul]
    · refine Finset.sum_congr rfl fun i hi => ?_
      have hexp : 8 + 8 * l.length - 1 - (8 + i) = 8 * l.length - 1 - i := by omega
      rw [bitAt_cons_add, hexp]

theorem coeff_ofBytes (l : List UInt8) (j : Nat) : (ofBytes l).coeff j =
    if j < 8 * l.length ∧ bitAt l (8 * l.length - 1 - j) = true then 1 else 0 := by
  rw [ofBytes_eq_sum, ← Finset.sum_range_reflect, finsetSum_coeff]
  have hterm : ∀ i ∈ Finset.range (8 * l.length),
      (if bitAt l (8 * l.length - 1 - i) then
        X ^ (8 * l.length - 1 - (8 * l.length - 1 - i)) else (0 : (ZMod 2)[X])).coeff j =
      if j = i then (if bitAt l (8 * l.length - 1 - j) then 1 else 0) else 0 := by
    intro i hi
    have hi : i < 8 * l.length := Finset.mem_range.mp hi
    have hexp : 8 * l.length - 1 - (8 * l.length - 1 - i) = i := by omega
    rw [hexp]
    by_cases hij : j = i
    · subst hij
      by_cases hb : bitAt l (8 * l.length - 1 - j) = true <;> simp [hb]
    · by_cases hb : bitAt l (8 * l.length - 1 - i) = true <;> simp [hb, hij, coeff_X_pow]
  rw [Finset.sum_congr rfl hterm]
  simp only [Finset.sum_ite_eq, Finset.mem_range]
  by_cases hj : j < 8 * l.length <;> simp [hj]

/-- The parity of the number of bits. -/
theorem eval_one_ofBytes (l : List UInt8) : (ofBytes l).eval 1 =
    (((Finset.range (8 * l.length)).filter fun i => bitAt l i = true).card : ZMod 2) := by
  rw [ofBytes_eq_sum, eval_finsetSum, Finset.natCast_card_filter]
  refine Finset.sum_congr rfl fun i _ => ?_
  by_cases hb : bitAt l i = true <;> simp [hb]

theorem ofBytes_ne_zero {i : Nat} (hi : i < 8 * l.length) (hbit : bitAt l i = true) :
    ofBytes l ≠ 0 := by
  intro h
  have hcoeff := coeff_ofBytes l (8 * l.length - 1 - i)
  have hback : 8 * l.length - 1 - (8 * l.length - 1 - i) = i := by omega
  rw [h, coeff_zero, hback, if_pos ⟨by omega, hbit⟩] at hcoeff
  exact zero_ne_one hcoeff

/-- Flipping bits is addition. -/
theorem ofBytes_zipWith_xor (h : l.length = l'.length) :
    ofBytes (l.zipWith (· ^^^ ·) l') = ofBytes l + ofBytes l' := by
  induction l generalizing l' with
  | nil =>
    rw [List.length_nil] at h
    simp [List.length_eq_zero_iff.mp h.symm, ofBytes]
  | cons b l ih =>
    cases l' with
    | nil => cases h
    | cons b' l' =>
      have hlen : l.length = l'.length := by simpa using h
      rw [List.zipWith_cons_cons, ofBytes_cons, ofBytes_cons, ofBytes_cons, ih hlen,
        List.length_zipWith, hlen, Nat.min_self, UInt8.toNat_xor, lowBits_xor]
      ring

end Bytes

-- ---------------------------------------------------------------------------
-- Remainders
-- ---------------------------------------------------------------------------

section Remainder

variable {g e : (ZMod 2)[X]}

/-- **A table of remainders computes the remainder**, a byte at a time. -/
theorem ofBytes_foldl_table (hg : g.Monic) (hdeg : g.degree = 8) {table : UInt8 → UInt8}
    (htable : ∀ b, g ∣ lowBits 8 b.toNat * X ^ 8 - lowBits 8 (table b).toNat) (l : List UInt8) :
    (ofBytes l * X ^ 8) %ₘ g = lowBits 8 (l.foldl (fun c b => table (c ^^^ b)) 0).toNat := by
  have hcongr : g ∣ ofBytes l * X ^ 8 -
      lowBits 8 (l.foldl (fun c b => table (c ^^^ b)) 0).toNat := by
    induction l using List.reverseRecOn with
    | nil => simp [ofBytes]
    | append_singleton l b ih =>
      rw [List.foldl_append, List.foldl_cons, List.foldl_nil, ofBytes_append_singleton]
      generalize l.foldl (fun c b => table (c ^^^ b)) 0 = c at ih ⊢
      have hstep := htable (c ^^^ b)
      rw [UInt8.toNat_xor, lowBits_xor] at hstep
      have hsum := dvd_add (ih.mul_right (X ^ 8)) hstep
      convert hsum using 1
      ring
  obtain ⟨q, hq⟩ := hcongr
  refine (div_modByMonic_unique q _ hg ⟨?_, ?_⟩).2
  · linear_combination -hq
  · rw [hdeg]
    exact degree_lowBits_lt 8 _

/-- A string with its remainder appended is a multiple of the generator, and no other is. -/
theorem dvd_ofBytes_append_iff (hg : g.Monic) (hdeg : g.degree = 8) (l : List UInt8) (c : UInt8) :
    g ∣ ofBytes (l ++ [c]) ↔ (ofBytes l * X ^ 8) %ₘ g = lowBits 8 c.toNat := by
  have hsub : ofBytes (l ++ [c]) = ofBytes l * X ^ 8 - lowBits 8 c.toNat := by
    rw [ofBytes_append_singleton, CharTwo.sub_eq_add]
  have hself : lowBits 8 c.toNat %ₘ g = lowBits 8 c.toNat := by
    rw [modByMonic_eq_self_iff hg, hdeg]
    exact degree_lowBits_lt 8 _
  rw [← modByMonic_eq_zero_iff_dvd hg, hsub, sub_modByMonic, hself, sub_eq_zero]

/-- **Bursts.** No generator with a constant term divides an error whose bits lie in a window as
long as its degree. -/
theorem not_dvd_of_burst (hg : g.Monic) (hconst : g.coeff 0 = 1) (he : e ≠ 0) {k : Nat}
    (hlow : ∀ j < k, e.coeff j = 0) (hhigh : ∀ j, k + g.natDegree ≤ j → e.coeff j = 0) :
    ¬ g ∣ e := by
  obtain ⟨q, rfl⟩ := X_pow_dvd_iff.mpr hlow
  have hq : q ≠ 0 := right_ne_zero_of_mul he
  have hqdeg : q.degree < g.degree := by
    rw [degree_eq_natDegree hg.ne_zero, degree_lt_iff_coeff_zero]
    intro j hj
    have h := hhigh (k + j) (by omega)
    rwa [add_comm, coeff_X_pow_mul] at h
  have hcoprime : IsCoprime g (X ^ k) := by
    refine IsCoprime.pow_right ⟨1, -divX g, ?_⟩
    have h := divX_mul_X_add g
    rw [hconst, C_1] at h
    linear_combination -h
  intro hdvd
  exact hg.not_dvd_of_degree_lt hq hqdeg (hcoprime.dvd_of_dvd_mul_left hdvd)

/-- **Odd errors.** No multiple of `X + 1` has an odd number of bits. -/
theorem not_dvd_of_odd (hg : X + 1 ∣ g) (he : e.eval 1 ≠ 0) : ¬ g ∣ e := by
  intro hdvd
  obtain ⟨q, rfl⟩ := hg.trans hdvd
  apply he
  rw [eval_mul, eval_add, eval_X, eval_one, CharTwo.add_self_eq_zero, zero_mul]

end Remainder

end AutoSerialBridge.Lib
