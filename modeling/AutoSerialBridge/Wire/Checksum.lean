import AutoSerialBridge.Lib.BinaryPoly
import AutoSerialBridge.Wire.Protocol
import Mathlib

/-!
# Auto Serial Bridge — what the checksums detect

`calculate_checksum` of a body and the corruptions of body and checksum that no comparison lets
through. A step of each algorithm is injective in the register and in the byte, so a single byte
never goes unnoticed. CRC8 is the remainder of the division by `X ^ 8 + X ^ 5 + X ^ 4 + 1`, which
gives bursts and odd errors.

## Results

* `calculateChecksum_set` — one byte replaced.
* `calculateChecksum_crc8` — the table computes the polynomial division.
* `calculateChecksum_flip` — a burst of at most eight bits, or an odd number of flipped bits.
-/

namespace AutoSerialBridge

open Lib Polynomial

-- ---------------------------------------------------------------------------
-- The table
-- ---------------------------------------------------------------------------

/-- The generator polynomial of CRC8. -/
noncomputable def crc8Generator : (ZMod 2)[X] := X ^ 8 + X ^ 5 + X ^ 4 + 1

theorem generator_crc8 : generator 8 0x31 = crc8Generator := by
  have hbits : lowBits 8 0x31 = X ^ 5 + X ^ 4 + 1 := by
    ext i
    rw [coeff_lowBits, coeff_add, coeff_add, coeff_X_pow, coeff_X_pow, coeff_one]
    by_cases hi : i < 8
    · interval_cases i <;> simp [Nat.testBit]
    · have h5 : i ≠ 5 := by omega
      have h4 : i ≠ 4 := by omega
      have h0 : i ≠ 0 := by omega
      simp [hi, h5, h4, h0]
  rw [generator, hbits, crc8Generator]
  ring

theorem crc8Generator_monic : crc8Generator.Monic := generator_crc8 ▸ generator_monic 8 0x31

theorem crc8Generator_degree : crc8Generator.degree = 8 := generator_crc8 ▸ generator_degree 8 0x31

theorem crc8Generator_natDegree : crc8Generator.natDegree = 8 :=
  natDegree_eq_of_degree_eq_some crc8Generator_degree

/-- An inner iteration of `generate_crc8_table` multiplies by `X`. -/
theorem crc8Shift_congr (crc : Nat) :
    crc8Generator ∣ X * lowBits 8 crc - lowBits 8 (crc8Shift crc) := by
  have hbit : crc8Shift crc = if crc.testBit 7 then (crc <<< 1) ^^^ 0x31 else crc <<< 1 := by
    have hand : crc &&& 0x80 = (crc.testBit 7).toNat * 2 ^ 7 := Nat.and_two_pow crc 7
    unfold crc8Shift
    rw [hand]
    cases crc.testBit 7 <;> simp
  rw [hbit, ← generator_crc8]
  exact lowBits_shift 7 0x31 crc

theorem crc8Shift_iterate_congr (k crc : Nat) :
    crc8Generator ∣ lowBits 8 crc * X ^ k - lowBits 8 (crc8Shift^[k] crc) := by
  induction k with
  | zero => simp
  | succ k ih =>
    rw [Function.iterate_succ_apply']
    have hsum := dvd_add (ih.mul_left X) (crc8Shift_congr (crc8Shift^[k] crc))
    convert hsum using 1
    ring

/-- The table entry of a byte. -/
def crc8Entry (b : UInt8) : UInt8 := UInt8.ofNat (generateCrc8Table.getD b.toNat 0)

/-- **The table holds the remainders** of its indices, shifted by eight places. -/
theorem crc8Entry_congr (b : UInt8) :
    crc8Generator ∣ lowBits 8 b.toNat * X ^ 8 - lowBits 8 (crc8Entry b).toNat := by
  have hget : generateCrc8Table.getD b.toNat 0 = crc8Shift^[8] b.toNat &&& 0xFF := by
    have hlt : b.toNat < 256 := b.toNat_lt
    rw [generateCrc8Table, List.getD_eq_getElem?_getD, List.getElem?_map,
      List.getElem?_range hlt]
    rfl
  have hlow : lowBits 8 (crc8Entry b).toNat = lowBits 8 (crc8Shift^[8] b.toNat) := by
    have hmask : crc8Shift^[8] b.toNat &&& 0xFF = crc8Shift^[8] b.toNat % 2 ^ 8 :=
      Nat.and_two_pow_sub_one_eq_mod _ 8
    rw [crc8Entry, UInt8.toNat_ofNat', lowBits_mod, hget, hmask, lowBits_mod]
  rw [hlow]
  exact crc8Shift_iterate_congr 8 b.toNat

/-- **CRC8 is the division** of the body by the generator. -/
theorem calculateChecksum_crc8 (body : List UInt8) :
    lowBits 8 (calculateChecksum .crc8 body).toNat = (ofBytes body * X ^ 8) %ₘ crc8Generator :=
  (ofBytes_foldl_table crc8Generator_monic crc8Generator_degree crc8Entry_congr body).symm

-- ---------------------------------------------------------------------------
-- One byte
-- ---------------------------------------------------------------------------

section Step

variable {algo : ChecksumAlgo}

/-- No two bytes have the same entry. -/
theorem crc8Entry_injective : Function.Injective crc8Entry := by
  intro a b h
  have hdvd : crc8Generator ∣ X ^ 8 * lowBits 8 (a ^^^ b).toNat := by
    have hsub := dvd_sub (crc8Entry_congr a) (crc8Entry_congr b)
    rw [h] at hsub
    rw [UInt8.toNat_xor, lowBits_xor]
    convert hsub using 1
    rw [sub_sub_sub_cancel_right, ← sub_mul, CharTwo.sub_eq_add, mul_comm]
  by_contra hne
  have hxor : (a ^^^ b).toNat ≠ 0 := by
    intro h0
    exact hne (UInt8.xor_eq_zero_iff.mp (UInt8.toNat_inj.mp h0))
  have hpoly : lowBits 8 (a ^^^ b).toNat ≠ 0 := by
    intro h0
    exact hxor (lowBits_inj (a ^^^ b).toNat_lt (by decide) (h0.trans (lowBits_zero 8).symm))
  refine not_dvd_of_burst crc8Generator_monic ?_ (mul_ne_zero (pow_ne_zero 8 X_ne_zero) hpoly)
    (k := 8) ?_ ?_ hdvd
  · simp [crc8Generator]
  · exact X_pow_dvd_iff.mp (dvd_mul_right _ _)
  · intro j hj
    rw [crc8Generator_natDegree] at hj
    obtain ⟨i, rfl⟩ := Nat.exists_eq_add_of_le hj
    rw [show 8 + 8 + i = (8 + i) + 8 by omega, coeff_X_pow_mul, coeff_lowBits, if_neg (by omega)]

/-- A step is injective in the byte. -/
theorem checksumUpdate_byte_injective (halgo : algo ≠ .none) (current : UInt8) :
    Function.Injective (checksumUpdate algo current) := by
  intro a b h
  cases algo with
  | none => exact absurd rfl halgo
  | sum8 => exact UInt8.add_right_inj current |>.mp h
  | xor8 => exact (UInt8.xor_right_inj current).mp h
  | crc8 => exact (UInt8.xor_right_inj current).mp (crc8Entry_injective h)

/-- A step is injective in the register. -/
theorem checksumUpdate_register_injective (halgo : algo ≠ .none) (byte : UInt8) :
    Function.Injective fun current => checksumUpdate algo current byte := by
  intro a b h
  cases algo with
  | none => exact absurd rfl halgo
  | sum8 => exact UInt8.add_left_inj byte |>.mp h
  | xor8 => exact (UInt8.xor_left_inj byte).mp h
  | crc8 => exact (UInt8.xor_left_inj byte).mp (crc8Entry_injective h)

theorem checksumUpdate_foldl_injective (halgo : algo ≠ .none) (body : List UInt8) :
    Function.Injective fun current => body.foldl (checksumUpdate algo) current := by
  induction body with
  | nil => exact Function.injective_id
  | cons byte body ih => exact ih.comp (checksumUpdate_register_injective halgo byte)

/-- Replacing a byte of the body changes the checksum. -/
theorem calculateChecksum_ne_of_set (halgo : algo ≠ .none) {body : List UInt8} {i : Nat} {v : UInt8}
    (hi : i < body.length) (hv : body[i] ≠ v) :
    calculateChecksum algo (body.set i v) ≠ calculateChecksum algo body := by
  intro h
  rw [List.set_eq_take_append_cons_drop, if_pos hi] at h
  have hbody : body = body.take i ++ body[i] :: body.drop (i + 1) := by simp
  conv at h => rhs; rw [hbody]
  unfold calculateChecksum at h
  rw [List.foldl_append, List.foldl_append, List.foldl_cons, List.foldl_cons] at h
  exact hv (checksumUpdate_byte_injective halgo _
    (checksumUpdate_foldl_injective halgo _ h)).symm

/-- **One byte** of a body or of its checksum replaced. -/
theorem calculateChecksum_set (halgo : algo ≠ .none) {body body' : List UInt8} {i : Nat}
    {v c' : UInt8} (hi : i < (body ++ [calculateChecksum algo body]).length)
    (hv : (body ++ [calculateChecksum algo body])[i] ≠ v)
    (h : body' ++ [c'] = (body ++ [calculateChecksum algo body]).set i v) :
    calculateChecksum algo body' ≠ c' := by
  by_cases hbody : i < body.length
  · rw [List.set_append_left _ _ hbody] at h
    obtain ⟨rfl, hc⟩ := List.append_inj' h rfl
    obtain rfl : c' = calculateChecksum algo body := List.head_eq_of_cons_eq hc
    rw [List.getElem_append_left hbody] at hv
    exact calculateChecksum_ne_of_set halgo hbody hv
  · have hlast : i = body.length := by
      rw [List.length_append, List.length_singleton] at hi
      omega
    subst hlast
    rw [List.set_append_right _ _ (Nat.le_refl _), Nat.sub_self, List.set_cons_zero] at h
    obtain ⟨rfl, hc⟩ := List.append_inj' h rfl
    obtain rfl : c' = v := List.head_eq_of_cons_eq hc
    simpa using hv

end Step

-- ---------------------------------------------------------------------------
-- Bits
-- ---------------------------------------------------------------------------

/-- A flip pattern that is not empty and lies within eight consecutive bits. -/
def IsBurst (pattern : List UInt8) : Prop :=
  (∃ i < 8 * pattern.length, bitAt pattern i = true) ∧
    ∃ k, ∀ i < 8 * pattern.length, bitAt pattern i = true → k ≤ i ∧ i < k + 8

/-- A flip pattern with an odd number of bits. -/
def IsOdd (pattern : List UInt8) : Prop :=
  Odd ((Finset.range (8 * pattern.length)).filter fun i => bitAt pattern i = true).card

/-- The generator divides no burst. -/
theorem IsBurst.not_dvd {pattern : List UInt8} (h : IsBurst pattern) :
    ¬ crc8Generator ∣ ofBytes pattern := by
  obtain ⟨⟨i, hi, hbit⟩, k, hk⟩ := h
  refine not_dvd_of_burst crc8Generator_monic (by simp [crc8Generator]) (ofBytes_ne_zero hi hbit)
    (k := 8 * pattern.length - 8 - k) ?_ ?_
  · intro j hj
    rw [coeff_ofBytes, if_neg]
    rintro ⟨hlt, hset⟩
    have := hk _ (by omega) hset
    omega
  · intro j hj
    rw [crc8Generator_natDegree] at hj
    rw [coeff_ofBytes, if_neg]
    rintro ⟨hlt, hset⟩
    have := hk _ (by omega) hset
    omega

/-- The generator divides no odd pattern. -/
theorem IsOdd.not_dvd {pattern : List UInt8} (h : IsOdd pattern) :
    ¬ crc8Generator ∣ ofBytes pattern := by
  refine not_dvd_of_odd ⟨X ^ 7 + X ^ 6 + X ^ 5 + X ^ 3 + X ^ 2 + X + 1, ?_⟩ ?_
  · have htwo : (2 : (ZMod 2)[X]) = 0 := CharTwo.two_eq_zero
    rw [crc8Generator]
    linear_combination (-(X ^ 7 + X ^ 6 + X ^ 3 + X ^ 2 + X)) * htwo
  · rw [eval_one_ofBytes, ne_eq, ZMod.natCast_eq_zero_iff_even, Nat.not_even_iff_odd]
    exact h

/-- **A burst or an odd number of flipped bits** in a body with its checksum. -/
theorem calculateChecksum_flip {body body' pattern : List UInt8} {c' : UInt8}
    (hlen : pattern.length = body.length + 1) (hpattern : IsBurst pattern ∨ IsOdd pattern)
    (h : body' ++ [c'] = (body ++ [calculateChecksum .crc8 body]).zipWith (· ^^^ ·) pattern) :
    calculateChecksum .crc8 body' ≠ c' := by
  intro hc
  have hcode : ∀ l : List UInt8, crc8Generator ∣ ofBytes (l ++ [calculateChecksum .crc8 l]) :=
    fun l => (dvd_ofBytes_append_iff crc8Generator_monic crc8Generator_degree l _).mpr
      (calculateChecksum_crc8 l).symm
  have hdvd : crc8Generator ∣ ofBytes pattern := by
    have hsum := hcode body'
    rw [hc, h, ofBytes_zipWith_xor (by simpa using hlen.symm)] at hsum
    exact (dvd_add_right (hcode body)).mp hsum
  rcases hpattern with hburst | hodd
  · exact hburst.not_dvd hdvd
  · exact hodd.not_dvd hdvd

end AutoSerialBridge
