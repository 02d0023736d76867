import Mathlib

/-!
# Windows of a circular buffer

A circular buffer of `cap` cells with a read index `tail` holds the list of the `n` cells that
follow `tail`, wrapping at `cap`. `ringWindow` is that list, and the lemmas say what moving the
indices does to it: dropping from the front is advancing `tail`, and writing the first free cell
is appending. The cell contents are a function of the index, so any array model can be used.
-/

namespace AutoSerialBridge.Lib

variable {α : Type}

/-- The `n` cells from `tail` on, in reading order. -/
def ringWindow (cell : Nat → α) (cap tail n : Nat) : List α :=
  (List.range n).map fun i => cell ((tail + i) % cap)

/-- How many cells are occupied between `tail` and `head`. -/
def ringCount (cap head tail : Nat) : Nat := (head + cap - tail) % cap

@[simp] theorem ringWindow_length (cell : Nat → α) (cap tail n : Nat) :
    (ringWindow cell cap tail n).length = n := by
  simp [ringWindow]

theorem ringWindow_getElem {cell : Nat → α} {cap tail n i : Nat}
    (hi : i < (ringWindow cell cap tail n).length) :
    (ringWindow cell cap tail n)[i] = cell ((tail + i) % cap) := by
  simp [ringWindow]

theorem ringWindow_getElem? {cell : Nat → α} {cap tail n i : Nat} (hi : i < n) :
    (ringWindow cell cap tail n)[i]? = some (cell ((tail + i) % cap)) := by
  simp [ringWindow, hi]

/-- Dropping from the front is advancing the read index. -/
theorem ringWindow_drop (cell : Nat → α) (cap tail n k : Nat) :
    (ringWindow cell cap tail n).drop k = ringWindow cell cap ((tail + k) % cap) (n - k) := by
  apply List.ext_getElem
  · simp
  · intro i h1 h2
    rw [List.getElem_drop, ringWindow_getElem, ringWindow_getElem]
    congr 1
    rw [Nat.mod_add_mod]
    congr 1
    omega

/-- Two windows over buffers that agree on the occupied cells are equal. -/
theorem ringWindow_congr {cell cell' : Nat → α} {cap tail n : Nat}
    (h : ∀ i, i < n → cell ((tail + i) % cap) = cell' ((tail + i) % cap)) :
    ringWindow cell cap tail n = ringWindow cell' cap tail n := by
  apply List.map_congr_left
  intro i hi
  exact h i (List.mem_range.mp hi)

/-- Distinct offsets below the capacity reach distinct cells. -/
theorem ring_index_inj {cap t i j : Nat} (hi : i < cap) (hj : j < cap)
    (h : (t + i) % cap = (t + j) % cap) : i = j := by
  have hmod : i ≡ j [MOD cap] := Nat.ModEq.add_left_cancel' t h
  rw [Nat.ModEq, Nat.mod_eq_of_lt hi, Nat.mod_eq_of_lt hj] at hmod
  exact hmod

/-- Writing the first free cell appends to the window. -/
theorem ringWindow_push {cell cell' : Nat → α} {cap tail n : Nat} {a : α} (hn : n < cap)
    (hnew : cell' ((tail + n) % cap) = a)
    (hold : ∀ k, k ≠ (tail + n) % cap → cell' k = cell k) :
    ringWindow cell' cap tail (n + 1) = ringWindow cell cap tail n ++ [a] := by
  rw [ringWindow, List.range_succ, List.map_append, List.map_singleton, hnew]
  congr 1
  apply ringWindow_congr
  intro i hi
  apply hold
  intro heq
  have := ring_index_inj (by omega) hn heq
  omega

theorem ringCount_lt {cap head tail : Nat} (hcap : 0 < cap) : ringCount cap head tail < cap :=
  Nat.mod_lt _ hcap

/-- The write index is the read index plus the count. -/
theorem ring_head_eq {cap head tail : Nat} (hh : head < cap) (ht : tail < cap) :
    (tail + ringCount cap head tail) % cap = head := by
  rw [ringCount, Nat.add_mod_mod, show tail + (head + cap - tail) = head + cap by omega,
    Nat.add_mod_right, Nat.mod_eq_of_lt hh]

/-- Advancing the write index counts one more, unless it would catch up with the read index. -/
theorem ringCount_push {cap head tail : Nat} (hh : head < cap) (ht : tail < cap)
    (hroom : (head + 1) % cap ≠ tail) :
    ringCount cap ((head + 1) % cap) tail = ringCount cap head tail + 1 := by
  have hlt : ringCount cap head tail < cap := ringCount_lt (by omega)
  have hhead := ring_head_eq hh ht
  have hroom' : ringCount cap head tail + 1 ≠ cap := by
    intro hfull
    apply hroom
    rw [← hhead, Nat.mod_add_mod, Nat.add_assoc, hfull, Nat.add_mod_right, Nat.mod_eq_of_lt ht]
  rw [← hhead, Nat.mod_add_mod, hhead, ringCount]
  rw [show ((tail + ringCount cap head tail + 1) % cap + cap - tail) =
    ((tail + ringCount cap head tail + 1) % cap + (cap - tail)) by omega]
  rw [Nat.mod_add_mod, show tail + ringCount cap head tail + 1 + (cap - tail) =
    (ringCount cap head tail + 1) + cap by omega, Nat.add_mod_right]
  exact Nat.mod_eq_of_lt (by omega)

/-- The write index catches up with the read index exactly when one cell is left. -/
theorem ringCount_full {cap head tail : Nat} (hh : head < cap) (ht : tail < cap) :
    (head + 1) % cap = tail ↔ ringCount cap head tail = cap - 1 := by
  constructor
  · intro h
    by_cases hlast : head + 1 = cap
    · have htail : tail = 0 := by rw [← h, hlast, Nat.mod_self]
      rw [ringCount, htail, Nat.sub_zero, Nat.add_mod_right, Nat.mod_eq_of_lt hh]
      omega
    · rw [Nat.mod_eq_of_lt (by omega)] at h
      rw [ringCount, show head + cap - tail = cap - 1 by omega]
      exact Nat.mod_eq_of_lt (by omega)
  · intro h
    have hhead := ring_head_eq hh ht
    rw [← hhead, Nat.mod_add_mod, h, show tail + (cap - 1) + 1 = tail + cap by omega,
      Nat.add_mod_right, Nat.mod_eq_of_lt ht]

/-- Advancing the read index counts that many less. -/
theorem ringCount_drop {cap head tail k : Nat} (hh : head < cap) (ht : tail < cap)
    (hk : k ≤ ringCount cap head tail) :
    ringCount cap head ((tail + k) % cap) = ringCount cap head tail - k := by
  have hlt : ringCount cap head tail < cap := ringCount_lt (by omega)
  have hhead := ring_head_eq hh ht
  have htail : (tail + k) % cap < cap := Nat.mod_lt _ (by omega)
  have hhead' := ring_head_eq hh htail
  have hlt' : ringCount cap head ((tail + k) % cap) < cap := ringCount_lt (by omega)
  apply ring_index_inj (t := (tail + k) % cap) hlt' (by omega)
  rw [hhead', Nat.mod_add_mod, Nat.add_assoc, Nat.add_sub_cancel' hk, hhead]

end AutoSerialBridge.Lib
