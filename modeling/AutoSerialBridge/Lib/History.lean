import Mathlib

/-!
# Histories

A history is a list of events, newest first, which only grows. Two notions for proofs about
them: a history has gained only events of one kind (`Gained`), and every event met a condition on what
had happened before it (`Recorded`).

## Results

* `Gained.mem_iff`, `Gained.filter_eq` — what is not of that kind is unchanged.
* `Recorded.gained` — a condition on other events still holds.
-/

namespace AutoSerialBridge.Lib

variable {α : Type} {P Q : α → Prop} {R : α → List α → Prop} {a b c : List α} {e : α}

/-- The history has gained only events with `P`. -/
def Gained (P : α → Prop) (old new : List α) : Prop :=
  ∃ events, new = events ++ old ∧ ∀ e ∈ events, P e

namespace Gained

theorem refl (a : List α) : Gained P a a := ⟨[], rfl, List.forall_mem_nil _⟩

theorem cons (he : P e) : Gained P a (e :: a) := by
  refine ⟨[e], rfl, fun e' he' => ?_⟩
  rw [List.mem_singleton.mp he']
  exact he

theorem trans (h : Gained P a b) (h' : Gained P b c) : Gained P a c := by
  obtain ⟨events, rfl, hall⟩ := h
  obtain ⟨events', rfl, hall'⟩ := h'
  refine ⟨events' ++ events, (List.append_assoc ..).symm, fun e he => ?_⟩
  exact (List.mem_append.mp he).elim (hall' e) (hall e)

theorem mono (h : Gained P a b) (hPQ : ∀ e, P e → Q e) : Gained Q a b := by
  obtain ⟨events, rfl, hall⟩ := h
  exact ⟨events, rfl, fun e he => hPQ e (hall e he)⟩

theorem mem (h : Gained P a b) (he : e ∈ a) : e ∈ b := by
  obtain ⟨events, rfl, -⟩ := h
  exact List.mem_append_right events he

theorem mem_iff (h : Gained P a b) (he : ¬ P e) : e ∈ b ↔ e ∈ a := by
  refine ⟨fun hmem => ?_, h.mem⟩
  obtain ⟨events, rfl, hall⟩ := h
  exact (List.mem_append.mp hmem).resolve_left fun hnew => he (hall e hnew)

theorem filter_eq (h : Gained P a b) {q : α → Bool} (hq : ∀ e, P e → q e = false) :
    b.filter q = a.filter q := by
  obtain ⟨events, rfl, hall⟩ := h
  have hnone : events.filter q = [] := by
    rw [List.filter_eq_nil_iff]
    intro e he
    rw [hq e (hall e he)]
    exact Bool.false_ne_true
  rw [List.filter_append, hnone, List.nil_append]

end Gained

/-- Every event met `R` with what had happened before it. -/
def Recorded (R : α → List α → Prop) : List α → Prop
  | [] => True
  | e :: older => R e older ∧ Recorded R older

namespace Recorded

theorem gained (h : Recorded R a) (hg : Gained P a b) (hP : ∀ e older, P e → R e older) :
    Recorded R b := by
  obtain ⟨events, rfl, hall⟩ := hg
  induction events with
  | nil => exact h
  | cons e events ih =>
    rw [List.forall_mem_cons] at hall
    exact ⟨hP e _ hall.1, ih hall.2⟩

/-- What was true of the past when an event was recorded. -/
theorem of_append {newer older : List α} (h : Recorded R (newer ++ e :: older)) : R e older := by
  induction newer with
  | nil => exact h.1
  | cons _ newer ih => exact ih h.2

theorem exists_of_mem (h : Recorded R a) (he : e ∈ a) : ∃ older, Gained (fun _ => True) older a ∧
    R e older := by
  obtain ⟨newer, older, rfl⟩ := List.append_of_mem he
  refine ⟨older, ⟨newer ++ [e], by simp, fun _ _ => trivial⟩, h.of_append⟩

end Recorded

end AutoSerialBridge.Lib
