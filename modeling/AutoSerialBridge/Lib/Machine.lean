import Mathlib

/-!
# Machines

A state machine by what an event does to a state, its reachable states, and the rule of invariants.
A run may be restricted by a condition on its steps (`ReachableBy`): what holds of every run whose
steps all meet a condition is an invariant proved under that condition.
-/

namespace AutoSerialBridge.Lib

/-- A machine: where it can start, and the state after an event, if the event can happen. -/
structure Machine (σ ε : Type) where
  initial : σ → Prop
  step : σ → ε → Option σ

namespace Machine

variable {σ ε : Type} (M : Machine σ ε)

/-- The states reached by runs whose steps all meet a condition on the event and the state before
it. -/
inductive ReachableBy (P : σ → ε → Prop) : σ → Prop where
  | initial {s : σ} (h : M.initial s) : ReachableBy P s
  | step {s s' : σ} {e : ε} (h : ReachableBy P s) (hcond : P s e) (hstep : M.step s e = some s') :
    ReachableBy P s'

/-- The states reached by any run. -/
def Reachable : σ → Prop := M.ReachableBy fun _ _ => True

variable {M} {P Q : σ → ε → Prop} {I : σ → Prop}

/-- **The rule of invariants.** -/
theorem ReachableBy.invariant (hinit : ∀ s, M.initial s → I s)
    (hstep : ∀ s e s', I s → P s e → M.step s e = some s' → I s') {s : σ}
    (h : M.ReachableBy P s) : I s := by
  induction h with
  | initial h => exact hinit _ h
  | step _ hcond hs ih => exact hstep _ _ _ ih hcond hs

theorem Reachable.invariant (hinit : ∀ s, M.initial s → I s)
    (hstep : ∀ s e s', I s → M.step s e = some s' → I s') {s : σ} (h : M.Reachable s) : I s :=
  ReachableBy.invariant hinit (fun s e s' hs _ => hstep s e s' hs) h

theorem Reachable.of_initial {s : σ} (h : M.initial s) : M.Reachable s := .initial h

theorem ReachableBy.mono (h : ∀ s e, P s e → Q s e) {s : σ} (hs : M.ReachableBy P s) :
    M.ReachableBy Q s := by
  induction hs with
  | initial h₀ => exact .initial h₀
  | step _ hcond hstep ih => exact .step ih (h _ _ hcond) hstep

variable (M)

/-- The state after a sequence of events. -/
def run : σ → List ε → Option σ
  | s, [] => some s
  | s, e :: es => (M.step s e).bind fun s' => run s' es

variable {M}

theorem Reachable.of_run {s s' : σ} {es : List ε} (h : M.Reachable s)
    (hrun : M.run s es = some s') : M.Reachable s' := by
  induction es generalizing s with
  | nil => exact Option.some.inj hrun ▸ h
  | cons e es ih =>
    obtain ⟨s₁, hs₁, hrest⟩ := Option.bind_eq_some_iff.mp hrun
    exact ih (.step h trivial hs₁) hrest

variable (M)

/-- The state after a sequence of events, if every one passes a check. -/
def runChecked (check : σ → ε → Bool) : σ → List ε → Option σ
  | s, [] => some s
  | s, e :: es => if check s e then (M.step s e).bind fun s' => runChecked check s' es else none

variable {M}

theorem ReachableBy.of_runChecked {check : σ → ε → Bool} (hcheck : ∀ s e, check s e → P s e)
    {s s' : σ} {es : List ε} (h : M.ReachableBy P s) (hrun : M.runChecked check s es = some s') :
    M.ReachableBy P s' := by
  induction es generalizing s with
  | nil => exact Option.some.inj hrun ▸ h
  | cons e es ih =>
    rw [runChecked, Option.ite_none_right_eq_some] at hrun
    obtain ⟨hpass, hrun⟩ := hrun
    obtain ⟨s₁, hs₁, hrest⟩ := Option.bind_eq_some_iff.mp hrun
    exact ih (.step h (hcheck s e hpass) hs₁) hrest

end Machine

end AutoSerialBridge.Lib
