import Mathlib.Init

/-! # Guarded runs

A system takes labelled steps from its initial states. A guard restricts which
steps a run may take; it reads the label and the state before the step. -/
namespace Transition

universe u v

variable {State : Type u} {Label : Type v}

inductive Reachable (initial : State → Prop) (step : State → Label → State → Prop)
    (guard : State → Label → Prop) : State → Prop where
  | initial {s} : initial s → Reachable initial step guard s
  | step {s l t} : Reachable initial step guard s → guard s l → step s l t →
      Reachable initial step guard t

variable {initial : State → Prop} {step : State → Label → State → Prop}
  {guard : State → Label → Prop}

/-- What holds initially and survives every guarded step holds in every state
reached. -/
theorem Reachable.holds (h : Reachable initial step guard s) (invariant : State → Prop)
    (hi : ∀ s, initial s → invariant s)
    (hst : ∀ s l t, invariant s → guard s l → step s l t → invariant t) : invariant s := by
  induction h with
  | initial hs => exact hi _ hs
  | step _ hg hs ih => exact hst _ _ _ ih hg hs

theorem Reachable.mono (h : Reachable initial step guard s) (hg : ∀ s l, guard s l → weaker s l) :
    Reachable initial step weaker s := by
  induction h with
  | initial hs => exact .initial hs
  | step _ hl hs ih => exact ih.step (hg _ _ hl) hs

end Transition
