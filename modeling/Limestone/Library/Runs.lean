import Mathlib.Data.List.Basic

/-!
# Runs of a deterministic system

A run is a start state and the list of the steps taken from it.  What holds
of every state of a run is derived from what holds of one step.
-/

namespace Limestone.Library.Runs

variable {State Step : Type*} (after : State → Step → State)

/-- `property` holds of every state of the run, the first and last included. -/
def Throughout (property : State → Prop) : State → List Step → Prop
  | state, [] => property state
  | state, step :: steps =>
      property state ∧ Throughout property (after state step) steps

/-- Every step of the run satisfies `guard` in the state it is taken in. -/
def Guarded (guard : State → Step → Prop) : State → List Step → Prop
  | _, [] => True
  | state, step :: steps =>
      guard state step ∧ Guarded guard (after state step) steps

variable {after} {property other : State → Prop}
  {guard : State → Step → Prop} {state : State} {steps : List Step}

/-- What every guarded step preserves holds throughout a guarded run. -/
theorem Guarded.throughout
    (guarded : Guarded after guard state steps)
    (base : property state)
    (preserved : ∀ state step, property state → guard state step →
      property (after state step)) :
    Throughout after property state steps := by
  induction steps generalizing state with
  | nil => exact base
  | cons step steps induction =>
      rcases guarded with ⟨here, later⟩
      exact ⟨base, induction later (preserved state step base here)⟩

/-- Guards that agree under an invariant of the system guard the same runs. -/
theorem guarded_congr
    {otherGuard : State → Step → Prop}
    (base : property state)
    (preserved : ∀ state step, property state → property (after state step))
    (same : ∀ state step, property state →
      (guard state step ↔ otherGuard state step)) :
    Guarded after guard state steps ↔ Guarded after otherGuard state steps := by
  induction steps generalizing state with
  | nil => exact Iff.rfl
  | cons step steps induction =>
      exact and_congr (same state step base)
        (induction (preserved state step base))

/--
A guard that says when a step preserves a property says so of a run.  The
system may have an invariant that every step keeps.
-/
theorem throughout_iff_guarded_of_invariant
    (invariant : other state)
    (kept : ∀ state step, other state → other (after state step))
    (base : property state)
    (exact : ∀ state step, other state → property state →
      (property (after state step) ↔ guard state step)) :
    Throughout after property state steps ↔
      Guarded after guard state steps := by
  induction steps generalizing state with
  | nil => exact iff_of_true base trivial
  | cons step steps induction =>
      constructor
      · rintro ⟨-, later⟩
        have next : property (after state step) := by
          cases steps with
          | nil => exact later
          | cons _ _ => exact later.1
        exact ⟨(exact state step invariant base).mp next,
          (induction (kept state step invariant) next).mp later⟩
      · rintro ⟨here, later⟩
        have next := (exact state step invariant base).mpr here
        exact ⟨base, (induction (kept state step invariant) next).mpr later⟩

/-- A guard that says when a step preserves a property says so of a run. -/
theorem throughout_iff_guarded
    (base : property state)
    (exact : ∀ state step, property state →
      (property (after state step) ↔ guard state step)) :
    Throughout after property state steps ↔
      Guarded after guard state steps := by
  let invariant : State → Prop := fun _ => True
  have always : invariant state := trivial
  apply throughout_iff_guarded_of_invariant always _ base
  · intro state step _
    exact exact state step
  · intro _ _ _
    trivial

/-- The same for a property of states together with one of steps. -/
theorem throughout_and_guarded_iff_guarded
    {stepProperty : State → Step → Prop}
    (base : property state)
    (exact : ∀ state step, property state →
      (property (after state step) ∧ stepProperty state step ↔
        guard state step)) :
    Throughout after property state steps ∧
        Guarded after stepProperty state steps ↔
      Guarded after guard state steps := by
  induction steps generalizing state with
  | nil => exact iff_of_true ⟨base, trivial⟩ trivial
  | cons step steps induction =>
      constructor
      · rintro ⟨⟨-, later⟩, here, laterSteps⟩
        have next : property (after state step) := by
          cases steps with
          | nil => exact later
          | cons _ _ => exact later.1
        exact ⟨(exact state step base).mp ⟨next, here⟩,
          (induction next).mp ⟨later, laterSteps⟩⟩
      · rintro ⟨here, later⟩
        rcases (exact state step base).mpr here with ⟨next, property⟩
        rcases (induction next).mpr later with ⟨states, steps⟩
        exact ⟨⟨base, states⟩, property, steps⟩

theorem Throughout.imp
    (holds : Throughout after property state steps)
    (implies : ∀ state, property state → other state) :
    Throughout after other state steps := by
  induction steps generalizing state with
  | nil => exact implies state holds
  | cons step steps induction =>
      exact ⟨implies state holds.1, induction holds.2⟩

end Limestone.Library.Runs
