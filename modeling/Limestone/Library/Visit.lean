import Mathlib.Data.List.Basic
import Mathlib.Tactic.Common

/-!
# Loops over a list that an error ends

Every item is given to a step that changes a state and may report an error,
which ends the loop.  The items that have been visited are a part of the list
from its start on: all of it, or up to the item of the error.
-/

namespace Limestone.Library.Visit

variable {State Item Error : Type*}

/-- Give the items to the step, until it reports an error. -/
def visit (step : State → Item → State × Option Error) :
    State → List Item → State × Option Error
  | state, [] => (state, none)
  | state, item :: items =>
      match step state item with
      | (next, none) => visit step next items
      | (next, some error) => (next, some error)

variable {step : State → Item → State × Option Error}
  {state : State}

/-- The rule for a loop with an invariant over what has been visited. -/
theorem visit_induct
    {I : List Item → State → Prop}
    (before items : List Item)
    (continues : ∀ done state item next, I done state →
      step state item = (next, none) → I (done ++ [item]) next)
    (invariant : I before state) :
    (∃ last, visit step state items = (last, none) ∧ I (before ++ items) last) ∨
      ∃ done item rest middle last error, items = done ++ item :: rest ∧
        visit step state items = (last, some error) ∧
        I (before ++ done) middle ∧ step middle item = (last, some error) := by
  induction items generalizing state before with
  | nil =>
      left
      exact ⟨state, rfl, by rwa [List.append_nil]⟩
  | cons item items induction =>
      cases outcome : step state item with
      | mk next result =>
          cases result with
          | some error =>
              right
              refine ⟨[], item, items, state, next, error, rfl, ?_, ?_,
                outcome⟩
              · simp only [visit, outcome]
              · rwa [List.append_nil]
          | none =>
              have kept := continues before state item next invariant outcome
              have visited : visit step state (item :: items) =
                  visit step next items := by
                simp only [visit, outcome]
              rcases induction (before ++ [item]) kept with
                ⟨last, ends, holds⟩ |
                ⟨done, other, rest, middle, last, error, rfl, ends, holds,
                  fails⟩
              · left
                refine ⟨last, visited.trans ends, ?_⟩
                simpa using holds
              · right
                refine ⟨item :: done, other, rest, middle, last, error, rfl,
                  visited.trans ends, ?_, fails⟩
                simpa using holds

end Limestone.Library.Visit
