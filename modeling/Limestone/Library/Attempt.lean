import Mathlib.Data.Option.Basic
import Mathlib.Control.Basic

/-!
# Attempts

An attempt works on a state and ends with a value or with an error.  What it
has done before an error stays done.  What no step of an attempt touches is the
same after it, whether it ends with an error or not.
-/

namespace Limestone.Library

/-- A computation whose state survives its errors. -/
abbrev Attempt (Error State Value : Type) :=
  ExceptT Error (StateM State) Value

namespace Attempt

variable {Error State Value Result Part : Type}

/-- How an attempt ends, and the state then. -/
def outcome (attempt : Attempt Error State Value) (state : State) :
    Except Error Value × State :=
  StateT.run (ExceptT.run attempt) state

/-- A call that does not touch the state. -/
def lift (result : Except Error Value) : Attempt Error State Value :=
  match result with
  | .ok value => pure value
  | .error error => throw error

variable {attempt : Attempt Error State Value}
  {next : Value → Attempt Error State Result} {state middle : State}
  {value : Value} {error : Error}

/-! ## Outcomes -/

@[simp]
theorem outcome_pure :
    (pure value : Attempt Error State Value).outcome state =
      (.ok value, state) :=
  rfl

@[simp]
theorem outcome_throw :
    (throw error : Attempt Error State Value).outcome state =
      (.error error, state) :=
  rfl

@[simp]
theorem outcome_get :
    (get : Attempt Error State State).outcome state = (.ok state, state) :=
  rfl

@[simp]
theorem outcome_set :
    (set middle : Attempt Error State PUnit).outcome state =
      (.ok ⟨⟩, middle) :=
  rfl

@[simp]
theorem outcome_lift {result : Except Error Value} :
    (lift result : Attempt Error State Value).outcome state =
      (result, state) := by
  cases result with
  | ok value => rfl
  | error error => rfl

theorem outcome_bind :
    (attempt >>= next).outcome state =
      match attempt.outcome state with
      | (.ok value, middle) => (next value).outcome middle
      | (.error error, middle) => (.error error, middle) := by
  show ExceptT.bindCont next (attempt.outcome state).1
    (attempt.outcome state).2 = _
  rcases attempt.outcome state with ⟨result, middle⟩
  cases result with
  | ok value => rfl
  | error error => rfl

theorem outcome_bind_ok
    (ended : attempt.outcome state = (.ok value, middle)) :
    (attempt >>= next).outcome state = (next value).outcome middle := by
  rw [outcome_bind, ended]

theorem outcome_bind_error
    (ended : attempt.outcome state = (.error error, middle)) :
    (attempt >>= next).outcome state = (.error error, middle) := by
  rw [outcome_bind, ended]

theorem outcome_tryCatch {handle : Error → Attempt Error State Value} :
    (tryCatch attempt handle).outcome state =
      match attempt.outcome state with
      | (.ok value, middle) => (.ok value, middle)
      | (.error error, middle) => (handle error).outcome middle := by
  show (fun ended : Except Error Value × State =>
    Attempt.outcome (ExceptT.mk (match ended.1 with
      | .ok value => Pure.pure (Except.ok value)
      | .error error => handle error)) ended.2) (attempt.outcome state) = _
  rcases attempt.outcome state with ⟨result, middle⟩
  cases result with
  | ok value => rfl
  | error error => rfl

theorem outcome_tryCatch_ok
    {handle : Error → Attempt Error State Value}
    (ended : attempt.outcome state = (.ok value, middle)) :
    (tryCatch attempt handle).outcome state = (.ok value, middle) := by
  rw [outcome_tryCatch, ended]

theorem outcome_tryCatch_error
    {handle : Error → Attempt Error State Value}
    (ended : attempt.outcome state = (.error error, middle)) :
    (tryCatch attempt handle).outcome state =
      (handle error).outcome middle := by
  rw [outcome_tryCatch, ended]

/-! ## What an attempt satisfies -/

/--
From a state as before the attempt comes to a value and a state as after it, or
it fails in a state as described for errors.
-/
def Satisfies (before : State → Prop) (attempt : Attempt Error State Value)
    (after : Value → State → Prop) (failed : State → Prop) : Prop :=
  ∀ state, before state →
    match attempt.outcome state with
    | (.ok value, middle) => after value middle
    | (.error _, middle) => failed middle

variable {before failed : State → Prop} {after : Value → State → Prop}
  {later : Result → State → Prop}

theorem Satisfies.weaken
    {required : State → Prop}
    (satisfies : Satisfies required attempt after failed)
    (implies : ∀ state, before state → required state) :
    Satisfies before attempt after failed :=
  fun state holds => satisfies state (implies state holds)

theorem Satisfies.pure (holds : ∀ state, before state → after value state) :
    Satisfies before (pure value : Attempt Error State Value) after failed :=
  holds

theorem Satisfies.throw (holds : ∀ state, before state → failed state) :
    Satisfies before (throw error : Attempt Error State Value) after failed :=
  holds

theorem Satisfies.lift
    {result : Except Error Value}
    (succeeds : ∀ state value, before state → result = .ok value →
      after value state)
    (fails : ∀ state, before state → failed state) :
    Satisfies before (lift result : Attempt Error State Value) after
      failed := by
  intro state holds
  rw [outcome_lift]
  cases result with
  | ok value => exact succeeds state value holds rfl
  | error error => exact fails state holds

theorem Satisfies.bind
    (first : Satisfies before attempt after failed)
    (second : ∀ value, Satisfies (after value) (next value) later failed) :
    Satisfies before (attempt >>= next) later failed := by
  intro state holds
  have reached := first state holds
  rw [outcome_bind]
  cases ended : attempt.outcome state with
  | mk result middle =>
      rw [ended] at reached
      cases result with
      | ok value => exact second value middle reached
      | error error => exact reached

theorem Satisfies.get_bind
    {next : State → Attempt Error State Result}
    (second : ∀ state, before state →
      Satisfies (· = state) (next state) later failed) :
    Satisfies before (get >>= next) later failed := by
  intro state holds
  rw [outcome_bind_ok outcome_get]
  exact second state holds state rfl

theorem Satisfies.set
    {after : PUnit → State → Prop}
    (holds : ∀ state, before state → after ⟨⟩ middle) :
    Satisfies before (set middle : Attempt Error State PUnit) after failed :=
  holds

theorem Satisfies.tryCatch
    {handle : Error → Attempt Error State Value} {caught : State → Prop}
    (tried : Satisfies before attempt after caught)
    (handled : ∀ error, Satisfies caught (handle error) after failed) :
    Satisfies before (tryCatch attempt handle) after failed := by
  intro state holds
  have reached := tried state holds
  rw [outcome_tryCatch]
  cases ended : attempt.outcome state with
  | mk result middle =>
      rw [ended] at reached
      cases result with
      | ok value => exact reached
      | error error => exact handled error middle reached

/-- What every item of a list keeps is kept by all of them. -/
theorem Satisfies.foldlM
    {Item : Type} {step : Value → Item → Attempt Error State Value}
    (kept : ∀ value item,
      Satisfies (after value) (step value item) after failed)
    (items : List Item) :
    ∀ value, Satisfies (after value) (items.foldlM step value) after
      failed := by
  induction items with
  | nil =>
      intro value
      exact Satisfies.pure fun _ holds => holds
  | cons item items induction =>
      intro value
      rw [List.foldlM_cons]
      exact (kept value item).bind induction

end Attempt

end Limestone.Library
