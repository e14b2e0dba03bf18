import Mathlib.Data.List.Count
import Mathlib.Tactic.Common

/-!
# Loops that stop with a result

One pass over the body of a loop either leaves the loop with a result or
goes on with a new state.  The loop is run with a bound on the number of
passes; that the bound is met is part of what is proved about a loop.
-/

namespace Limestone.Library.Loop

variable {State Result : Type*}

/-- Run the body at most `fuel` times; `none` means the loop goes on. -/
def run (body : State → Result ⊕ State) : Nat → State → Option Result
  | 0, _ => none
  | fuel + 1, state =>
      match body state with
      | .inl result => some result
      | .inr next => run body fuel next

/--
The rule for a loop with an invariant and a measure: it stops within the
measure, and what every way out establishes holds of its result.
-/
theorem run_spec
    {body : State → Result ⊕ State} {Invariant : State → Prop}
    {measure : State → Nat} {Post : Result → Prop}
    (leaves : ∀ state result, Invariant state →
      body state = .inl result → Post result)
    (continues : ∀ state next, Invariant state →
      body state = .inr next →
        Invariant next ∧ measure next < measure state)
    {fuel : Nat} {state : State}
    (enough : measure state < fuel)
    (invariant : Invariant state) :
    ∃ result, run body fuel state = some result ∧ Post result := by
  induction fuel generalizing state with
  | zero => exact (Nat.not_lt_zero _ enough).elim
  | succ fuel induction =>
      rw [run]
      cases outcome : body state with
      | inl result => exact ⟨result, rfl, leaves state result invariant outcome⟩
      | inr next =>
          rcases continues state next invariant outcome with ⟨kept, less⟩
          have smaller : measure next < fuel := by omega
          exact induction smaller kept

/-- The rule without a measure: what holds of the result, if there is one. -/
theorem run_induct
    {body : State → Result ⊕ State} {I : State → Prop}
    {P : Result → Prop}
    (leaves : ∀ state result, I state →
      body state = .inl result → P result)
    (continues : ∀ state next, I state →
      body state = .inr next → I next)
    {fuel : Nat} {state : State} {result : Result}
    (invariant : I state)
    (stopped : run body fuel state = some result) :
    P result := by
  induction fuel generalizing state with
  | zero => cases stopped
  | succ fuel induction =>
      rw [run] at stopped
      cases outcome : body state with
      | inl left =>
          rw [outcome] at stopped
          rcases Option.some.inj stopped with rfl
          exact leaves state left invariant outcome
      | inr next =>
          rw [outcome] at stopped
          exact induction (continues state next invariant outcome) stopped

/-- More passes than needed do not change the result. -/
theorem run_mono
    {body : State → Result ⊕ State} {fuel more : Nat} {state : State}
    {result : Result}
    (stopped : run body fuel state = some result)
    (le : fuel ≤ more) :
    run body more state = some result := by
  induction fuel generalizing state more with
  | zero => cases stopped
  | succ fuel induction =>
      cases more with
      | zero => exact (Nat.not_succ_le_zero fuel le).elim
      | succ more =>
          rw [run] at stopped ⊢
          cases outcome : body state with
          | inl left =>
              rw [outcome] at stopped
              exact stopped
          | inr next =>
              rw [outcome] at stopped
              exact induction stopped (Nat.le_of_succ_le_succ le)

/-- A pass that fails fails in one of its steps. -/
theorem foldlM_eq_error
    {ε Item : Type*} {step : State → Item → Except ε State}
    {items : List Item} {state : State} {failure : ε}
    (failed : items.foldlM step state = .error failure) :
    ∃ reached, ∃ item ∈ items, step reached item = .error failure := by
  induction items generalizing state with
  | nil => cases failed
  | cons item items induction =>
      rw [List.foldlM_cons] at failed
      cases first : step state item with
      | error err =>
          rw [first] at failed
          rcases Except.error.inj failed with rfl
          exact ⟨state, item, List.mem_cons_self, first⟩
      | ok next =>
          rw [first] at failed
          rcases induction failed with ⟨reached, later, member, last⟩
          exact ⟨reached, later, List.mem_cons_of_mem _ member, last⟩

/-- What the steps of a pass give, one behind the other. -/
def collect {ε Item Piece : Type*} (step : Item → Except ε (List Piece)) :
    List Item → Except ε (List Piece)
  | [] => .ok []
  | item :: items => do
      let first ← step item
      let rest ← collect step items
      return first ++ rest

section Collect

variable {ε Item Piece : Type*} {step : Item → Except ε (List Piece)}
  {item : Item} {items before behind : List Item} {failure : ε}

theorem collect_cons_error (failed : step item = .error failure) :
    collect step (item :: items) = .error failure := by
  rw [collect, failed]
  rfl

theorem collect_cons_ok
    {first : List Piece}
    (done : step item = .ok first) :
    collect step (item :: items) =
      (collect step items).map fun rest => first ++ rest := by
  rw [collect, done]
  cases collect step items with
  | error failure => rfl
  | ok rest => rfl

/-- A pass that ends makes all its steps. -/
theorem collect_made
    {pieces : List Piece}
    (done : collect step items = .ok pieces) :
    ∀ item ∈ items, ∃ first, step item = .ok first := by
  induction items generalizing pieces with
  | nil => exact fun _ member => (List.not_mem_nil member).elim
  | cons item items induction =>
      rw [List.forall_mem_cons]
      cases here : step item with
      | error failure =>
          rw [collect_cons_error here] at done
          cases done
      | ok first =>
          rw [collect_cons_ok here] at done
          cases there : collect step items with
          | error failure =>
              rw [there] at done
              cases done
          | ok rest => exact ⟨⟨first, rfl⟩, induction there⟩

/-- What holds of the pieces of each step holds of all pieces. -/
theorem collect_induct
    {P : List Piece → Prop} {pieces : List Piece}
    (empty : P [])
    (append : ∀ first rest, P first → P rest → P (first ++ rest))
    (each : ∀ item ∈ items, ∀ first, step item = .ok first → P first)
    (done : collect step items = .ok pieces) :
    P pieces := by
  induction items generalizing pieces with
  | nil =>
      rcases Except.ok.inj done with rfl
      exact empty
  | cons item items induction =>
      have made := collect_made done
      rw [List.forall_mem_cons] at each made
      rcases made.1 with ⟨first, here⟩
      rw [collect_cons_ok here] at done
      cases there : collect step items with
      | error failure =>
          rw [there] at done
          cases done
      | ok rest =>
          rw [there] at done
          rcases Except.ok.inj done with rfl
          exact append first rest (each.1 first here)
            (induction each.2 there)

/-- A pass that fails makes the steps before the one that fails. -/
theorem collect_error (failed : collect step items = .error failure) :
    ∃ before item behind, items = before ++ item :: behind ∧
      (∀ other ∈ before, ∃ first, step other = .ok first) ∧
        step item = .error failure := by
  induction items with
  | nil => cases failed
  | cons item items induction =>
      cases here : step item with
      | error other =>
          rw [collect_cons_error here] at failed
          rcases Except.error.inj failed with rfl
          exact ⟨[], item, items, rfl, nofun, here⟩
      | ok first =>
          rw [collect_cons_ok here] at failed
          cases there : collect step items with
          | ok rest =>
              rw [there] at failed
              cases failed
          | error other =>
              rw [there] at failed
              rcases Except.error.inj failed with rfl
              rcases induction there with
                ⟨before, last, behind, rfl, done, stops⟩
              refine ⟨item :: before, last, behind, rfl, ?_, stops⟩
              rw [List.forall_mem_cons]
              exact ⟨⟨first, here⟩, done⟩

/-- A pass whose steps are made or fail alike is made or fails so. -/
theorem collect_cases
    (each : ∀ item ∈ items,
      (∃ first, step item = .ok first) ∨ step item = .error failure) :
    (∃ pieces, collect step items = .ok pieces) ∨
      collect step items = .error failure := by
  cases outcome : collect step items with
  | ok pieces => exact Or.inl ⟨pieces, rfl⟩
  | error other =>
      rcases collect_error outcome with ⟨before, item, behind, rfl, -, stops⟩
      rcases each item (List.mem_append_right _ List.mem_cons_self) with
        ⟨first, done⟩ | fails
      · rw [stops] at done
        cases done
      · rw [stops] at fails
        exact Or.inr fails

/-- It fails so when one of its steps does and those before do no worse. -/
theorem collect_append_error
    (each : ∀ other ∈ before,
      (∃ first, step other = .ok first) ∨ step other = .error failure)
    (failed : step item = .error failure) :
    collect step (before ++ item :: behind) = .error failure := by
  induction before with
  | nil => exact collect_cons_error failed
  | cons first before induction =>
      rw [List.forall_mem_cons] at each
      rw [List.cons_append]
      rcases each.1 with ⟨pieces, done⟩ | fails
      · rw [collect_cons_ok done, induction each.2]
        rfl
      · exact collect_cons_error fails

end Collect

/-- A count that loses an element, as the measure of a loop. -/
theorem countP_lt_countP
    {Element : Type*} {before after : Element → Bool}
    {elements : List Element} {element : Element}
    (fewer : ∀ other ∈ elements, after other = true → before other = true)
    (member : element ∈ elements)
    (counted : before element = true)
    (lost : after element = false) :
    elements.countP after < elements.countP before := by
  rcases List.append_of_mem member with ⟨first, rest, rfl⟩
  have front : first.countP after ≤ first.countP before :=
    List.countP_mono_left fun other here =>
      fewer other (List.mem_append_left _ here)
  have back : rest.countP after ≤ rest.countP before :=
    List.countP_mono_left fun other here =>
      fewer other (List.mem_append_right _ (List.mem_cons_of_mem _ here))
  rw [List.countP_append, List.countP_append, List.countP_cons,
    List.countP_cons, lost, counted, if_pos rfl, if_neg Bool.false_ne_true]
  omega

section Unvisited

variable {Element Key : Type*} [DecidableEq Key]

/-- The number of elements whose keys have not been visited. -/
def unvisited (key : Element → Key) (elements : List Element)
    (visited : List Key) : Nat :=
  elements.countP fun element => decide (key element ∉ visited)

variable {key : Element → Key} {elements : List Element} {element : Element}
  {visited later : List Key}

theorem unvisited_le (more : ∀ here ∈ visited, here ∈ later) :
    unvisited key elements later ≤ unvisited key elements visited := by
  apply List.countP_mono_left
  intro element _ outside
  exact decide_eq_true (mt (more (key element)) (of_decide_eq_true outside))

theorem unvisited_lt
    (member : element ∈ elements) (unseen : key element ∉ visited) :
    unvisited key elements (visited ++ [key element]) <
      unvisited key elements visited := by
  apply countP_lt_countP _ member (decide_eq_true unseen)
  · exact decide_eq_false (not_not.mpr List.mem_concat_self)
  · intro other _ outside
    exact decide_eq_true
      (mt (List.mem_append_left _) (of_decide_eq_true outside))

end Unvisited

end Limestone.Library.Loop
