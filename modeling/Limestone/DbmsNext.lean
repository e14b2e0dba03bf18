import Limestone.Library.Loop
import Limestone.StatementExecution

/-!
# The rows of a query: `dbms_next`

`dbms_next` returns one for a row, zero behind the last row and a negative
number where there are no results or a fetch fails.  A loop whose condition is
the returned number itself goes on for each number but zero.
-/

namespace Limestone.DbmsNext

open Library
open DbmsDbd
open StatementExecution

variable {Row State : Type*}

/-! ## The functions -/

/-- What is behind the rows of a result. -/
inductive Ending (Row : Type*) where
  | last
  /-- A fetch that fails, and what it leaves in `row`; `none` is NULL. -/
  | broken (row : Option Row)
deriving DecidableEq, Repr

/-- What the database answers to a statement. -/
inductive Answer (Row : Type*) where
  | refused
  | results (rows : List Row) (ending : Ending Row)
deriving DecidableEq, Repr

/-- `dav_repos_query` when it has been executed. -/
structure Query (Row : Type*) where
  state : QueryState
  /-- The rows that are not fetched yet. -/
  results : List Row
  ending : Ending Row
  row : Option Row
deriving DecidableEq, Repr

/-- `dbms_execute`: whether it returns an error, and the query behind it. -/
def dbmsExecute (query : DavReposQuery) (answer : Answer Row) :
    Bool × Query Row :=
  match escquery query with
  -- a parameter was never set
  | none => (false, ⟨.prepared, [], .last, none⟩)
  | some _ =>
      match answer with
      | .refused => (true, ⟨.error, [], .last, none⟩)
      | .results rows ending => (false, ⟨.executed, rows, ending, none⟩)

/-- `dbms_next`. -/
def dbmsNext (query : Query Row) : Int × Query Row :=
  if query.state ≠ .executed then (-1, query)
  else
    match query.results with
    | row :: rows => (1, { query with results := rows, row := some row })
    | [] =>
        match query.ending with
        | .last => (0, { query with row := none })
        | .broken row => (-1, { query with row := row })

/-! ## Loops over the rows -/

/-- How a loop is left. -/
inductive LoopEnd (State : Type*) where
  | finished (state : State)
  /-- NULL was taken for the text of a column. -/
  | crashed
deriving DecidableEq, Repr

/-- `while (dbms_next(q))` with a body that is given the row of the query. -/
def whileNext (body : State → Option Row → Option State)
    (loop : Query Row × State) : LoopEnd State ⊕ (Query Row × State) :=
  let (returned, query) := dbmsNext loop.1
  if returned = 0 then .inl (.finished loop.2)
  else
    match body loop.2 query.row with
    | none => .inl .crashed
    | some state => .inr (query, state)

variable {body : State → Option Row → Option State}
  {next : State → Row → State} {query : Query Row} {state : State}

/-- The body is run for each number but zero. -/
theorem whileNext_of_ne_zero
    (nonzero : (dbmsNext query).1 ≠ 0) :
    whileNext body (query, state) =
      (body state (dbmsNext query).2.row).elim (.inl .crashed)
        fun state => .inr ((dbmsNext query).2, state) := by
  rw [whileNext]
  dsimp only
  rw [if_neg nonzero]
  cases body state (dbmsNext query).2.row with
  | none => rfl
  | some state => rfl

/-- A result without a failure is read to its end. -/
theorem run_whileNext
    (total : ∀ state row, body state (some row) = some (next state row))
    (executed : query.state = .executed)
    (complete : query.ending = .last) :
    Loop.run (whileNext body) (query.results.length + 1) (query, state) =
      some (.finished (query.results.foldl next state)) := by
  rcases query with ⟨queryState, results, ending, row⟩
  rcases executed with rfl
  rcases complete with rfl
  induction results generalizing state row with
  | nil => rfl
  | cons first results induction =>
      have nonzero :
          (dbmsNext ⟨.executed, first :: results, .last, row⟩).1 ≠ 0 :=
        Int.one_ne_zero
      have step : whileNext body
          (⟨.executed, first :: results, .last, row⟩, state) =
          .inr (⟨.executed, results, .last, some first⟩, next state first) := by
        rw [whileNext_of_ne_zero nonzero]
        show (body state (some first)).elim _ _ = _
        rw [total]
        rfl
      rw [List.length_cons, Loop.run, step]
      exact induction (some first)

/-- There are no results, or a fetch of them fails. -/
def Fails (query : Query Row) : Prop :=
  query.state ≠ .executed ∨ ∃ row, query.ending = .broken row

theorem Fails.fetch
    (fails : Fails query) :
    (dbmsNext query).1 ≠ 0 ∧ Fails (dbmsNext query).2 := by
  have minusOne : (-1 : Int) ≠ 0 := by decide
  rcases query with ⟨queryState, results, ending, row⟩
  rw [dbmsNext]
  dsimp only
  by_cases unexecuted : queryState ≠ .executed
  · rw [if_pos unexecuted]
    exact ⟨minusOne, fails⟩
  · rw [if_neg unexecuted]
    rcases fails with other | ⟨left, broken⟩
    · exact (unexecuted other).elim
    · rcases broken with rfl
      cases results with
      | nil => exact ⟨minusOne, Or.inr ⟨left, rfl⟩⟩
      | cons first results => exact ⟨Int.one_ne_zero, Or.inr ⟨left, rfl⟩⟩

/-- A loop over a query that fails is never left at its condition. -/
theorem Fails.not_finished
    (fails : Fails query) (fuel : Nat) (final : State) :
    Loop.run (whileNext body) fuel (query, state) ≠
      some (.finished final) := by
  intro finished
  have never := @Loop.run_induct (Query Row × State) (LoopEnd State)
    (whileNext body) (fun loop => Fails loop.1)
    (fun result => result = .crashed)
    (by
      rintro ⟨query, state⟩ result (fails : Fails query) left
      rcases fails.fetch with ⟨nonzero, -⟩
      rw [whileNext_of_ne_zero nonzero] at left
      cases made : body state (dbmsNext query).2.row with
      | none =>
          rw [made] at left
          exact (Sum.inl.inj left).symm
      | some next =>
          rw [made] at left
          cases left)
    (by
      rintro ⟨query, state⟩ loop (fails : Fails query) continued
      rcases fails.fetch with ⟨nonzero, still⟩
      rw [whileNext_of_ne_zero nonzero] at continued
      cases made : body state (dbmsNext query).2.row with
      | none =>
          rw [made] at continued
          cases continued
      | some next =>
          rw [made] at continued
          rw [← Sum.inr.inj continued]
          exact still)
  have crashed := never fails finished
  cases crashed

/-- The loop is left in time iff there are results and no fetch fails. -/
theorem run_finished_iff
    (total : ∀ state row, body state (some row) = some (next state row)) :
    (∃ final, Loop.run (whileNext body) (query.results.length + 1)
        (query, state) = some (.finished final)) ↔
      query.state = .executed ∧ query.ending = .last := by
  constructor
  · rintro ⟨final, finished⟩
    have works : ¬ Fails query :=
      fun fails => fails.not_finished _ final finished
    rw [Fails, not_or, not_not] at works
    refine ⟨works.1, ?_⟩
    cases ending : query.ending with
    | last => rfl
    | broken row => exact (works.2 ⟨row, ending⟩).elim
  · rintro ⟨executed, complete⟩
    exact ⟨_, run_whileNext total executed complete⟩

/-! ## A query with a loop over its rows -/

/-- A query and the loop over its rows. -/
structure RowLoop (Row State : Type*) where
  query : DavReposQuery
  start : State
  body : State → Option Row → Option State
  /-- Whether the loop is entered when the query has failed. -/
  onError : Bool

/-- Execute the query and loop; `none` while the loop is running. -/
def RowLoop.run (loop : RowLoop Row State) (fuel : Nat) (answer : Answer Row) :
    Option (LoopEnd State) :=
  let (err, q) := dbmsExecute loop.query answer
  if err && !loop.onError then some (.finished loop.start)
  else Loop.run (whileNext loop.body) fuel (q, loop.start)

/-- The loop is left with at most one step more than rows are delivered. -/
def RowLoop.EndsInTime (loop : RowLoop Row State) (answer : Answer Row) :
    Prop :=
  ∃ final, loop.run
    ((dbmsExecute loop.query answer).2.results.length + 1) answer =
      some (.finished final)

/-- All rows are delivered. -/
def Complete (answer : Answer Row) : Prop :=
  ∃ rows, answer = .results rows .last

section Ends

variable {loop : RowLoop Row State} {answer : Answer Row}
  {next : State → Row → State} {text : Text}

/-- A query that is not sent leaves nothing to fetch. -/
theorem dbmsExecute_of_unsent
    {query : DavReposQuery}
    (unsent : escquery query = none) :
    dbmsExecute query answer = (false, ⟨.prepared, [], .last, none⟩) := by
  unfold dbmsExecute
  rw [unsent]

theorem dbmsExecute_refused
    {query : DavReposQuery}
    (sent : escquery query = some text) :
    dbmsExecute query (.refused : Answer Row) =
      (true, ⟨.error, [], .last, none⟩) := by
  unfold dbmsExecute
  rw [sent]

theorem dbmsExecute_results
    {query : DavReposQuery}
    (sent : escquery query = some text) (rows : List Row)
    (ending : Ending Row) :
    dbmsExecute query (.results rows ending) =
      (false, ⟨.executed, rows, ending, none⟩) := by
  unfold dbmsExecute
  rw [sent]

/-- Of a query that is not sent the loop never comes to an end. -/
theorem RowLoop.not_endsInTime_of_unsent
    (unsent : escquery loop.query = none) :
    ¬ loop.EndsInTime answer := by
  rintro ⟨final, finished⟩
  rw [RowLoop.run, dbmsExecute_of_unsent unsent] at finished
  have fails : Fails (⟨.prepared, [], .last, none⟩ : Query Row) :=
    Or.inl QueryState.noConfusion
  exact fails.not_finished _ final finished

/--
The loop over the rows of a query that is sent ends in time iff all rows are
delivered, or the query fails and the loop is not entered.
-/
theorem RowLoop.endsInTime_iff_of_sent
    (total : ∀ state row, loop.body state (some row) = some (next state row))
    (sent : escquery loop.query = some text) :
    loop.EndsInTime answer ↔
      (answer = .refused ∧ loop.onError = false) ∨ Complete answer := by
  unfold RowLoop.EndsInTime RowLoop.run
  cases answer with
  | refused =>
      rw [dbmsExecute_refused sent]
      dsimp only
      cases onError : loop.onError with
      | false => exact iff_of_true ⟨loop.start, rfl⟩ (Or.inl ⟨rfl, rfl⟩)
      | true =>
          apply iff_of_false
          · rintro ⟨final, finished⟩
            have fails : Fails (⟨.error, [], .last, none⟩ : Query Row) :=
              Or.inl QueryState.noConfusion
            exact fails.not_finished _ final finished
          · rintro (⟨-, entered⟩ | ⟨rows, complete⟩)
            · cases entered
            · cases complete
  | results rows ending =>
      rw [dbmsExecute_results sent]
      have ends := @run_finished_iff Row State loop.body next
        ⟨.executed, rows, ending, none⟩ loop.start total
      refine ends.trans ?_
      constructor
      · rintro ⟨-, complete⟩
        rcases complete with rfl
        exact Or.inr ⟨rows, rfl⟩
      · rintro (⟨refused, -⟩ | ⟨delivered, complete⟩)
        · cases refused
        · cases complete
          exact ⟨rfl, rfl⟩

/-- A loop ends in time iff its query is sent and one of these holds. -/
theorem RowLoop.endsInTime_iff
    (total : ∀ state row, loop.body state (some row) = some (next state row)) :
    loop.EndsInTime answer ↔
      (escquery loop.query).isSome = true ∧
        ((answer = .refused ∧ loop.onError = false) ∨ Complete answer) := by
  cases sent : escquery loop.query with
  | none =>
      apply iff_of_false (RowLoop.not_endsInTime_of_unsent sent)
      rintro ⟨isSent, -⟩
      cases isSent
  | some text =>
      rw [RowLoop.endsInTime_iff_of_sent total sent]
      exact (and_iff_right rfl).symm

/-- More steps than needed do not change where the loop ends. -/
theorem RowLoop.run_mono
    {fuel more : Nat} {final : LoopEnd State}
    (stopped : loop.run fuel answer = some final)
    (less : fuel ≤ more) :
    loop.run more answer = some final := by
  unfold RowLoop.run at stopped ⊢
  dsimp only at stopped ⊢
  split at stopped
  · next early =>
      rw [if_pos early]
      exact stopped
  · next entered =>
      rw [if_neg entered]
      exact Loop.run_mono stopped less

/-- A loop over a complete result comes to the fold of its rows. -/
theorem RowLoop.run_results
    (total : ∀ state row, loop.body state (some row) = some (next state row))
    (sent : escquery loop.query = some text) (rows : List Row) :
    loop.run (rows.length + 1) (.results rows .last) =
      some (.finished (rows.foldl next loop.start)) := by
  unfold RowLoop.run
  rw [dbmsExecute_results sent]
  exact @run_whileNext Row State loop.body next
    ⟨.executed, rows, .last, none⟩ loop.start total rfl rfl

end Ends

end Limestone.DbmsNext
