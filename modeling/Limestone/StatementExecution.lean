import Limestone.DbmsDbd
import Mathlib.Data.List.Infix

/-!
# What `dbms_execute` reports

A statement is prepared, its parameters are set by any number of calls, and it
is executed.  The success code tells that the database has accepted the
statement except when a question mark of the template never got a parameter:
then the function returns zero and has sent nothing.
-/

namespace Limestone.StatementExecution

open DbmsDbd

/--
The functions `apr_dbd_select` and `apr_dbd_query` of a database driver: the
error code and the database after a statement.  A statement that fails changes
nothing.
-/
structure Driver (Database : Type*) where
  select : Text → Database → Int × Database
  query : Text → Database → Int × Database
  selectFails : ∀ text database,
    (select text database).1 ≠ 0 → (select text database).2 = database
  queryFails : ∀ text database,
    (query text database).1 ≠ 0 → (query text database).2 = database

/-- The `state` of a query. -/
inductive QueryState where
  | prepared
  | executed
  | error
deriving DecidableEq, Repr

/-- What a call of `dbms_execute` returns and does. -/
structure Execution (Database : Type*) where
  returned : Int
  sent : List Text
  state : QueryState
  database : Database

/-- The statements that are sent with `apr_dbd_select`. -/
def isSelect (escquery : Text) : Bool :=
  (escquery.take 6).map Char.toLower == "select".toList ||
    (escquery.take 4).map Char.toLower == "with".toList ||
    decide (" RETURNING ".toList <:+: escquery)

/-- The function of the driver that a statement is sent with. -/
def Driver.send {Database : Type*} (driver : Driver Database) (text : Text)
    (database : Database) : Int × Database :=
  if isSelect text then driver.select text database
  else driver.query text database

/-- `dbms_execute`. -/
def dbmsExecute {Database : Type*} (driver : Driver Database)
    (query : DavReposQuery) (database : Database) : Execution Database :=
  match escquery query with
  -- a parameter was never set
  | none =>
      { returned := 0
        sent := []
        state := .prepared
        database := database }
  | some text =>
      let (error, after) := driver.send text database
      { returned := error
        sent := [text]
        state := if error = 0 then .executed else .error
        database := after }

/-- A call that sets a parameter; a float comes as the text of `%f`. -/
inductive SetCall where
  | int (num value : Int)
  | float (num : Int) (formatted : Text)
  | string (num : Int) (value : Option Text)
deriving DecidableEq, Repr

/-- The position of the parameter. -/
def SetCall.num : SetCall → Int
  | .int num _ => num
  | .float num _ => num
  | .string num _ => num

/-- The text that stands for the value. -/
def SetCall.literal : SetCall → Text
  | .int _ value => (toString value).toList
  | .float _ formatted => formatted
  | .string _ none => "null".toList
  | .string _ (some value) => quote :: dbmsEscape value ++ [quote]

/-- `dbms_set_float`. -/
def dbmsSetFloat (query : DavReposQuery) (num : Int) (formatted : Text) :
    Int × DavReposQuery :=
  setParameter query num formatted

/-- The call on a query, whose return value is not looked at. -/
def SetCall.apply (query : DavReposQuery) : SetCall → DavReposQuery
  | .int num value => (dbmsSetInt query num value).2
  | .float num formatted => (dbmsSetFloat query num formatted).2
  | .string num value => (dbmsSetString query num value).2

/-- The query with the parameters that the calls have set. -/
def preparedQuery (template : Text) (calls : List SetCall) : DavReposQuery :=
  calls.foldl SetCall.apply (dbmsPrepare template)

/-! ## What the success code stands for -/

/-- Every question mark is replaced by its parameter and nothing else is. -/
inductive Replaced : Text → List Text → Text → Prop where
  | done : Replaced [] [] []
  | placeholder {template sent : Text} {parameters : List Text}
      (parameter : Text) (rest : Replaced template parameters sent) :
      Replaced ('?' :: template) (parameter :: parameters) (parameter ++ sent)
  | char {template sent : Text} {parameters : List Text} {char : Char}
      (plain : char ≠ '?') (rest : Replaced template parameters sent) :
      Replaced (char :: template) parameters (char :: sent)

/-- The text set last for a place; places are counted from zero. -/
def lastSet (calls : List SetCall) (place : Nat) : Option Text :=
  ((calls.filter fun call => call.num == (place : Int) + 1).getLast?).map
    SetCall.literal

/-- The return value is zero for a statement sent once and accepted only. -/
structure ReportsWorkDone {Database : Type*} (driver : Driver Database)
    (template : Text) (calls : List SetCall) (database : Database) :
    Prop where
  success : (dbmsExecute driver (preparedQuery template calls)
      database).returned = 0 →
    ∃ parameters text,
      parameters.map some =
        (List.range (template.count '?')).map (lastSet calls) ∧
      Replaced template parameters text ∧
      (dbmsExecute driver (preparedQuery template calls) database).sent =
        [text] ∧
      (driver.send text database).1 = 0 ∧
      (dbmsExecute driver (preparedQuery template calls)
        database).database = (driver.send text database).2
  failure : (dbmsExecute driver (preparedQuery template calls)
      database).returned ≠ 0 →
    (dbmsExecute driver (preparedQuery template calls) database).database =
      database

/-! ## The parameters -/

theorem SetCall.apply_eq (query : DavReposQuery) (call : SetCall) :
    call.apply query = (setParameter query call.num call.literal).2 := by
  cases call with
  | int num value => rfl
  | float num formatted => rfl
  | string num value => cases value <;> rfl

@[simp]
theorem queryString_setParameter
    (query : DavReposQuery) (num : Int) (literal : Text) :
    (setParameter query num literal).2.queryString = query.queryString := by
  rw [setParameter]
  split <;> rfl

theorem queryString_preparedQuery (template : Text) (calls : List SetCall) :
    (preparedQuery template calls).queryString = template := by
  induction calls using List.reverseRecOn with
  | nil => rfl
  | append_singleton calls call induction =>
      rw [preparedQuery, List.foldl_append, List.foldl_cons, List.foldl_nil,
        SetCall.apply_eq, queryString_setParameter]
      exact induction

theorem lastSet_append (calls : List SetCall) (call : SetCall) (place : Nat) :
    lastSet (calls ++ [call]) place =
      if call.num = (place : Int) + 1 then some call.literal
      else lastSet calls place := by
  rw [lastSet, List.filter_append]
  by_cases same : call.num = (place : Int) + 1
  · have kept : [call].filter (fun call => call.num == (place : Int) + 1) =
        [call] :=
      List.filter_cons_of_pos (beq_iff_eq.mpr same)
    rw [if_pos same, kept, List.getLast?_append]
    rfl
  · have dropped : [call].filter (fun call => call.num == (place : Int) + 1) =
        [] :=
      List.filter_cons_of_neg fun equal => same (beq_iff_eq.mp equal)
    rw [if_neg same, dropped, List.append_nil, lastSet]

/-- The parameters are those that were set last. -/
theorem parameters_preparedQuery (template : Text) (calls : List SetCall) :
    (preparedQuery template calls).parameters =
      (List.range (template.count '?')).map (lastSet calls) := by
  induction calls using List.reverseRecOn with
  | nil =>
      show List.replicate (template.count '?') none = _
      apply List.ext_getElem
      · simp
      · intro place _ _
        simp [lastSet]
  | append_singleton calls call induction =>
      have before : (calls.foldl SetCall.apply
          (dbmsPrepare template)).parameters =
          (List.range (template.count '?')).map (lastSet calls) := induction
      rw [preparedQuery, List.foldl_append, List.foldl_cons, List.foldl_nil,
        SetCall.apply_eq, setParameter, before, List.length_map,
        List.length_range]
      by_cases outside : call.num < 1 ∨ call.num > (template.count '?' : Nat)
      · rw [if_pos outside, before]
        apply List.map_congr_left
        intro place inRange
        have less : place < template.count '?' := List.mem_range.mp inRange
        have other : call.num ≠ (place : Int) + 1 := by omega
        rw [lastSet_append, if_neg other]
      · rw [if_neg outside]
        apply List.ext_getElem
        · simp
        · intro place _ inRange
          rw [List.length_map, List.length_range] at inRange
          have same : (call.num - 1).toNat = place ↔
              call.num = (place : Int) + 1 := by
            omega
          simp only [List.getElem_set, List.getElem_map, List.getElem_range,
            lastSet_append, same]

/-! ## The text that is sent -/

/-- All parameters are there or there is no list of them. -/
theorem mapM_id_eq_some {parameters : List (Option Text)}
    {values : List Text} :
    parameters.mapM id = some values ↔ parameters = values.map some := by
  induction parameters generalizing values with
  | nil =>
      rw [List.mapM_nil]
      constructor
      · intro same
        rw [← Option.some.inj same]
        rfl
      · intro same
        rw [List.map_eq_nil_iff.mp same.symm]
        rfl
  | cons parameter parameters induction =>
      cases parameter with
      | none =>
          rw [List.mapM_cons]
          constructor
          · intro same
            cases same
          · intro same
            cases values <;> simp at same
      | some value =>
          have unfolded : (some value :: parameters).mapM id =
              (parameters.mapM id).map (value :: ·) := by
            rw [List.mapM_cons]
            cases parameters.mapM id <;> rfl
          rw [unfolded, Option.map_eq_some_iff]
          constructor
          · rintro ⟨rest, found, rfl⟩
            rw [induction.mp found]
            rfl
          · intro same
            cases values with
            | nil => cases same
            | cons first rest =>
                rcases List.cons.inj same with ⟨equal, others⟩
                rw [Option.some.inj equal]
                exact ⟨rest, induction.mpr others, rfl⟩

/-- The replacement of the question marks from left to right. -/
theorem replaced_substitute
    {template : Text} {parameters : List Text}
    (enough : parameters.length = template.count '?') :
    Replaced template parameters (substitute template parameters) := by
  induction template generalizing parameters with
  | nil =>
      rw [List.count_nil, List.length_eq_zero_iff] at enough
      rw [enough, substitute]
      exact Replaced.done
  | cons char template induction =>
      by_cases mark : char = '?'
      · subst mark
        cases parameters with
        | nil =>
            rw [List.count_cons_self] at enough
            cases enough
        | cons parameter parameters =>
            rw [List.count_cons_self, List.length_cons,
              Nat.add_right_cancel_iff] at enough
            rw [substitute, if_pos rfl]
            exact Replaced.placeholder parameter (induction enough)
      · have fewer : parameters.length = template.count '?' := by
          rw [List.count_cons_of_ne mark] at enough
          exact enough
        have rest := Replaced.char mark (induction fewer)
        cases parameters with
        | nil =>
            rw [substitute]
            exact rest
        | cons parameter parameters =>
            rw [substitute, if_neg mark]
            exact rest

/-! ## What is to hold of a statement -/

section Reports

variable {Database : Type*} (driver : Driver Database) (template : Text)
  (calls : List SetCall) (database : Database)

/-- A statement that fails leaves the database as it was. -/
theorem Driver.send_fails
    {driver : Driver Database} {text : Text} {database : Database}
    (fails : (driver.send text database).1 ≠ 0) :
    (driver.send text database).2 = database := by
  rw [Driver.send] at fails ⊢
  by_cases select : isSelect text = true
  · rw [if_pos select] at fails ⊢
    exact driver.selectFails text database fails
  · rw [if_neg select] at fails ⊢
    exact driver.queryFails text database fails

/-- A place is set iff some call names it. -/
theorem lastSet_isSome {calls : List SetCall} {place : Nat} :
    (lastSet calls place).isSome = true ↔
      ∃ call ∈ calls, call.num = (place : Int) + 1 := by
  rw [lastSet, Option.isSome_map, List.getLast?_isSome, ne_eq,
    List.filter_eq_nil_iff]
  simp only [beq_iff_eq, not_forall, not_not, exists_prop]

/-- There are values for all places iff each place has one. -/
theorem exists_values_iff {count : Nat} {value : Nat → Option Text} :
    (∃ values : List Text,
        values.map some = (List.range count).map value) ↔
      ∀ place < count, (value place).isSome = true := by
  constructor
  · rintro ⟨values, same⟩ place inside
    have member : value place ∈ (List.range count).map value :=
      List.mem_map.mpr ⟨place, List.mem_range.mpr inside, rfl⟩
    rw [← same] at member
    rcases List.mem_map.mp member with ⟨found, -, equal⟩
    rw [← equal]
    rfl
  · intro all
    refine ⟨(List.range count).map fun place => (value place).getD [], ?_⟩
    rw [List.map_map]
    apply List.map_congr_left
    intro place inside
    have isSome := all place (List.mem_range.mp inside)
    rcases Option.isSome_iff_exists.mp isSome with ⟨found, equal⟩
    rw [Function.comp_apply, equal]
    rfl

/--
The success code reports work done iff every question mark of the template is
set by one of the calls.
-/
theorem reportsWorkDone_iff :
    ReportsWorkDone driver template calls database ↔
      ∀ place < template.count '?',
        ∃ call ∈ calls, call.num = (place : Int) + 1 := by
  have places : (∀ place < template.count '?',
        ∃ call ∈ calls, call.num = (place : Int) + 1) ↔
      ∃ values : List Text, values.map some =
        (List.range (template.count '?')).map (lastSet calls) := by
    rw [exists_values_iff]
    exact forall₂_congr fun place _ => lastSet_isSome.symm
  rw [places]
  constructor
  · intro reports
    cases sent : escquery (preparedQuery template calls) with
    | none =>
        have returned : (dbmsExecute driver (preparedQuery template calls)
            database).returned = 0 := by
          rw [dbmsExecute, sent]
        rcases reports.success returned with ⟨values, -, same, -⟩
        exact ⟨values, same⟩
    | some text =>
        rcases Option.map_eq_some_iff.mp sent with ⟨values, found, -⟩
        rw [mapM_id_eq_some, parameters_preparedQuery] at found
        exact ⟨values, found.symm⟩
  · rintro ⟨values, same⟩
    have enough : values.length = template.count '?' := by
      have lengths := congrArg List.length same
      rwa [List.length_map, List.length_map, List.length_range] at lengths
    have sent : escquery (preparedQuery template calls) =
        some (substitute template values) := by
      rw [escquery, queryString_preparedQuery, parameters_preparedQuery,
        mapM_id_eq_some.mpr same.symm]
      rfl
    constructor
    · intro returned
      rw [dbmsExecute, sent] at returned ⊢
      exact ⟨values, substitute template values, same,
        replaced_substitute enough, rfl, returned, rfl⟩
    · intro returned
      rw [dbmsExecute, sent] at returned ⊢
      exact Driver.send_fails returned

end Reports

/-- A database that counts the statements it has accepted; it accepts all. -/
def counting : Driver Nat where
  select := fun _ database => (0, database)
  query := fun _ database => (0, database + 1)
  selectFails := fun _ _ _ => rfl
  queryFails := fun _ _ fails => (fails rfl).elim

/-- `DELETE FROM resources WHERE id=?` without its id reports success. -/
theorem execute_not_reportsWorkDone :
    ¬ ReportsWorkDone counting "DELETE FROM resources WHERE id=?".toList []
      0 := by
  intro reports
  have returned : (dbmsExecute counting
      (preparedQuery "DELETE FROM resources WHERE id=?".toList [])
      0).returned = 0 := by
    decide
  have unsent : (dbmsExecute counting
      (preparedQuery "DELETE FROM resources WHERE id=?".toList [])
      0).sent = [] := by
    decide
  rcases reports.success returned with ⟨_, text, -, -, sent, -⟩
  rw [unsent] at sent
  cases sent

end Limestone.StatementExecution
