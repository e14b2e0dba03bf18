import Limestone.BulkBinds
import Limestone.DbmsProperties
import Limestone.Library.SqlUpdate
import Limestone.RedirectTarget
import Limestone.Search

/-!
# Redirect references: `dbms_update_redirectref`

The new target and lifetime are put into the text of the statement, the time
and the id are parameters.  A question mark of the target becomes a parameter
that is never set.
-/

namespace Limestone.RedirectUpdate

open Library
open Library.SqlInsert
open Library.SqlUpdate
open DbmsBind
open DbmsDbd
open DbmsProperties (IsCut varchar varchar_cases)
open BindInsert (TimeText)
open BridgeProperty
open Search (pstrcat)

/-- `lifetime_to_s`; no lifetime is zero. -/
def lifetimeToS : Option RedirectLifetime → Option Text
  | some .temporary => some "t".toList
  | some .permanent => some "p".toList
  | none => none

/-! ## The statement -/

/-- The text that is prepared. -/
def updateQuery (reftarget : Option Text) (t : Option RedirectLifetime) :
    Text :=
  let lifetime := lifetimeToS t
  let query := "UPDATE redirectrefs SET ".toList
  let query :=
    match reftarget with
    | some reftarget =>
        let query := pstrcat
          [query, "reftarget = '".toList, dbmsEscape reftarget, "'".toList]
        match lifetime with
        | some lifetime =>
            pstrcat [query, ", lifetime = '".toList, lifetime, "'".toList]
        | none => query
    | none => pstrcat [query, "lifetime = '".toList, lifetime, "'".toList]
  pstrcat [query, ", updated_at = ? WHERE resource_id = ?".toList]

/-! ## The database -/

/-- The value of a column in a row; the time is not kept. -/
def assign (row : Redirectref) : Text × SqlValue → Option Redirectref
  | (column, .text value) =>
      if column = "reftarget".toList then
        (varchar 255 value).map fun value => { row with reftarget := value }
      else if column = "lifetime".toList then
        (varchar 1 value).map fun value => { row with lifetime := value }
      else if column = "updated_at".toList then some row
      else none
  | (_, .number _) => none

/-- The execution of a text as an `UPDATE` of `redirectrefs`. -/
def executeText (redirectrefs : List Redirectref) (text : Text) :
    Option (List Redirectref) :=
  (parseUpdate false text).bind fun statement =>
    if statement.table = "redirectrefs".toList ∧
        statement.column = "resource_id".toList then
      redirectrefs.mapM fun row =>
        if statement.value = .number row.resourceId then
          statement.assignments.foldlM assign row
        else some row
    else none

/-- `dbms_update_redirectref`. -/
def dbmsUpdateRedirectref (databaseFails : Bool)
    (redirectrefs : List Redirectref) (now : TimeText) (serialno : Id)
    (reftarget : Option Text) (t : Option RedirectLifetime) :
    List Redirectref × Option DavError :=
  let q := dbmsPrepare (updateQuery reftarget t)
  let q := (dbmsSetString q 1 (some now.text)).2
  let q := (dbmsSetInt q 2 serialno).2
  match escquery q with
  | none => (redirectrefs, none)
  | some text =>
      match if databaseFails then none else executeText redirectrefs text with
      | none =>
          (redirectrefs, some ⟨httpInternalServerError,
            "DBMS error in while updating 'redirectrefs'"⟩)
      | some redirectrefs => (redirectrefs, none)

/-! ## The text that is sent -/

variable {databaseFails : Bool} {reftarget : Option Text}
  {t : Option RedirectLifetime} {now : TimeText} {serialno : Id}
  {row : Redirectref} {redirectrefs : List Redirectref}

/-- The target holds the character that stands for a parameter. -/
def IsMarked (reftarget : Option Text) : Prop :=
  ∃ target, reftarget = some target ∧ '?' ∈ target

/-- The assignments of the statement, before the one of the time. -/
def givenAssignments (reftarget : Option Text) (t : Option RedirectLifetime) :
    List (Text × SqlValue) :=
  (reftarget.map fun value => ("reftarget".toList, .text value)).toList ++
    ((lifetimeToS t).map fun value => ("lifetime".toList, .text value)).toList

/-- The statement that is meant. -/
def meantUpdate (now : TimeText) (serialno : Id) (reftarget : Option Text)
    (t : Option RedirectLifetime) : Update where
  table := "redirectrefs".toList
  assignments := givenAssignments reftarget t ++
    [("updated_at".toList, .text now.text)]
  column := "resource_id".toList
  value := .number serialno

/-- The text before the first parameter. -/
def queryFront (reftarget : Option Text) (t : Option RedirectLifetime) :
    Text :=
  wordText "UPDATE".toList ++ wordText "redirectrefs".toList ++
    wordText "SET".toList ++
    ((givenAssignments reftarget t).flatMap fun assignment =>
      equationText false assignment ++ [',', ' ']) ++
    wordText "updated_at".toList ++ ['=', ' ']

/-- The text between the parameters. -/
def queryMiddle : Text :=
  ' ' :: (wordText "WHERE".toList ++
    (wordText "resource_id".toList ++ ['=', ' ']))

theorem updateQuery_eq (given : reftarget ≠ none ∨ t ≠ none) :
    updateQuery reftarget t =
      queryFront reftarget t ++ '?' :: (queryMiddle ++ ['?']) := by
  cases reftarget with
  | none =>
      cases t with
      | none => exact (given.elim (· rfl) (· rfl)).elim
      | some lifetime =>
          cases lifetime with
          | permanent => decide +kernel
          | temporary => decide +kernel
  | some target =>
      have escaped := BulkBinds.dbmsEscape_eq_escape target
      cases t with
      | none =>
          simp [updateQuery, queryFront, queryMiddle, pstrcat, lifetimeToS,
            givenAssignments, equationText, wordText, valueText, escaped]
      | some lifetime =>
          cases lifetime with
          | permanent =>
              simp [updateQuery, queryFront, queryMiddle, pstrcat, lifetimeToS,
                givenAssignments, equationText, wordText, valueText, escaped,
                escape]
          | temporary =>
              simp [updateQuery, queryFront, queryMiddle, pstrcat, lifetimeToS,
                givenAssignments, equationText, wordText, valueText, escaped,
                escape]

/-- Neither the names of the columns nor a lifetime hold a question mark. -/
theorem mem_queryFront :
    '?' ∈ queryFront reftarget t ↔ IsMarked reftarget := by
  have lifetime : ∀ value, lifetimeToS t = some value →
      '?' ∉ escape false value := by
    intro value known
    rw [← BulkBinds.dbmsEscape_eq_escape, mem_dbmsEscape]
    cases t with
    | none => cases known
    | some lifetime =>
        cases lifetime with
        | permanent =>
            cases known
            decide
        | temporary =>
            cases known
            decide
  cases reftarget with
  | none =>
      cases known : lifetimeToS t with
      | none =>
          simp [queryFront, givenAssignments, known, wordText, IsMarked]
      | some value =>
          simp [queryFront, givenAssignments, known, wordText, IsMarked,
            equationText, valueText, lifetime value known]
  | some target =>
      have escaped : '?' ∈ escape false target ↔ '?' ∈ target := by
        rw [← BulkBinds.dbmsEscape_eq_escape, mem_dbmsEscape]
      cases known : lifetimeToS t with
      | none =>
          simp [queryFront, givenAssignments, known, wordText, IsMarked,
            equationText, valueText, escaped]
      | some value =>
          simp [queryFront, givenAssignments, known, wordText, IsMarked,
            equationText, valueText, lifetime value known, escaped]

/-- Assignments before a last one, each with a comma and a blank. -/
theorem assignmentsText_append
    (assignments : List (Text × SqlValue)) (last : Text × SqlValue) :
    assignmentsText false (assignments ++ [last]) =
      (assignments.flatMap fun assignment =>
        equationText false assignment ++ [',', ' ']) ++
          equationText false last := by
  induction assignments with
  | nil => rfl
  | cons assignment assignments induction =>
      have further : assignmentsText false
          (assignment :: (assignments ++ [last])) =
            equationText false assignment ++ [','] ++ [' '] ++
              assignmentsText false (assignments ++ [last]) := by
        cases assignments with
        | nil => rfl
        | cons next assignments => rfl
      rw [List.cons_append, further, induction, List.flatMap_cons]
      simp

/-- The text with its parameters is the one of the statement that is meant. -/
theorem queryFront_append :
    queryFront reftarget t ++
        ((quote :: dbmsEscape now.text ++ [quote]) ++
          (queryMiddle ++ (toString serialno).toList)) =
      updateText false (meantUpdate now serialno reftarget t) := by
  have assigned : assignmentsText false
      (meantUpdate now serialno reftarget t).assignments = _ :=
    assignmentsText_append (givenAssignments reftarget t)
      ("updated_at".toList, .text now.text)
  rw [updateText, assigned, BulkBinds.dbmsEscape_eq_escape]
  simp only [queryFront, queryMiddle, equationText, valueText, quote,
    List.append_assoc, List.cons_append, List.nil_append]
  rfl

theorem isPlain_meantUpdate :
    (meantUpdate now serialno reftarget t).IsPlain where
  table := by
    show IsName "redirectrefs".toList
    decide
  nonempty := List.append_ne_nil_of_right_ne_nil _ (List.cons_ne_nil _ _)
  assigned := by
    have named : ∀ assignment ∈ givenAssignments reftarget t,
        assignment.1 ∈ ["reftarget".toList, "lifetime".toList] := by
      intro assignment member
      rcases List.mem_append.mp member with target | lifetime
      · simp only [Option.mem_toList, Option.map_eq_some_iff] at target
        rcases target with ⟨value, -, rfl⟩
        exact List.mem_cons_self
      · simp only [Option.mem_toList, Option.map_eq_some_iff] at lifetime
        rcases lifetime with ⟨value, -, rfl⟩
        exact List.mem_cons_of_mem _ List.mem_cons_self
    have columns : ∀ name ∈ ["reftarget".toList, "lifetime".toList],
        IsName name := by
      decide
    intro assignment member
    rcases List.mem_append.mp member with given | time
    · exact columns _ (named assignment given)
    · rcases List.mem_singleton.mp time with rfl
      show IsName "updated_at".toList
      decide
  column := by
    show IsName "resource_id".toList
    decide

/-- The statement is sent unless the target has a question mark. -/
theorem escquery_updateQuery (given : reftarget ≠ none ∨ t ≠ none) :
    escquery (dbmsSetInt (dbmsSetString (dbmsPrepare
        (updateQuery reftarget t)) 1 (some now.text)).2 2 serialno).2 =
      if '?' ∈ queryFront reftarget t then none
      else some (updateText false (meantUpdate now serialno reftarget t)) := by
  rw [updateQuery_eq given, ← queryFront_append]
  exact escquery_setParameter_two _ _ (by decide)

/-! ## The rows -/

/-- What the column takes of the target. -/
def storedTarget : Option Text → Option (Option Text)
  | none => some none
  | some target => (varchar 255 target).map some

/-- A row with the values that are given. -/
def newRow (reftarget : Option Text) (t : Option RedirectLifetime)
    (row : Redirectref) : Redirectref :=
  { row with
    reftarget := reftarget.getD row.reftarget
    lifetime := (lifetimeToS t).getD row.lifetime }

/-- The row of the resource is replaced. -/
def replaced (serialno : Id) (reftarget : Option Text)
    (t : Option RedirectLifetime) (redirectrefs : List Redirectref) :
    List Redirectref :=
  redirectrefs.map fun row =>
    if row.resourceId = serialno then newRow reftarget t row else row

theorem foldlM_assign :
    (meantUpdate now serialno reftarget t).assignments.foldlM assign row =
      (storedTarget reftarget).map fun value => newRow value t row := by
  have time : ∀ row : Redirectref,
      [("updated_at".toList, SqlValue.text now.text)].foldlM assign row =
        some row := by
    intro row
    rfl
  have lifetime : ∀ row : Redirectref,
      (((lifetimeToS t).map fun value =>
        (("lifetime".toList, .text value) : Text × SqlValue)).toList ++
          [("updated_at".toList, SqlValue.text now.text)]).foldlM assign row =
        some (newRow none t row) := by
    intro row
    rcases t with _ | _ | _
    · exact time row
    · rfl
    · rfl
  show (givenAssignments reftarget t ++ _).foldlM assign row = _
  cases reftarget with
  | none => exact lifetime row
  | some target =>
      show (assign row ("reftarget".toList, .text target)).bind _ = _
      show ((varchar 255 target).map _).bind _ = ((varchar 255 target).map
        some).map _
      cases varchar 255 target with
      | none => rfl
      | some value => exact lifetime { row with reftarget := value }

theorem executeText_updateText
    (stored : row ∈ redirectrefs)
    (same : row.resourceId = serialno) :
    executeText redirectrefs
        (updateText false (meantUpdate now serialno reftarget t)) =
      (storedTarget reftarget).map fun value =>
        replaced serialno value t redirectrefs := by
  have changes : ∀ row : Redirectref,
      (if (meantUpdate now serialno reftarget t).value =
          .number row.resourceId then
        (meantUpdate now serialno reftarget t).assignments.foldlM assign row
      else some row) =
        if row.resourceId = serialno then
          (storedTarget reftarget).map fun value => newRow value t row
        else some row := by
    intro row
    rw [foldlM_assign]
    show (if SqlValue.number serialno = .number row.resourceId then _
      else _) = _
    by_cases here : row.resourceId = serialno
    · rw [if_pos here, if_pos (congrArg SqlValue.number here.symm)]
    · rw [if_neg here, if_neg]
      intro there
      exact here (SqlValue.number.inj there).symm
  rw [executeText, parseUpdate_updateText isPlain_meantUpdate,
    Option.bind_some, if_pos ⟨rfl, rfl⟩]
  simp only [changes]
  cases taken : storedTarget reftarget with
  | none =>
      apply Sql.mapM_eq_none stored
      rw [if_pos same]
      rfl
  | some value =>
      have pures : (fun row : Redirectref =>
          if row.resourceId = serialno then
            (some value).map fun value => newRow value t row
          else some row) = fun row =>
            some (if row.resourceId = serialno then newRow value t row
              else row) := by
        funext row
        split
        · rfl
        · rfl
      rw [pures]
      exact Sql.mapM_eq_some fun _ _ => rfl

/-! ## What an update does -/

theorem isMarked_some {target : Text} :
    IsMarked (some target) ↔ '?' ∈ target := by
  constructor
  · rintro ⟨_, same, mark⟩
    rcases Option.some.inj same with rfl
    exact mark
  · intro mark
    exact ⟨target, rfl, mark⟩

/-- A marked target is a success that leaves the rows as they are. -/
theorem dbmsUpdateRedirectref_of_marked
    (given : reftarget ≠ none ∨ t ≠ none)
    (marked : IsMarked reftarget) :
    dbmsUpdateRedirectref databaseFails redirectrefs now serialno reftarget t =
      (redirectrefs, none) := by
  rw [dbmsUpdateRedirectref, escquery_updateQuery given,
    if_pos (mem_queryFront.mpr marked)]

theorem dbmsUpdateRedirectref_of_unmarked
    (given : reftarget ≠ none ∨ t ≠ none)
    (unmarked : ¬ IsMarked reftarget)
    (stored : row ∈ redirectrefs)
    (same : row.resourceId = serialno) :
    dbmsUpdateRedirectref databaseFails redirectrefs now serialno reftarget t =
      match if databaseFails then none else storedTarget reftarget with
      | none =>
          (redirectrefs, some ⟨httpInternalServerError,
            "DBMS error in while updating 'redirectrefs'"⟩)
      | some value => (replaced serialno value t redirectrefs, none) := by
  rw [dbmsUpdateRedirectref, escquery_updateQuery given,
    if_neg (mt mem_queryFront.mp unmarked)]
  simp only [executeText_updateText stored same]
  cases databaseFails with
  | true => rfl
  | false =>
      cases taken : storedTarget reftarget with
      | none => rfl
      | some value => rfl

/-! ## Reading a redirect -/

/-- A fresh record after `dbms_get_redirect_props`. -/
def readRedirect (tables : PropertyTables)
    (redirectrefs : List Redirectref) (serialno : Id) :
    DavReposResource × Option DavError :=
  dbmsGetRedirectProps false { tables with redirectrefs := redirectrefs }
    { serialno := serialno }

/-- The lifetime that a row is read with. -/
def readLifetime (row : Redirectref) : RedirectLifetime :=
  if row.lifetime = "p".toList then .permanent else .temporary

variable {tables : PropertyTables}

theorem readRedirect_eq
    (found : redirectrefs.find? (fun row => row.resourceId == serialno) =
      some row) :
    (readRedirect tables redirectrefs serialno).2 = none ∧
      (readRedirect tables redirectrefs serialno).1.reftarget =
        some row.reftarget ∧
      (readRedirect tables redirectrefs serialno).1.redirectLifetime =
        some (readLifetime row) := by
  have unread : ¬ (({ serialno := serialno } :
      DavReposResource).redirectLifetime.isSome ∧
        ({ serialno := serialno } : DavReposResource).reftarget.isSome) := by
    rintro ⟨never, -⟩
    cases never
  have lifetime : (if row.lifetime = "p".toList then
      some RedirectLifetime.permanent else some .temporary) =
        some (readLifetime row) := by
    unfold readLifetime
    split
    · rfl
    · rfl
  have read : readRedirect tables redirectrefs serialno =
      ({ serialno := serialno
         redirectLifetime := some (readLifetime row)
         reftarget := some row.reftarget }, none) := by
    rw [readRedirect, dbmsGetRedirectProps, if_neg unread, ← lifetime]
    simp only [Bool.false_eq_true, if_false, found]
  rw [read]
  exact ⟨rfl, rfl, rfl⟩

/--
The redirect is read with the new values where they were given and with the
old ones otherwise, and no other row has changed.
-/
structure Updates (tables : PropertyTables) (serialno : Id)
    (reftarget : Option Text) (t : Option RedirectLifetime)
    (after : List Redirectref) : Prop where
  readable : (readRedirect tables after serialno).2 = none
  reftarget : (readRedirect tables after serialno).1.reftarget =
    reftarget.or (readRedirect tables tables.redirectrefs serialno).1.reftarget
  lifetime : (readRedirect tables after serialno).1.redirectLifetime =
    t.or (readRedirect tables tables.redirectrefs serialno).1.redirectLifetime
  others : after.filter (fun row => row.resourceId != serialno) =
    tables.redirectrefs.filter fun row => row.resourceId != serialno

theorem find?_replaced
    (found : redirectrefs.find? (fun row => row.resourceId == serialno) =
      some row) :
    (replaced serialno reftarget t redirectrefs).find?
        (fun row => row.resourceId == serialno) =
      some (newRow reftarget t row) := by
  have ids : ((fun row : Redirectref => row.resourceId == serialno) ∘
      fun row => if row.resourceId = serialno then newRow reftarget t row
        else row) = fun row => row.resourceId == serialno := by
    funext row
    rw [Function.comp_apply]
    split
    · rfl
    · rfl
  have met : (row.resourceId == serialno) = true :=
    @List.find?_some _ (fun row : Redirectref => row.resourceId == serialno)
      _ _ found
  have here : row.resourceId = serialno := beq_iff_eq.mp met
  rw [replaced, List.find?_map, ids, found]
  exact congrArg some (if_pos here)

theorem filter_replaced :
    (replaced serialno reftarget t redirectrefs).filter
        (fun row => row.resourceId != serialno) =
      redirectrefs.filter fun row => row.resourceId != serialno := by
  induction redirectrefs with
  | nil => rfl
  | cons row redirectrefs induction =>
      rw [replaced, List.map_cons]
      by_cases here : row.resourceId = serialno
      · have changed : (newRow reftarget t row).resourceId = serialno := here
        rw [if_pos here, List.filter_cons_of_neg (by simp [changed]),
          List.filter_cons_of_neg (by simp [here])]
        exact induction
      · rw [if_neg here, List.filter_cons_of_pos (by simp [here]),
          List.filter_cons_of_pos (by simp [here])]
        exact congrArg (row :: ·) induction

theorem readLifetime_newRow :
    some (readLifetime (newRow reftarget t row)) =
      t.or (some (readLifetime row)) := by
  rcases t with _ | _ | _
  · rfl
  · rfl
  · rfl

/-- The rows in which the values that are given replace the old ones. -/
theorem updates_replaced
    (found : tables.redirectrefs.find?
      (fun row => row.resourceId == serialno) = some row) :
    Updates tables serialno reftarget t
      (replaced serialno reftarget t tables.redirectrefs) := by
  rcases @readRedirect_eq serialno row tables.redirectrefs tables found with
    ⟨-, oldTarget, oldLifetime⟩
  have replacedRow := @find?_replaced reftarget t serialno row _ found
  rcases @readRedirect_eq serialno _ _ tables replacedRow with
    ⟨readable, newTarget, newLifetime⟩
  refine ⟨readable, ?_, ?_, filter_replaced⟩
  · rw [newTarget, oldTarget]
    cases reftarget with
    | none => rfl
    | some target => rfl
  · rw [newLifetime, oldLifetime, readLifetime_newRow]

/-- The row has the values that are given. -/
def HasAlready (row : Redirectref) (target : Text)
    (t : Option RedirectLifetime) : Prop :=
  row.reftarget = target ∧ ∀ lifetime, t = some lifetime →
    readLifetime row = lifetime

/--
A target with a question mark is there already; another one is not cut, or
its statement fails.
-/
def Takes (databaseFails : Bool) (row : Redirectref)
    (reftarget : Option Text) (t : Option RedirectLifetime) : Prop :=
  ∀ target, reftarget = some target →
    if '?' ∈ target then HasAlready row target t
    else databaseFails = true ∨ ¬ IsCut 255 target

/-- Rows that stay as they are have the new values iff they had them. -/
theorem updates_self_iff {target : Text}
    (found : tables.redirectrefs.find?
      (fun row => row.resourceId == serialno) = some row) :
    Updates tables serialno (some target) t tables.redirectrefs ↔
      HasAlready row target t := by
  rcases @readRedirect_eq serialno row tables.redirectrefs tables found with
    ⟨readable, oldTarget, oldLifetime⟩
  constructor
  · intro updates
    have newTarget := updates.reftarget
    have newLifetime := updates.lifetime
    rw [oldTarget, Option.some_or] at newTarget
    rw [oldLifetime] at newLifetime
    refine ⟨Option.some.inj newTarget, ?_⟩
    rintro lifetime rfl
    exact Option.some.inj newLifetime
  · rintro ⟨sameTarget, sameLifetime⟩
    refine ⟨readable, ?_, ?_, rfl⟩
    · rw [oldTarget, sameTarget]
      rfl
    · rw [oldLifetime]
      cases t with
      | none => rfl
      | some lifetime => rw [sameLifetime lifetime rfl, Option.some_or]

/-- A target that was cut is not the one that is read. -/
theorem not_updates_of_cut {target value : Text}
    (found : tables.redirectrefs.find?
      (fun row => row.resourceId == serialno) = some row)
    (other : value ≠ target) :
    ¬ Updates tables serialno (some target) t
      (replaced serialno (some value) t tables.redirectrefs) := by
  intro updates
  have replacedRow := @find?_replaced (some value) t serialno row _ found
  rcases @readRedirect_eq serialno _ _ tables replacedRow with
    ⟨-, newTarget, -⟩
  have same := updates.reftarget
  rw [newTarget, Option.some_or] at same
  exact other (Option.some.inj same)

/--
A successful update is read back, and changes no other redirect, iff its
target has no question mark and is not cut, or has one and was there before.
-/
theorem dbmsUpdateRedirectref_updates_iff
    (tables : PropertyTables) (databaseFails : Bool) (now : TimeText)
    (serialno : Id) (reftarget : Option Text) (t : Option RedirectLifetime)
    (row : Redirectref)
    (found : tables.redirectrefs.find?
      (fun row => row.resourceId == serialno) = some row)
    (given : reftarget ≠ none ∨ t ≠ none) :
    ((dbmsUpdateRedirectref databaseFails tables.redirectrefs now serialno
        reftarget t).2 = none →
      Updates tables serialno reftarget t
        (dbmsUpdateRedirectref databaseFails tables.redirectrefs now serialno
          reftarget t).1) ↔
      Takes databaseFails row reftarget t := by
  have met : (row.resourceId == serialno) = true :=
    @List.find?_some _ (fun row : Redirectref => row.resourceId == serialno)
      _ _ found
  have here : row.resourceId = serialno := beq_iff_eq.mp met
  have stored : row ∈ tables.redirectrefs := List.mem_of_find?_eq_some found
  by_cases marked : IsMarked reftarget
  · rw [dbmsUpdateRedirectref_of_marked given marked]
    rcases marked with ⟨target, rfl, mark⟩
    have taken : Takes databaseFails row (some target) t ↔
        HasAlready row target t := by
      constructor
      · intro takes
        have known := takes target rfl
        rw [if_pos mark] at known
        exact known
      · rintro already _ same
        rcases Option.some.inj same with rfl
        rw [if_pos mark]
        exact already
    rw [taken, ← updates_self_iff found]
    exact ⟨fun updates => updates rfl, fun updates _ => updates⟩
  · rw [dbmsUpdateRedirectref_of_unmarked given marked stored here]
    cases databaseFails with
    | true =>
        refine ⟨fun _ target same => ?_, fun _ never => by cases never⟩
        rw [if_neg (fun mark => marked ⟨target, same, mark⟩)]
        exact Or.inl rfl
    | false =>
        cases reftarget with
        | none =>
            exact ⟨fun _ _ never => (by cases never),
              fun _ _ => updates_replaced found⟩
        | some target =>
            have unmarked : '?' ∉ target := mt isMarked_some.mpr marked
            have taken : Takes false row (some target) t ↔ ¬ IsCut 255 target := by
              constructor
              · intro takes cut
                have known := takes target rfl
                rw [if_neg unmarked] at known
                exact (known.resolve_left Bool.false_ne_true) cut
              · rintro whole _ same
                rcases Option.some.inj same with rfl
                rw [if_neg unmarked]
                exact Or.inr whole
            rw [taken]
            simp only [Bool.false_eq_true, if_false, storedTarget]
            rcases varchar_cases 255 target with ⟨fits, whole⟩ |
              ⟨refused, whole⟩ | ⟨value, cutTo, -, other, cut⟩
            · rw [fits]
              exact ⟨fun _ => whole, fun _ _ => updates_replaced found⟩
            · rw [refused]
              exact ⟨fun _ => whole, fun _ never => by cases never⟩
            · rw [cutTo]
              constructor
              · intro updates
                exact (not_updates_of_cut found other (updates rfl)).elim
              · intro whole
                exact (whole cut).elim

open RedirectTarget (movedPages)
open BulkBinds (rootTime)

theorem find?_movedPages :
    movedPages.redirectrefs.find? (fun row => row.resourceId == 9) =
      some ⟨9, "t".toList, "/new".toList⟩ :=
  rfl

theorem dbmsUpdateRedirectref_updates_example :
    ((dbmsUpdateRedirectref false movedPages.redirectrefs rootTime 9
        (some "/it's".toList) (some .permanent)).2 = none →
      Updates movedPages 9 (some "/it's".toList) (some .permanent)
        (dbmsUpdateRedirectref false movedPages.redirectrefs rootTime 9
          (some "/it's".toList) (some .permanent)).1) ↔
      Takes false ⟨9, "t".toList, "/new".toList⟩ (some "/it's".toList)
        (some .permanent) :=
  dbmsUpdateRedirectref_updates_iff movedPages false rootTime 9
    (some "/it's".toList) (some .permanent) ⟨9, "t".toList, "/new".toList⟩
    find?_movedPages (Or.inl (Option.some_ne_none _))

/-- A target with a query part is reported as set and is not. -/
theorem not_dbmsUpdateRedirectref_updates :
    ¬ ∀ (tables : PropertyTables) (databaseFails : Bool) (now : TimeText)
        (serialno : Id) (reftarget : Option Text)
        (t : Option RedirectLifetime),
      (∃ row ∈ tables.redirectrefs, row.resourceId = serialno) →
      reftarget ≠ none ∨ t ≠ none →
      (dbmsUpdateRedirectref databaseFails tables.redirectrefs now serialno
        reftarget t).2 = none →
      Updates tables serialno reftarget t
        (dbmsUpdateRedirectref databaseFails tables.redirectrefs now serialno
          reftarget t).1 := by
  intro updates
  have given : some "/a?b".toList ≠ none ∨
      (none : Option RedirectLifetime) ≠ none :=
    Or.inl (Option.some_ne_none _)
  have marked : IsMarked (some "/a?b".toList) :=
    ⟨"/a?b".toList, rfl, by decide⟩
  have unchanged := @dbmsUpdateRedirectref_of_marked false _ _ rootTime 9
    movedPages.redirectrefs given marked
  have claimed := updates movedPages false rootTime 9 (some "/a?b".toList)
    none ⟨_, List.mem_cons_self, rfl⟩ given
  rw [unchanged, updates_self_iff find?_movedPages] at claimed
  exact absurd (claimed rfl).1 (by decide)

end Limestone.RedirectUpdate
