import Limestone.Schema

/-!
# Statements with placeholders: `dbms_dbd.c`

A statement is a text in which every question mark stands for a parameter,
also one inside a quoted literal.  A statement with a parameter that was never
set is not sent, and `dbms_execute` reports success all the same.
-/

namespace Limestone.DbmsDbd

/-- `dav_repos_query` before it is executed. -/
structure DavReposQuery where
  queryString : Text
  /-- One entry for each question mark; `none` is NULL. -/
  parameters : List (Option Text)
deriving DecidableEq, Repr

/-- `dbms_prepare`. -/
def dbmsPrepare (query : Text) : DavReposQuery where
  queryString := query
  parameters := List.replicate (query.count '?') none

/-- The quote of SQL literals. -/
def quote : Char := '\x27'

/-- `dbms_escape`: a quote is doubled, standard-conforming strings assumed. -/
def dbmsEscape (string : Text) : Text :=
  string.flatMap fun char => if char = quote then [quote, quote] else [char]

/-- The value of the characters between the quotes of a literal. -/
def readLiteral : Text → Text
  | [] => []
  | [char] => [char]
  | first :: second :: rest =>
      if first = quote ∧ second = quote then first :: readLiteral rest
      else first :: readLiteral (second :: rest)

/-- A position outside the parameters is refused. -/
def setParameter (query : DavReposQuery) (num : Int) (literal : Text) :
    Int × DavReposQuery :=
  if num < 1 ∨ num > query.parameters.length then (-1, query)
  else
    (0, { query with
      parameters := query.parameters.set (num - 1).toNat (some literal) })

/-- `dbms_set_int`. -/
def dbmsSetInt (query : DavReposQuery) (num value : Int) :
    Int × DavReposQuery :=
  setParameter query num (toString value).toList

/-- `dbms_set_string`; a NULL value is the SQL null. -/
def dbmsSetString (query : DavReposQuery) (num : Int) :
    Option Text → Int × DavReposQuery
  | none => setParameter query num "null".toList
  | some value =>
      setParameter query num (quote :: dbmsEscape value ++ [quote])

/-- The text with its question marks replaced from left to right. -/
def substitute : Text → List Text → Text
  | [], _ => []
  | char :: text, [] => char :: substitute text []
  | char :: text, parameter :: parameters =>
      if char = '?' then parameter ++ substitute text parameters
      else char :: substitute text (parameter :: parameters)

/-- The text `dbms_execute` sends, unless a parameter was never set. -/
def escquery (query : DavReposQuery) : Option Text :=
  (query.parameters.mapM id).map (substitute query.queryString)

theorem substitute_nil (text : Text) : substitute text [] = text := by
  induction text with
  | nil => rfl
  | cons char text induction => rw [substitute, induction]

theorem substitute_append {text : Text} (rest : Text)
    (parameters : List Text) (plain : '?' ∉ text) :
    substitute (text ++ rest) parameters =
      text ++ substitute rest parameters := by
  induction text with
  | nil => rfl
  | cons char text induction =>
      rw [List.mem_cons, not_or] at plain
      cases parameters with
      | nil => rw [substitute_nil, substitute_nil]
      | cons parameter parameters =>
          rw [List.cons_append, substitute, if_neg (Ne.symm plain.1),
            induction plain.2]
          rfl

/-- A statement that was prepared only is sent iff it has no question mark. -/
theorem escquery_dbmsPrepare (query : Text) :
    escquery (dbmsPrepare query) =
      if '?' ∈ query then none else some query := by
  by_cases placeholder : '?' ∈ query
  · have positive := List.count_pos_iff.mpr placeholder
    rcases Nat.exists_eq_add_one_of_ne_zero (Nat.ne_of_gt positive) with
      ⟨more, count⟩
    rw [if_pos placeholder, escquery, dbmsPrepare, count,
      List.replicate_succ, List.mapM_cons]
    rfl
  · rw [if_neg placeholder, escquery, dbmsPrepare,
      List.count_eq_zero.mpr placeholder, List.replicate_zero, List.mapM_nil]
    exact congrArg some (substitute_nil query)

/-- A statement whose first parameter is set is sent iff it has no other. -/
theorem escquery_setParameter (query literal : Text) {more : Nat}
    (count : query.count '?' = more + 1) :
    (escquery (setParameter (dbmsPrepare query) 1 literal).2).isSome =
      decide (more = 0) := by
  have parameters : (setParameter (dbmsPrepare query) 1 literal).2.parameters =
      some literal :: List.replicate more none := by
    have inside : ¬ ((1 : Int) < 1 ∨
        (1 : Int) > (dbmsPrepare query).parameters.length) := by
      rw [dbmsPrepare, List.length_replicate, count]
      omega
    rw [setParameter, if_neg inside, dbmsPrepare, count]
    rfl
  rw [escquery, parameters, List.mapM_cons]
  cases more with
  | zero => rfl
  | succ more =>
      rw [List.replicate_succ, List.mapM_cons]
      rfl

/--
A statement whose first two parameters are set is sent iff nothing before
them is a question mark.
-/
theorem escquery_setParameter_two
    {front middle : Text} (literal other : Text)
    (plain : '?' ∉ middle) :
    escquery (setParameter (setParameter
        (dbmsPrepare (front ++ '?' :: (middle ++ ['?']))) 1 literal).2 2
          other).2 =
      if '?' ∈ front then none
      else some (front ++ (literal ++ (middle ++ other))) := by
  have count : (front ++ '?' :: (middle ++ ['?'])).count '?' =
      front.count '?' + 2 := by
    rw [List.count_append, List.count_cons_self, List.count_append,
      List.count_eq_zero.mpr plain, List.count_singleton_self]
  have parameters : (setParameter (setParameter
      (dbmsPrepare (front ++ '?' :: (middle ++ ['?']))) 1 literal).2 2
        other).2 =
      ⟨front ++ '?' :: (middle ++ ['?']),
        some literal :: some other ::
          List.replicate (front.count '?') none⟩ := by
    have inside : ∀ num : Int, 1 ≤ num → num ≤ 2 →
        ¬ (num < 1 ∨ num > ((front.count '?' + 2 : Nat) : Int)) := by
      intro num least most
      omega
    have first : setParameter (dbmsPrepare
        (front ++ '?' :: (middle ++ ['?']))) 1 literal =
        (0, ⟨front ++ '?' :: (middle ++ ['?']),
          some literal :: none :: List.replicate (front.count '?') none⟩) := by
      rw [setParameter, dbmsPrepare, count, List.length_replicate,
        if_neg (inside 1 (by decide) (by decide))]
      rfl
    rw [first, setParameter, List.length_cons, List.length_cons,
      List.length_replicate, if_neg (inside 2 (by decide) (by decide))]
    rfl
  rw [escquery, parameters, List.mapM_cons, List.mapM_cons]
  by_cases marked : '?' ∈ front
  · have positive := List.count_pos_iff.mpr marked
    rcases Nat.exists_eq_add_one_of_ne_zero (Nat.ne_of_gt positive) with
      ⟨more, rest⟩
    rw [if_pos marked, rest, List.replicate_succ, List.mapM_cons]
    rfl
  · rw [if_neg marked, List.count_eq_zero.mpr marked]
    show some (substitute (front ++ '?' :: (middle ++ ['?']))
      [literal, other]) = _
    rw [substitute_append _ _ marked, substitute, if_pos rfl,
      substitute_append _ _ plain, substitute, if_pos rfl, substitute_nil,
      List.append_nil]

theorem escquery_dbmsSetInt (query : Text) (value : Int) {more : Nat}
    (count : query.count '?' = more + 1) :
    (escquery (dbmsSetInt (dbmsPrepare query) 1 value).2).isSome =
      decide (more = 0) :=
  escquery_setParameter query (toString value).toList count

theorem dbmsEscape_cons (char : Char) (string : Text) :
    dbmsEscape (char :: string) =
      (if char = quote then [quote, quote] else [char]) ++
        dbmsEscape string :=
  List.flatMap_cons

/-- Reading an escaped text gives the text back. -/
theorem readLiteral_dbmsEscape (string : Text) :
    readLiteral (dbmsEscape string) = string := by
  induction string with
  | nil => rfl
  | cons char string induction =>
      rw [dbmsEscape_cons]
      by_cases quoted : char = quote
      · rw [if_pos quoted]
        show readLiteral (quote :: quote :: dbmsEscape string) = _
        rw [readLiteral, if_pos ⟨rfl, rfl⟩, induction, quoted]
      · rw [if_neg quoted, List.singleton_append]
        cases escaped : dbmsEscape string with
        | nil =>
            rw [escaped] at induction
            rw [readLiteral, ← induction]
            rfl
        | cons second rest =>
            rw [readLiteral, if_neg fun both => quoted both.1, ← escaped,
              induction]

theorem mem_dbmsEscape {string : Text} :
    '?' ∈ dbmsEscape string ↔ '?' ∈ string := by
  have noQuote : ¬ '?' = quote := by decide
  rw [dbmsEscape, List.mem_flatMap]
  constructor
  · rintro ⟨char, member, found⟩
    split at found
    next => simp [noQuote] at found
    next => exact List.mem_singleton.mp found ▸ member
  · intro member
    refine ⟨'?', member, ?_⟩
    rw [if_neg noQuote]
    exact List.mem_singleton_self _

end Limestone.DbmsDbd
