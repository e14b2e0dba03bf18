import Limestone.DbmsProperties
import Limestone.Library.Loop
import Limestone.Library.OrderBy
import Limestone.Library.SqlUpdate
import Mathlib.Data.List.DropRight

/-!
# Emails of their own: `differentiate_emails.rb`

The script goes through the users by their ids and gives a user whose email was
seen before one with a number.  It remembers the emails that were in the table,
not those that it makes up, and puts them into its statements as they are.
-/

namespace Limestone.DifferentiateEmails

open Library
open Library.SqlInsert (SqlValue)
open Library.SqlUpdate
open DbmsProperties (varchar)

/-! ## The table -/

/-- A row of `users`. -/
structure UserRow where
  principalId : Id
  email : Text
deriving DecidableEq, Repr

structure UserTable where
  rows : List UserRow
  pkey : (rows.map UserRow.principalId).Nodup
deriving Repr

/-- The email of one row. -/
def UserRow.setEmail (principalId : Id) (email : Text) (row : UserRow) :
    UserRow :=
  if row.principalId = principalId then { row with email := email } else row

@[simp]
theorem UserRow.setEmail_principalId
    (principalId : Id) (email : Text) (row : UserRow) :
    (row.setEmail principalId email).principalId = row.principalId := by
  rw [UserRow.setEmail]
  split
  next => rfl
  next => rfl

def UserTable.setEmail (users : UserTable) (principalId : Id) (email : Text) :
    UserTable where
  rows := users.rows.map (UserRow.setEmail principalId email)
  pkey := by
    rw [List.map_map]
    convert users.pkey using 2
    funext row
    exact UserRow.setEmail_principalId principalId email row

/-! ## Statements -/

/-- `UPDATE users SET email = .. WHERE principal_id = ..`. -/
def emailUpdate (email : Text) (principalId : Id) : Update where
  table := "users".toList
  assignments := [("email".toList, .text email)]
  column := "principal_id".toList
  value := .number principalId

def updateFront : Text :=
  "UPDATE users SET email = '".toList

def updateMiddle : Text :=
  "' ".toList ++ "WHERE principal_id = ".toList

/-- The text that the script sends. -/
def statementText (newEmail : Text) (principalId : Id) : Text :=
  updateFront ++ newEmail ++ updateMiddle ++ (toString principalId).toList

/-- The email of such an update. -/
def assignedEmail (principalId : Id) (statement : Update) : Option Text :=
  match statement.assignments with
  | [(_, .text email)] =>
      if statement = emailUpdate email principalId then some email else none
  | _ => none

/--
A connection that commits every statement.  A text that is an update of an
email is executed as one, if the column takes the value; nothing is said about
other texts.
-/
structure Database where
  backslash : Bool
  /-- `none` is an exception. -/
  execute : Text → UserTable → Option UserTable
  executes : ∀ text email principalId users,
    parseUpdate backslash text = some (emailUpdate email principalId) →
      execute text users =
        (varchar 255 email).map (users.setEmail principalId)

/-! ## The script -/

/-- `split` of Ruby: empty pieces at the end are left out. -/
def split (text : Text) (sep : Char) : List Text :=
  (text.splitOn sep).rdropWhile List.isEmpty

inductive Raised where
  /-- `email should have exactly one @` -/
  | email (email : Text)
  | database
deriving DecidableEq, Repr

/-- `SELECT principal_id, email FROM users ORDER BY principal_id`. -/
def UserTable.selected (users : UserTable) : List UserRow :=
  Sql.orderBy UserRow.principalId users.rows

def newEmail (localPart : Text) (oldCount : Nat) (domain : Text) : Text :=
  localPart ++ '+' :: (toString oldCount).toList ++ '@' :: domain

section Script

variable (db : Database)

/-- The loop over the rows, with the hash `emails`. -/
def eachRow :
    List UserRow → (Text → Option Nat) → UserTable →
      UserTable × Option Raised
  | [], _, users => (users, none)
  | row :: rows, emails, users =>
      match emails row.email with
      | some oldCount =>
          match split row.email '@' with
          | [localPart, domain] =>
              match db.execute (statementText
                  (newEmail localPart oldCount domain) row.principalId)
                  users with
              | some users =>
                  eachRow rows
                    (Function.update emails row.email (some (oldCount + 1)))
                    users
              | none => (users, some .database)
          | _ => (users, some (.email row.email))
      | none => eachRow rows (Function.update emails row.email (some 1)) users

/-- `differentiate_emails.rb`: what is left, and what was raised. -/
def differentiateEmails (users : UserTable) : UserTable × Option Raised :=
  eachRow db users.selected (fun _ => none) users

end Script

/-! ## What the script is to do -/

/-- Nobody with a lower id has the email. -/
def IsFirstHolder (users : UserTable) (row : UserRow) : Prop :=
  ∀ other ∈ users.rows, other.email = row.email →
    row.principalId ≤ other.principalId

/-- All emails differ, and those of first holders are what they were. -/
structure Differentiates (db : Database) (users : UserTable) : Prop where
  finishes : (differentiateEmails db users).2 = none
  distinct :
    ((differentiateEmails db users).1.rows.map UserRow.email).Nodup
  keeps : List.Forall₂
    (fun before after => after.principalId = before.principalId ∧
      (IsFirstHolder users before → after.email = before.email))
    users.rows (differentiateEmails db users).1.rows

/-! ## New emails -/

/-- How many users with lower ids have the email. -/
def earlier (users : UserTable) (row : UserRow) : Nat :=
  users.rows.countP fun other =>
    other.email == row.email && decide (other.principalId < row.principalId)

/-- The email that the statement for a row assigns. -/
def readEmail (backslash : Bool) (users : UserTable) (row : UserRow) :
    Option Text :=
  match split row.email '@' with
  | [localPart, domain] =>
      (parseUpdate backslash (statementText
        (newEmail localPart (earlier users row) domain)
          row.principalId)).bind (assignedEmail row.principalId)
  | _ => none

/-- As it is in the table then. -/
def storedEmail (backslash : Bool) (users : UserTable) (row : UserRow) :
    Option Text :=
  (readEmail backslash users row).bind (varchar 255)

/-- The statement for a row is an update of its email. -/
def IsRead (backslash : Bool) (users : UserTable) (row : UserRow) : Prop :=
  (split row.email '@').length = 2 →
    (readEmail backslash users row).isSome

/-- The row that the script makes of a row. -/
def settled (backslash : Bool) (users : UserTable) (row : UserRow) : UserRow :=
  if earlier users row = 0 then row
  else { row with
    email := (storedEmail backslash users row).getD row.email }

/--
Every later holder of an email gets one that the column takes, that nobody had
and that no other later holder gets.
-/
structure IsDifferentiable (backslash : Bool) (users : UserTable) : Prop where
  stored : ∀ row ∈ users.rows, earlier users row ≠ 0 →
    ∃ email, storedEmail backslash users row = some email ∧
      ∀ other ∈ users.rows, other.email ≠ email
  apart : ∀ row ∈ users.rows, ∀ other ∈ users.rows,
    earlier users row ≠ 0 → earlier users other ≠ 0 →
      storedEmail backslash users row = storedEmail backslash users other →
        row = other

/-! ## First and later holders -/

section Holders

variable {users : UserTable} {row other : UserRow} {backslash : Bool}
  {done rest : List UserRow}

theorem UserTable.eq_of_principalId
    (member : row ∈ users.rows) (otherMember : other ∈ users.rows)
    (same : row.principalId = other.principalId) :
    row = other :=
  List.inj_on_of_nodup_map users.pkey member otherMember same

theorem earlier_eq_zero_iff :
    earlier users row = 0 ↔ IsFirstHolder users row := by
  rw [earlier, List.countP_eq_zero]
  simp only [Bool.and_eq_true, beq_iff_eq, decide_eq_true_eq, not_and,
    not_lt]
  exact Iff.rfl

/-- Somebody was the first to have an email. -/
theorem exists_first (member : row ∈ users.rows) :
    ∃ first ∈ users.rows, first.email = row.email ∧
      earlier users first = 0 := by
  cases found : Sql.limitOne (Sql.orderBy UserRow.principalId
      (users.rows.filter fun other => other.email == row.email)) with
  | none =>
      rw [Sql.limitOne_orderBy_eq_none, List.filter_eq_nil_iff] at found
      exact (found row member (beq_self_eq_true _)).elim
  | some first =>
      have isFirst := Sql.isFirst_of_limitOne found
      rcases List.mem_filter.mp isFirst.qualifies with ⟨listed, same⟩
      have same := beq_iff_eq.mp same
      refine ⟨first, listed, same, earlier_eq_zero_iff.mpr ?_⟩
      intro other otherMember otherSame
      apply isFirst.least other
      exact List.mem_filter.mpr
        ⟨otherMember, beq_iff_eq.mpr (otherSame.trans same)⟩

theorem settled_of_first (first : earlier users row = 0) :
    settled backslash users row = row :=
  if_pos first

@[simp]
theorem settled_principalId :
    (settled backslash users row).principalId = row.principalId := by
  rw [settled]
  split
  next => rfl
  next => rfl

theorem settled_of_stored {email : Text}
    (later : earlier users row ≠ 0)
    (stored : storedEmail backslash users row = some email) :
    settled backslash users row = { row with email := email } := by
  rw [settled, if_neg later, stored]
  rfl

/-! ## The rows in the order of their ids -/

theorem mem_selected_iff : row ∈ users.selected ↔ row ∈ users.rows :=
  Sql.mem_orderBy

theorem nodup_selected (users : UserTable) : users.selected.Nodup :=
  (List.perm_insertionSort _ users.rows).nodup_iff.mpr
    (List.Nodup.of_map UserRow.principalId users.pkey)

theorem selected_pairwise (users : UserTable) :
    users.selected.Pairwise fun first second =>
      first.principalId < second.principalId := by
  have ordered := Sql.orderBy_pairwise UserRow.principalId users.rows
  have whole := (nodup_selected users).and ordered
  refine whole.imp_of_mem ?_
  intro first second firstMember secondMember related
  apply lt_of_le_of_ne related.2
  intro same
  exact related.1 (UserTable.eq_of_principalId
    (mem_selected_iff.mp firstMember) (mem_selected_iff.mp secondMember) same)

/-- Of the rows with an email, those before a row are the earlier ones. -/
theorem countP_done (sorted : done ++ row :: rest = users.selected) :
    (done.countP fun other => other.email == row.email) =
      earlier users row := by
  have ordered := selected_pairwise users
  rw [← sorted, List.pairwise_append, List.pairwise_cons] at ordered
  have perm : users.selected.Perm users.rows :=
    List.perm_insertionSort _ users.rows
  have none_behind : (row :: rest).countP (fun other =>
      other.email == row.email &&
        decide (other.principalId < row.principalId)) = 0 := by
    rw [List.countP_eq_zero]
    intro other member
    have behind : row.principalId ≤ other.principalId := by
      rcases List.mem_cons.mp member with rfl | later
      · exact le_refl _
      · exact le_of_lt (ordered.2.1.1 other later)
    simp [behind]
  rw [earlier, ← perm.countP_eq, ← sorted, List.countP_append, none_behind,
    Nat.add_zero]
  apply List.countP_congr
  intro other member
  have before := ordered.2.2 other member row List.mem_cons_self
  simp [before]

end Holders

/-! ## The loop -/

section Loop

variable {db : Database} {users current : UserTable} {row : UserRow}
  {done rest : List UserRow}

/-- The hash behind some rows. -/
def counted (done : List UserRow) (email : Text) : Option Nat :=
  let count := done.countP fun other => other.email == email
  if count = 0 then none else some count

theorem counted_concat :
    Function.update (counted done) row.email
        (some ((done.countP fun other => other.email == row.email) + 1)) =
      counted (done ++ [row]) := by
  funext email
  by_cases same : email = row.email
  · rw [same, Function.update_self, counted, List.countP_append,
      List.countP_singleton, if_pos (beq_self_eq_true _),
      if_neg (Nat.succ_ne_zero _)]
  · have other : (row.email == email) = false :=
      beq_eq_false_iff_ne.mpr fun equal => same equal.symm
    rw [Function.update_of_ne same, counted, counted, List.countP_append,
      List.countP_singleton, other]
    rfl

/-- Some rows are settled, and the others as they were. -/
def IsReached (backslash : Bool) (users : UserTable) (done : List UserRow)
    (current : UserTable) : Prop :=
  current.rows = users.rows.map fun row =>
    if row ∈ done then settled backslash users row else row

theorem mem_users (sorted : done ++ row :: rest = users.selected) :
    row ∈ users.rows := by
  rw [← mem_selected_iff, ← sorted]
  exact List.mem_append_right _ List.mem_cons_self

theorem notMem_done (sorted : done ++ row :: rest = users.selected) :
    row ∉ done := by
  have distinct := nodup_selected users
  rw [← sorted, List.nodup_append] at distinct
  intro member
  exact distinct.2.2 row member row List.mem_cons_self rfl

/-- A first holder is left alone. -/
theorem IsReached.first
    (reached : IsReached db.backslash users done current)
    (first : earlier users row = 0) :
    IsReached db.backslash users (done ++ [row]) current := by
  rw [IsReached, reached]
  apply List.map_congr_left
  intro other _
  by_cases same : other = row
  · rw [same, settled_of_first first, ite_self, ite_self]
  · simp only [List.mem_append, List.mem_singleton, same, or_false]

/-- A later one gets the new email. -/
theorem IsReached.later
    {email : Text}
    (reached : IsReached db.backslash users done current)
    (sorted : done ++ row :: rest = users.selected)
    (later : earlier users row ≠ 0)
    (stored : storedEmail db.backslash users row = some email) :
    IsReached db.backslash users (done ++ [row])
      (current.setEmail row.principalId email) := by
  show current.rows.map (UserRow.setEmail row.principalId email) = _
  rw [reached, List.map_map]
  apply List.map_congr_left
  intro other member
  rw [Function.comp_apply, UserRow.setEmail]
  by_cases same : other = row
  · rw [same, if_neg (notMem_done sorted), if_pos rfl, if_pos (by simp),
      settled_of_stored later stored]
  · have apart : other.principalId ≠ row.principalId := fun equal =>
      same (UserTable.eq_of_principalId member (mem_users sorted) equal)
    have kept : (if other ∈ done then settled db.backslash users other
        else other).principalId = other.principalId := by
      split
      next => exact settled_principalId
      next => rfl
    rw [kept, if_neg apart]
    simp only [List.mem_append, List.mem_singleton, same, or_false]

theorem assignedEmail_eq_some
    {principalId : Id} {statement : Update} {email : Text}
    (assigned : assignedEmail principalId statement = some email) :
    statement = emailUpdate email principalId := by
  unfold assignedEmail at assigned
  split at assigned
  next =>
      split at assigned
      next here =>
          rcases Option.some.inj assigned with rfl
          exact here
      next => cases assigned
  next => cases assigned

/-- What an update that is read does. -/
theorem execute_of_readEmail
    {localPart domain email : Text}
    (parts : split row.email '@' = [localPart, domain])
    (read : readEmail db.backslash users row = some email) :
    db.execute (statementText
        (newEmail localPart (earlier users row) domain) row.principalId)
        current =
      (varchar 255 email).map (current.setEmail row.principalId) := by
  rw [readEmail, parts] at read
  rcases Option.bind_eq_some_iff.mp read with ⟨statement, parsed, assigned⟩
  rcases assignedEmail_eq_some assigned with rfl
  exact db.executes _ email row.principalId current parsed

/-- The next row, if its email is new or a new one is stored. -/
theorem eachRow_cons
    (sorted : done ++ row :: rest = users.selected)
    (reached : IsReached db.backslash users done current)
    (stored : earlier users row ≠ 0 →
      (storedEmail db.backslash users row).isSome) :
    ∃ next, IsReached db.backslash users (done ++ [row]) next ∧
      eachRow db (row :: rest) (counted done) current =
        eachRow db rest (counted (done ++ [row])) next := by
  have count := countP_done sorted
  by_cases first : earlier users row = 0
  · have fresh : counted done row.email = none := by
      rw [counted, count, if_pos first]
    refine ⟨current, reached.first first, ?_⟩
    rw [eachRow, fresh, ← counted_concat, count, first]
  · have seen : counted done row.email = some (earlier users row) := by
      rw [counted, count, if_neg first]
    rcases Option.isSome_iff_exists.mp (stored first) with ⟨email, found⟩
    refine ⟨current.setEmail row.principalId email,
      reached.later sorted first found, ?_⟩
    rcases Option.bind_eq_some_iff.mp found with ⟨text, read, taken⟩
    have parts : ∃ localPart domain,
        split row.email '@' = [localPart, domain] := by
      unfold readEmail at read
      split at read
      next localPart domain here => exact ⟨localPart, domain, here⟩
      next => cases read
    rcases parts with ⟨localPart, domain, parts⟩
    have executed := @execute_of_readEmail db users current row _ _ _ parts
      read
    rw [taken, Option.map_some] at executed
    rw [eachRow, seen]
    simp only [parts, executed]
    rw [← counted_concat, count]

/-- The script stops at a row whose email is not stored. -/
theorem eachRow_stops
    (sorted : done ++ row :: rest = users.selected)
    (later : earlier users row ≠ 0)
    (read : IsRead db.backslash users row)
    (refused : storedEmail db.backslash users row = none) :
    ∃ raised, eachRow db (row :: rest) (counted done) current =
      (current, some raised) := by
  have seen : counted done row.email = some (earlier users row) := by
    rw [counted, countP_done sorted, if_neg later]
  rw [eachRow, seen]
  match parts : split row.email '@' with
  | [localPart, domain] =>
      rcases Option.isSome_iff_exists.mp (read (by rw [parts]; rfl)) with
        ⟨text, found⟩
      have executed := @execute_of_readEmail db users current row _ _ _ parts
        found
      rw [storedEmail, found, Option.bind_some] at refused
      rw [refused, Option.map_none] at executed
      refine ⟨.database, ?_⟩
      simp only [executed]
  | [] => exact ⟨.email row.email, rfl⟩
  | [_] => exact ⟨.email row.email, rfl⟩
  | _ :: _ :: _ :: _ => exact ⟨.email row.email, rfl⟩

theorem eachRow_of_stored
    (sorted : done ++ rest = users.selected)
    (reached : IsReached db.backslash users done current)
    (stored : ∀ row ∈ rest, earlier users row ≠ 0 →
      (storedEmail db.backslash users row).isSome) :
    ∃ after, eachRow db rest (counted done) current = (after, none) ∧
      IsReached db.backslash users users.selected after := by
  induction rest generalizing done current with
  | nil =>
      rw [List.append_nil] at sorted
      exact ⟨current, rfl, sorted ▸ reached⟩
  | cons row rest induction =>
      rw [List.forall_mem_cons] at stored
      rcases eachRow_cons sorted reached stored.1 with ⟨next, kept, step⟩
      rw [step]
      rw [List.append_cons] at sorted
      exact induction sorted kept stored.2

/-- If some email is not stored, the script ends with an exception. -/
theorem eachRow_of_refused
    (sorted : done ++ rest = users.selected)
    (reached : IsReached db.backslash users done current)
    (read : ∀ row ∈ rest, earlier users row ≠ 0 →
      IsRead db.backslash users row)
    (refused : ∃ row ∈ rest, earlier users row ≠ 0 ∧
      storedEmail db.backslash users row = none) :
    (eachRow db rest (counted done) current).2 ≠ none := by
  induction rest generalizing done current with
  | nil =>
      rcases refused with ⟨row, member, -⟩
      cases member
  | cons row rest induction =>
      rw [List.forall_mem_cons] at read
      by_cases here : earlier users row ≠ 0 ∧
          storedEmail db.backslash users row = none
      · rcases eachRow_stops sorted here.1 (read.1 here.1) here.2 with
          ⟨raised, stopped⟩
        rw [stopped]
        exact Option.some_ne_none raised
      · have stored : earlier users row ≠ 0 →
            (storedEmail db.backslash users row).isSome := by
          intro later
          rw [Option.isSome_iff_ne_none]
          exact fun none => here ⟨later, none⟩
        rcases eachRow_cons sorted reached stored with ⟨next, kept, step⟩
        rw [step]
        rw [List.append_cons] at sorted
        rcases refused with ⟨other, member, later⟩
        rcases List.mem_cons.mp member with rfl | behind
        · exact (here later).elim
        · exact induction sorted kept read.2 ⟨other, behind, later⟩

theorem isReached_start : IsReached db.backslash users [] users := by
  rw [IsReached]
  exact (List.map_id' users.rows).symm

/-- The whole script, when all new emails are stored. -/
theorem differentiateEmails_of_stored
    (stored : ∀ row ∈ users.rows, earlier users row ≠ 0 →
      (storedEmail db.backslash users row).isSome) :
    (differentiateEmails db users).2 = none ∧
      (differentiateEmails db users).1.rows =
        users.rows.map (settled db.backslash users) := by
  have listed : ∀ row ∈ users.selected, earlier users row ≠ 0 →
      (storedEmail db.backslash users row).isSome :=
    fun row member => stored row (mem_selected_iff.mp member)
  rcases eachRow_of_stored (List.nil_append _) isReached_start listed with
    ⟨after, run, reached⟩
  have run : differentiateEmails db users = (after, none) := run
  rw [run]
  refine ⟨rfl, reached.trans ?_⟩
  apply List.map_congr_left
  intro row member
  exact if_pos (mem_selected_iff.mpr member)

end Loop

/-! ## When the script does what it is to do -/

section Main

variable {db : Database} {users : UserTable}

/-- Emails that differ in the end, for one table. -/
theorem nodup_settled_iff
    (stored : ∀ row ∈ users.rows, earlier users row ≠ 0 →
      (storedEmail db.backslash users row).isSome) :
    ((users.rows.map (settled db.backslash users)).map
        UserRow.email).Nodup ↔ IsDifferentiable db.backslash users := by
  have rowsNodup : users.rows.Nodup :=
    List.Nodup.of_map UserRow.principalId users.pkey
  rw [List.map_map]
  constructor
  · intro distinct
    have injective := List.inj_on_of_nodup_map distinct
    constructor
    · intro row member later
      rcases Option.isSome_iff_exists.mp (stored row member later) with
        ⟨email, found⟩
      refine ⟨email, found, ?_⟩
      intro other otherMember same
      rcases exists_first otherMember with ⟨first, listed, holds, isFirst⟩
      have equal : row = first := by
        apply injective member listed
        rw [Function.comp_apply, Function.comp_apply,
          settled_of_stored later found, settled_of_first isFirst]
        exact (holds.trans same).symm
      rw [equal] at later
      exact later isFirst
    · intro row member other otherMember later otherLater same
      rcases Option.isSome_iff_exists.mp (stored row member later) with
        ⟨email, found⟩
      apply injective member otherMember
      rw [Function.comp_apply, Function.comp_apply,
        settled_of_stored later found,
        settled_of_stored otherLater (same.symm.trans found)]
  · intro differentiable
    apply rowsNodup.map_on
    intro row member other otherMember same
    rw [Function.comp_apply, Function.comp_apply] at same
    by_cases first : earlier users row = 0
    · rw [settled_of_first first] at same
      by_cases otherFirst : earlier users other = 0
      · rw [settled_of_first otherFirst] at same
        apply UserTable.eq_of_principalId member otherMember
        apply le_antisymm
        · exact earlier_eq_zero_iff.mp first other otherMember same.symm
        · exact earlier_eq_zero_iff.mp otherFirst row member same
      · rcases differentiable.stored other otherMember otherFirst with
          ⟨email, found, unheld⟩
        rw [settled_of_stored otherFirst found] at same
        exact (unheld row member same).elim
    · rcases differentiable.stored row member first with
        ⟨email, found, unheld⟩
      rw [settled_of_stored first found] at same
      by_cases otherFirst : earlier users other = 0
      · rw [settled_of_first otherFirst] at same
        exact (unheld other otherMember same.symm).elim
      · rcases differentiable.stored other otherMember otherFirst with
          ⟨otherEmail, otherFound, -⟩
        rw [settled_of_stored otherFirst otherFound] at same
        have same : email = otherEmail := same
        exact differentiable.apart row member other otherMember first
          otherFirst (by rw [found, otherFound, same])

/-- First holders keep their emails. -/
theorem keeps_settled (backslash : Bool) (users : UserTable) :
    List.Forall₂
      (fun before after => after.principalId = before.principalId ∧
        (IsFirstHolder users before → after.email = before.email))
      users.rows (users.rows.map (settled backslash users)) := by
  rw [List.forall₂_map_right_iff, List.forall₂_same]
  intro row _
  refine ⟨settled_principalId, ?_⟩
  intro first
  rw [settled_of_first (earlier_eq_zero_iff.mpr first)]

/--
The condition is enough for every table and database, and it is needed where
the texts that are sent are updates of emails.
-/
theorem differentiates_iff (db : Database) (users : UserTable) :
    (IsDifferentiable db.backslash users → Differentiates db users) ∧
      ((∀ row ∈ users.rows, earlier users row ≠ 0 →
          IsRead db.backslash users row) →
        Differentiates db users → IsDifferentiable db.backslash users) := by
  constructor
  · intro differentiable
    have stored : ∀ row ∈ users.rows, earlier users row ≠ 0 →
        (storedEmail db.backslash users row).isSome := by
      intro row member later
      rcases differentiable.stored row member later with ⟨email, found, -⟩
      exact Option.isSome_iff_exists.mpr ⟨email, found⟩
    rcases differentiateEmails_of_stored stored with ⟨finishes, rows⟩
    refine ⟨finishes, ?_, ?_⟩
    · rw [rows]
      exact (nodup_settled_iff stored).mpr differentiable
    · rw [rows]
      exact keeps_settled db.backslash users
  · intro read differentiates
    have stored : ∀ row ∈ users.rows, earlier users row ≠ 0 →
        (storedEmail db.backslash users row).isSome := by
      by_contra missing
      push Not at missing
      rcases missing with ⟨row, member, later, refused⟩
      have stops := @eachRow_of_refused db users users [] users.selected
        (List.nil_append _) isReached_start
        (fun other listed => read other (mem_selected_iff.mp listed))
        ⟨row, mem_selected_iff.mpr member, later,
          Option.isNone_iff_eq_none.mp (by simpa using refused)⟩
      exact stops differentiates.finishes
    have distinct := differentiates.distinct
    rw [(differentiateEmails_of_stored stored).2] at distinct
    exact (nodup_settled_iff stored).mp distinct

end Main

/-! ## Emails without quotes -/

section Plain

variable {backslash : Bool} {users : UserTable} {row other : UserRow}
  {text localPart domain : Text} {count : Nat}

/-- Nothing in the text means anything in a literal. -/
def IsPlain (text : Text) : Prop :=
  ∀ char ∈ text, char ≠ '\'' ∧ char ≠ '\\'

theorem escape_of_plain (plain : IsPlain text) :
    SqlInsert.escape backslash text = text := by
  induction text with
  | nil => rfl
  | cons char text induction =>
      rcases List.forall_mem_cons.mp plain with ⟨here, behind⟩
      have unescaped : ¬ (char = '\'' ∨ backslash = true ∧ char = '\\') := by
        rintro (quote | ⟨-, slash⟩)
        · exact here.1 quote
        · exact here.2 slash
      rw [SqlInsert.escape, List.flatMap_cons, if_neg unescaped]
      exact congrArg (char :: ·) (induction behind)

theorem isPlain_emailUpdate (email : Text) (principalId : Id) :
    (emailUpdate email principalId).IsPlain where
  table := by
    show IsName "users".toList
    decide
  nonempty := List.cons_ne_nil _ _
  assigned := by
    intro assignment member
    rcases List.mem_singleton.mp member with rfl
    show IsName "email".toList
    decide
  column := by
    show IsName "principal_id".toList
    decide

/-- The statement with a plain email is the update with this email. -/
theorem statementText_of_plain (plain : IsPlain text) (principalId : Id) :
    statementText text principalId =
      updateText backslash (emailUpdate text principalId) := by
  have front : updateFront =
      wordText "UPDATE".toList ++ wordText "users".toList ++
        wordText "SET".toList ++ wordText "email".toList ++
          ['=', ' ', '\''] :=
    rfl
  have middle : updateMiddle =
      ['\'', ' '] ++ wordText "WHERE".toList ++
        wordText "principal_id".toList ++ ['=', ' '] :=
    rfl
  rw [statementText, front, middle]
  simp only [updateText, emailUpdate, assignmentsText, equationText,
    SqlInsert.valueText, escape_of_plain plain, List.append_assoc,
    List.cons_append, List.nil_append]

theorem assignedEmail_emailUpdate (email : Text) (principalId : Id) :
    assignedEmail principalId (emailUpdate email principalId) = some email :=
  if_pos rfl

theorem isPlain_append {front behind : Text} :
    IsPlain (front ++ behind) ↔ IsPlain front ∧ IsPlain behind :=
  List.forall_mem_append

theorem isDigit_of_mem_toString {number : Nat} {char : Char}
    (member : char ∈ (toString number).toList) :
    char.isDigit = true := by
  have digits : (toString number).toList = Nat.toDigits 10 number :=
    Nat.toList_repr
  rw [digits] at member
  exact SqlText.isDigit_of_mem_toDigits member

theorem isPlain_newEmail
    (localPlain : IsPlain localPart) (domainPlain : IsPlain domain) :
    IsPlain (newEmail localPart count domain) := by
  have digits : IsPlain (toString count).toList := by
    intro char member
    have digit := isDigit_of_mem_toString member
    constructor
    · rintro rfl
      cases digit
    · rintro rfl
      cases digit
  have plus : IsPlain ['+'] := by
    intro char member
    rcases List.mem_singleton.mp member with rfl
    decide
  have at_ : IsPlain ['@'] := by
    intro char member
    rcases List.mem_singleton.mp member with rfl
    decide
  show IsPlain (localPart ++ (['+'] ++ (toString count).toList) ++
    (['@'] ++ domain))
  simp only [isPlain_append]
  exact ⟨⟨localPlain, plus, digits⟩, at_, domainPlain⟩

/-- An email with one @ is its two parts, if there is something behind. -/
theorem split_of_one
    (localFree : '@' ∉ localPart) (domainFree : '@' ∉ domain)
    (filled : domain ≠ []) :
    split (localPart ++ '@' :: domain) '@' = [localPart, domain] := by
  have pieces : (localPart ++ '@' :: domain).splitOn '@' =
      [localPart] ++ [domain] := by
    rw [List.splitOn_append_cons_self, List.splitOn_eq_singleton localFree,
      List.splitOn_eq_singleton domainFree]
  rw [split, pieces]
  exact List.rdropWhile_concat_neg _ _ _ (by simpa using filled)

theorem readEmail_of_plain
    (parts : split row.email '@' = [localPart, domain])
    (localPlain : IsPlain localPart) (domainPlain : IsPlain domain) :
    readEmail backslash users row =
      some (newEmail localPart (earlier users row) domain) := by
  simp only [readEmail, parts]
  rw [statementText_of_plain (isPlain_newEmail localPlain domainPlain),
    parseUpdate_updateText (isPlain_emailUpdate _ _), Option.bind_some,
    assignedEmail_emailUpdate]

theorem storedEmail_of_plain
    (whole : row.email = localPart ++ '@' :: domain)
    (localFree : '@' ∉ localPart) (domainFree : '@' ∉ domain)
    (filled : domain ≠ [])
    (plain : IsPlain row.email)
    (short : (newEmail localPart (earlier users row) domain).length ≤ 255) :
    storedEmail backslash users row =
      some (newEmail localPart (earlier users row) domain) := by
  rw [whole, isPlain_append] at plain
  have parts := split_of_one localFree domainFree filled
  rw [← whole] at parts
  rw [storedEmail, readEmail_of_plain parts plain.1
    (List.forall_mem_cons.mp plain.2).2, Option.bind_some]
  exact if_pos short

end Plain

/-! ## An address that is made up twice -/

/-- A database that does nothing but update emails. -/
def emailDatabase : Database where
  backslash := false
  execute text users :=
    (parseUpdate false text).bind fun statement =>
      match statement.value with
      | .number principalId =>
          (assignedEmail principalId statement).bind fun email =>
            (varchar 255 email).map (users.setEmail principalId)
      | .text _ => none
  executes text email principalId users parsed := by
    rw [parsed, Option.bind_some]
    show (assignedEmail principalId (emailUpdate email principalId)).bind _ = _
    rw [assignedEmail_emailUpdate, Option.bind_some]

/-- Two users with one email. -/
def twoUsers : UserTable where
  rows := [⟨1, "a@b.org".toList⟩, ⟨2, "a@b.org".toList⟩]
  pkey := by decide

/-- A third one has the email that the second one is given. -/
def threeUsers : UserTable where
  rows := twoUsers.rows ++ [⟨3, "a+1@b.org".toList⟩]
  pkey := by decide

/-- The new email of the second user. -/
theorem storedEmail_second
    {users : UserTable} (second : earlier users ⟨2, "a@b.org".toList⟩ = 1) :
    storedEmail false users ⟨2, "a@b.org".toList⟩ =
      some "a+1@b.org".toList := by
  have plain : IsPlain "a@b.org".toList := by
    unfold IsPlain
    exact List.forall_iff_forall_mem.mp (by decide)
  have found := @storedEmail_of_plain false users ⟨2, "a@b.org".toList⟩
    "a".toList "b.org".toList rfl (by decide) (by decide) (by decide) plain
    (by rw [second]; decide)
  rw [second] at found
  exact found

theorem differentiates_twoUsers : Differentiates emailDatabase twoUsers := by
  apply (differentiates_iff emailDatabase twoUsers).1
  have second := @storedEmail_second twoUsers (by decide)
  constructor
  · intro row member later
    have listed : row ∈ [UserRow.mk 1 "a@b.org".toList,
        UserRow.mk 2 "a@b.org".toList] :=
      member
    simp only [List.mem_cons, List.not_mem_nil, or_false] at listed
    rcases listed with rfl | rfl
    · exact (later (by decide)).elim
    · refine ⟨_, second, ?_⟩
      decide
  · intro row member other otherMember later otherLater _
    have only : ∀ row ∈ twoUsers.rows, earlier twoUsers row ≠ 0 →
        row = ⟨2, "a@b.org".toList⟩ := by
      decide
    rw [only row member later, only other otherMember otherLater]

theorem not_differentiates :
    ¬ ∀ (db : Database) (users : UserTable),
      (∀ row ∈ users.rows, row.email.count '@' = 1) →
        Differentiates db users := by
  intro differentiates
  have right := differentiates emailDatabase threeUsers (by decide)
  have second := @storedEmail_second threeUsers (by decide)
  have only : ∀ row ∈ threeUsers.rows, earlier threeUsers row ≠ 0 →
      row = ⟨2, "a@b.org".toList⟩ := by
    decide
  have stored : ∀ row ∈ threeUsers.rows, earlier threeUsers row ≠ 0 →
      (storedEmail emailDatabase.backslash threeUsers row).isSome := by
    intro row member later
    rw [only row member later]
    exact Option.isSome_iff_exists.mpr ⟨_, second⟩
  have distinct := right.distinct
  rw [(differentiateEmails_of_stored stored).2, nodup_settled_iff stored]
    at distinct
  rcases distinct.stored ⟨2, "a@b.org".toList⟩ (by decide) (by decide) with
    ⟨email, found, unheld⟩
  rcases Option.some.inj (second.symm.trans found) with rfl
  exact unheld ⟨3, "a+1@b.org".toList⟩ (by decide) rfl

end Limestone.DifferentiateEmails
