import Limestone.Library.Segments
import Limestone.Library.Sql
import Limestone.Library.SqlText
import Mathlib.Algebra.Ring.Int.Defs
import Mathlib.Algebra.Ring.Nat

/-!
# Identifiers, texts, errors, resource types and the states of the schema

Ids of rows are C `long`s.  A `dav_error` is kept as its HTTP status and its
description; a NULL `dav_error *` is success.
-/

namespace Limestone

/-- The id of a row, a C `long`. -/
abbrev Id := Int

/-- A `long` that is passed or assigned as an `int`. -/
def toInt (value : Int) : Int :=
  Int.bmod value (2 ^ 32)

/-- A value of an `integer` column, such as `resources.id`. -/
def IsInteger (value : Int) : Prop :=
  -2 ^ 31 ≤ value ∧ value < 2 ^ 31

instance (value : Int) : Decidable (IsInteger value) :=
  inferInstanceAs (Decidable (_ ∧ _))

theorem toInt_eq_self {value : Int} (range : IsInteger value) :
    toInt value = value := by
  rcases range with ⟨lower, upper⟩
  have width : ((2 ^ 32 : Nat) : Int) = 4294967296 := rfl
  apply Int.bmod_eq_of_le_mul_two
  · rw [width]
    omega
  · rw [width]
    omega

/-- Truncations before an addition do not show after it. -/
theorem toInt_toInt_add (first second : Int) :
    toInt (toInt first + toInt second) = toInt (first + second) := by
  rw [toInt, toInt, toInt, Int.bmod_add_bmod, Int.add_bmod_bmod]
  rfl

theorem isInteger_toInt (value : Int) : IsInteger (toInt value) := by
  have positive : 0 < 2 ^ 32 := by decide
  constructor
  · exact Int.le_bmod positive
  · exact Int.bmod_lt positive

/-- A truncation keeps just the values of the type. -/
theorem toInt_eq_self_iff {value : Int} :
    toInt value = value ↔ IsInteger value := by
  constructor
  · intro same
    rw [← same]
    exact isInteger_toInt value
  · exact toInt_eq_self

/-- A string of the source. -/
abbrev Text := List Char

/-- `basename`. -/
def basename (uri : Text) : Text :=
  (Library.Segments.tokens '/' uri).getLastD []

theorem three_pos : (0 : Id) < 3 := by decide

theorem five_pos : (0 : Id) < 5 := by decide

theorem eight_pos : (0 : Id) < 8 := by decide

theorem nine_pos : (0 : Id) < 9 := by decide

/-- Pairs of keys are compared by their components. -/
instance lawfulBEqIds : LawfulBEq (Id × Id) := inferInstance

instance lawfulBEqKey : LawfulBEq (Id × Text) := inferInstance

/-- A `dav_error`: status and description as passed to `dav_new_error`. -/
structure DavError where
  status : Nat
  desc : String
deriving DecidableEq, Repr

def httpBadRequest : Nat := 400

def httpConflict : Nat := 409

def httpInternalServerError : Nat := 500

/--
The schema as `create_postgres_full.sql` leaves it, or with the unique
constraints of change set 2 of `database/add_database_indices.xml`.
-/
inductive Schema where
  | base
  | indexed
deriving DecidableEq, Repr

/-- Whether the unique constraints of the change set are installed. -/
def Schema.uniqueConstraints : Schema → Bool
  | .base => false
  | .indexed => true

/-- `dav_repos_resource_types`, the values of `resources.type`. -/
inductive ResourceType where
  | resource
  | collection
  | principal
  | user
  | group
  | redirect
  | version
  | versioned
  | versionHistory
  | versionedCollection
  | collectionVersion
  | lockNull
deriving DecidableEq, Repr

/-- The types of the resources that have members. -/
def ResourceType.isCollection (resourcetype : ResourceType) : Bool :=
  resourcetype == .collection || resourcetype == .versionedCollection

/-- `dbms_execute` reporting a failure of the database as a `dav_error`. -/
def dbmsExecute {α : Type*} (desc : String)
    (statement : Except Library.Sql.SqlError α) : Except DavError α :=
  statement.mapError fun _ => ⟨httpInternalServerError, desc⟩

@[simp]
theorem dbmsExecute_ok {α : Type*} (desc : String) (result : α) :
    dbmsExecute desc (.ok result) = .ok result :=
  rfl

@[simp]
theorem dbmsExecute_error {α : Type*} (desc : String)
    (failure : Library.Sql.SqlError) :
    dbmsExecute (α := α) desc (.error failure) =
      .error ⟨httpInternalServerError, desc⟩ :=
  rfl

theorem dbmsExecute_eq_ok {α : Type*} {desc : String}
    {statement : Except Library.Sql.SqlError α} {result : α} :
    dbmsExecute desc statement = .ok result ↔ statement = .ok result := by
  cases statement <;> simp

/-- What a sequence of two calls says when it succeeds. -/
theorem bind_eq_ok {ε : Type*} {α β : Type} {first : Except ε α}
    {second : α → Except ε β} {result : β} :
    (first >>= second) = .ok result ↔
      ∃ value, first = .ok value ∧ second value = .ok result := by
  cases first with
  | error failure => simp [bind, Except.bind]
  | ok value => simp [bind, Except.bind]

/-- Another error leaves the result. -/
theorem mapError_eq_ok {ε ε' α : Type*} {call : Except ε α} {wrap : ε → ε'}
    {result : α} :
    call.mapError wrap = .ok result ↔ call = .ok result := by
  cases call with
  | error failure => simp [Except.mapError]
  | ok value => simp [Except.mapError]

/-- What a check that was passed says. -/
theorem ite_error_eq_ok {ε α : Type*} {check : Prop} [Decidable check]
    {failure : ε} {rest : Except ε α} {result : α} :
    (if check then .error failure else rest) = .ok result ↔
      ¬ check ∧ rest = .ok result := by
  by_cases failed : check <;> simp [failed]

end Limestone
