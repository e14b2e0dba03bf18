import Mathlib.Data.List.Basic
import Mathlib.Data.List.Dedup
import Mathlib.Data.List.ProdSigma
import Mathlib.Data.List.Nodup

/-!
# Relational operations on lists of rows

A table is the list of its rows, in the order in which the database returns
them.  The operations below are the parts of SQL whose meaning is more than a
filter: a scalar subquery, which fails on a second row, an `UPDATE` whose
assignment may fail, `UNION` with its removal of duplicates, and the joins.
-/

namespace Limestone.Library.Sql

/-- The ways a statement can fail in the database. -/
inductive SqlError where
  /-- More than one row returned by a subquery used as an expression. -/
  | cardinalityViolation
  /-- A unique key already holds the values to be inserted. -/
  | uniqueViolation
deriving DecidableEq, Repr

variable {Row Other Value : Type*}

/-! ## Row order -/

/--
The order in which the database returns the rows of a query without
`ORDER BY`: any rearrangement, another one for each numbered query.
-/
structure RowOrder (Row : Type*) where
  arrange : Nat → List Row → List Row
  perm : ∀ query rows, (arrange query rows).Perm rows

/-- The rows in the order in which the table holds them. -/
def RowOrder.stored (Row : Type*) : RowOrder Row where
  arrange _ rows := rows
  perm _ rows := List.Perm.refl rows

/-- The rows that satisfy a condition before the others. -/
def RowOrder.first (condition : Row → Bool) : RowOrder Row where
  arrange _ rows :=
    rows.filter condition ++ rows.filter fun row => !condition row
  perm _ rows := List.filter_append_perm condition rows

@[simp]
theorem RowOrder.mem_arrange
    {order : RowOrder Row} {query : Nat} {rows : List Row} {row : Row} :
    row ∈ order.arrange query rows ↔ row ∈ rows :=
  (order.perm query rows).mem_iff

/-- Before a row that is preferred only preferred rows are returned. -/
theorem RowOrder.first_prefers
    {condition : Row → Bool} {query : Nat} {rows earlier later : List Row}
    {row chosen : Row}
    (arranged : (RowOrder.first condition).arrange query rows =
      earlier ++ row :: later)
    (member : chosen ∈ rows)
    (met : condition chosen = true)
    (unseen : chosen ∉ earlier) :
    condition row = true := by
  have preferred : chosen ∈ rows.filter condition :=
    List.mem_filter.mpr ⟨member, met⟩
  have halves : rows.filter condition ++
      (rows.filter fun row => !condition row) = earlier ++ row :: later :=
    arranged
  rcases List.append_eq_append_iff.mp halves with
    ⟨middle, seen, -⟩ | ⟨middle, split, rest⟩
  · rw [seen] at unseen
    exact (unseen (List.mem_append_left _ preferred)).elim
  · cases middle with
    | nil =>
        rw [split, List.append_nil] at preferred
        exact (unseen preferred).elim
    | cons head tail =>
        rcases (List.cons.inj rest).1 with rfl
        have listed : row ∈ rows.filter condition := by
          rw [split]
          simp
        exact (List.mem_filter.mp listed).2

/-! ## Scalar subqueries -/

/-- A subquery used as an expression: no row is NULL, two rows are an error. -/
def scalarSubquery : List Value → Except SqlError (Option Value)
  | [] => .ok none
  | [value] => .ok (some value)
  | _ :: _ :: _ => .error .cardinalityViolation

theorem scalarSubquery_isOk
    {values : List Value} :
    (∃ result, scalarSubquery values = .ok result) ↔ values.length ≤ 1 := by
  match values with
  | [] => simp [scalarSubquery]
  | [value] => simp [scalarSubquery]
  | first :: second :: rest => simp [scalarSubquery]

/-- Two rows that satisfy a condition which few rows satisfy are equal. -/
theorem eq_of_length_filter_le_one
    {condition : Row → Bool} {rows : List Row} {row other : Row}
    (few : (rows.filter condition).length ≤ 1)
    (member : row ∈ rows) (otherMember : other ∈ rows)
    (met : condition row = true) (otherMet : condition other = true) :
    row = other := by
  have found : row ∈ rows.filter condition :=
    List.mem_filter.mpr ⟨member, met⟩
  have otherFound : other ∈ rows.filter condition :=
    List.mem_filter.mpr ⟨otherMember, otherMet⟩
  generalize rows.filter condition = filtered at few found otherFound
  match filtered with
  | [only] =>
      rw [List.mem_singleton] at found otherFound
      rw [found, otherFound]
  | [] => cases found
  | _ :: _ :: _ => simp at few

/-- What a DELETE of the rows with one value leaves of those with another. -/
theorem filter_key_delete
    {Key : Type*} [DecidableEq Key] {key : Row → Key} {rows : List Row}
    (value deleted : Key) :
    (rows.filter fun row => key row != deleted).filter
        (fun row => key row == value) =
      if value = deleted then []
      else rows.filter fun row => key row == value := by
  rw [List.filter_filter]
  by_cases same : value = deleted
  · rw [if_pos same]
    apply List.filter_eq_nil_iff.mpr
    intro row _
    simp [same]
  · rw [if_neg same]
    apply List.filter_congr
    intro row _
    by_cases found : key row = value
    · simp [found, same]
    · simp [found]

/-- What an UPDATE of other rows leaves of those with one value. -/
theorem filter_key_map
    {Key : Type*} [BEq Key] [LawfulBEq Key] {key : Row → Key}
    {rows : List Row} {change : Row → Row} {value : Key}
    (keepsKey : ∀ row ∈ rows, key (change row) = key row)
    (keepsRow : ∀ row ∈ rows, key row = value → change row = row) :
    (rows.map change).filter (fun row => key row == value) =
      rows.filter fun row => key row == value := by
  induction rows with
  | nil => rfl
  | cons row rows induction =>
      have rest := induction
        (fun other member => keepsKey other (List.mem_cons_of_mem _ member))
        (fun other member => keepsRow other (List.mem_cons_of_mem _ member))
      have same := keepsKey row List.mem_cons_self
      rw [List.map_cons, List.filter_cons, List.filter_cons, rest, same]
      by_cases found : key row = value
      · rw [keepsRow row List.mem_cons_self found]
      · rw [if_neg (beq_eq_false_iff_ne.mpr found ▸ Bool.false_ne_true),
          if_neg (beq_eq_false_iff_ne.mpr found ▸ Bool.false_ne_true)]

/-- A unique key: at most one row has a value of it. -/
theorem filter_key {Key : Type*} [BEq Key] [LawfulBEq Key] {key : Row → Key}
    {rows : List Row} (unique : (rows.map key).Nodup) (value : Key) :
    (rows.filter fun row => key row == value) = [] ∨
      ∃ row, (rows.filter fun row => key row == value) = [row] := by
  match found : rows.filter fun row => key row == value with
  | [] => exact Or.inl rfl
  | [row] => exact Or.inr ⟨row, rfl⟩
  | first :: second :: rest =>
      have keys : ∀ row ∈ first :: second :: rest,
          row ∈ rows ∧ key row = value := by
        intro row member
        rw [← found, List.mem_filter, beq_iff_eq] at member
        exact member
      have firstKey := keys first (by simp)
      have secondKey := keys second (by simp)
      have equal : first = second :=
        List.inj_on_of_nodup_map unique firstKey.1 secondKey.1
          (firstKey.2.trans secondKey.2.symm)
      have distinct : (first :: second :: rest).Nodup := by
        rw [← found]
        exact unique.of_map.filter _
      rw [equal] at distinct
      simp at distinct

/-- A unique key: the first row with the key of a row is that row. -/
theorem find_key {Key : Type*} [BEq Key] [LawfulBEq Key] {key : Row → Key}
    {rows : List Row} (unique : (rows.map key).Nodup) {row : Row}
    (member : row ∈ rows) :
    rows.find? (fun other => key other == key row) = some row := by
  have isSome : (rows.find? fun other => key other == key row).isSome := by
    rw [List.find?_isSome]
    exact ⟨row, member, beq_self_eq_true _⟩
  rcases Option.isSome_iff_exists.mp isSome with ⟨found, equation⟩
  have same : key found = key row := by
    simpa using List.find?_some equation
  have equal : found = row :=
    List.inj_on_of_nodup_map unique (List.mem_of_find?_eq_some equation)
      member same
  rw [equation, equal]

/-- An assignment that keeps the key leaves the keys of the table. -/
theorem map_key_assign {Key : Type*} {key : Row → Key}
    (condition : Row → Prop) [DecidablePred condition] (assign : Row → Row)
    (keeps : ∀ row, key (assign row) = key row) (rows : List Row) :
    (rows.map fun row => if condition row then assign row else row).map key =
      rows.map key := by
  rw [List.map_map]
  apply List.map_congr_left
  intro row _
  by_cases met : condition row
  · simp [met, keeps]
  · simp [met]

/-! ## Updates -/

/--
`UPDATE .. SET .. WHERE ..`: the assignment is evaluated on the rows that
satisfy the condition only, and on the table as it was before the statement.
-/
def update
    (condition : Row → Bool) (assign : Row → Except SqlError Row) :
    List Row → Except SqlError (List Row)
  | [] => .ok []
  | row :: rows => do
      let row ← if condition row then assign row else .ok row
      let rows ← update condition assign rows
      return row :: rows

variable {condition : Row → Bool} {assign : Row → Except SqlError Row}
  {rows : List Row}

/-- An update that meets no row evaluates nothing. -/
theorem update_of_forall_not
    (unmet : ∀ row ∈ rows, condition row = false) :
    update condition assign rows = .ok rows := by
  induction rows with
  | nil => rfl
  | cons row rows induction =>
      simp only [List.mem_cons, forall_eq_or_imp] at unmet
      rw [update, unmet.1, induction unmet.2]
      rfl

theorem update_pure (assign : Row → Row) :
    update condition (fun row => .ok (assign row)) rows =
      .ok (rows.map fun row => if condition row then assign row else row) := by
  induction rows with
  | nil => rfl
  | cons row rows induction =>
      rw [update, induction]
      cases met : condition row <;>
        simp [met, bind, Except.bind, pure, Except.pure]

/-- An assignment that always fails fails on the first row it meets. -/
theorem update_error
    {failure : SqlError}
    (met : ∃ row ∈ rows, condition row = true) :
    update condition (fun _ => .error failure) rows = .error failure := by
  induction rows with
  | nil => simp at met
  | cons row rows induction =>
      rw [update]
      cases here : condition row with
      | true => rfl
      | false =>
          rcases met with ⟨other, member, otherMet⟩
          rcases List.mem_cons.mp member with rfl | member
          · simp [here] at otherMet
          · rw [induction ⟨other, member, otherMet⟩]
            rfl

/--
An assignment whose subqueries do not depend on the row: the statement
succeeds iff it meets no row or its value can be computed.
-/
theorem update_uncorrelated
    (value : Except SqlError Value) (assign : Value → Row → Row) :
    update condition (fun row => value.map fun v => assign v row) rows =
      if rows.any condition then
        value.map fun v =>
          rows.map fun row => if condition row then assign v row else row
      else .ok rows := by
  cases met : rows.any condition with
  | false =>
      rw [List.any_eq_false] at met
      exact update_of_forall_not fun row member => by
        simpa using met row member
  | true =>
      rw [List.any_eq_true] at met
      cases value with
      | error failure => exact update_error met
      | ok v => exact update_pure (assign v)

/-! ## Rows that are computed -/

/-- A row that cannot be computed makes the statement fail. -/
theorem mapM_eq_none
    {compute : Row → Option Other} {row : Row}
    (member : row ∈ rows)
    (fails : compute row = none) :
    rows.mapM compute = none := by
  induction rows with
  | nil => cases member
  | cons first rest induction =>
      rw [List.mapM_cons]
      rcases List.mem_cons.mp member with rfl | later
      · rw [fails]
        rfl
      · rw [induction later]
        cases compute first with
        | none => rfl
        | some computed => rfl

theorem mapM_eq_some
    {compute : Row → Option Other} {computed : Row → Other}
    (each : ∀ row ∈ rows, compute row = some (computed row)) :
    rows.mapM compute = some (rows.map computed) := by
  induction rows with
  | nil => rfl
  | cons row rows induction =>
      rw [List.forall_mem_cons] at each
      rw [List.mapM_cons, each.1, induction each.2]
      rfl

/-! ## Insertions -/

/-- `INSERT` into a table on whose `key` a unique constraint may stand. -/
def insert {Key : Type*} [DecidableEq Key]
    (enforced : Bool) (key : Row → Key) (table new : List Row) :
    Except SqlError (List Row) :=
  if enforced ∧ ¬ ((table ++ new).map key).Nodup then .error .uniqueViolation
  else .ok (table ++ new)

theorem insert_eq_ok {Key : Type*} [DecidableEq Key]
    {enforced : Bool} {key : Row → Key} {table new result : List Row} :
    insert enforced key table new = .ok result ↔
      (enforced = true → ((table ++ new).map key).Nodup) ∧
        result = table ++ new := by
  unfold insert
  split
  next violated =>
      refine ⟨nofun, fun success => ?_⟩
      exact (violated.2 (success.1 violated.1)).elim
  next kept =>
      rw [not_and_not_right] at kept
      refine ⟨fun success => ⟨kept, (Except.ok.inj success).symm⟩, ?_⟩
      rintro ⟨-, rfl⟩
      rfl

/-- A row with a new value of a key leaves the key of the table. -/
theorem nodup_key_append {Key : Type*} {key : Row → Key} {table : List Row}
    {row : Row} (unique : (table.map key).Nodup)
    (fresh : key row ∉ table.map key) :
    ((table ++ [row]).map key).Nodup := by
  rw [List.map_append, List.nodup_append]
  refine ⟨unique, List.nodup_singleton _, ?_⟩
  intro value member other isNew same
  rcases List.mem_singleton.mp isNew with rfl
  rw [same] at member
  exact fresh member

/-- What a sequence gives next is not a value of a key below it. -/
theorem next_not_mem {key : Row → Int} {table : List Row} {next : Int}
    (below : ∀ row ∈ table, key row < next) :
    next ∉ table.map key := by
  intro member
  rcases List.mem_map.mp member with ⟨row, listed, same⟩
  exact Int.ne_of_lt (below row listed) same

/-! ## Unions and products -/

/-- `UNION`: the rows of both operands, each once. -/
def union [DecidableEq Row] (first second : List Row) : List Row :=
  (first ++ second).dedup

@[simp]
theorem mem_union [DecidableEq Row] {first second : List Row} {row : Row} :
    row ∈ union first second ↔ row ∈ first ∨ row ∈ second := by
  simp [union]

theorem nodup_union [DecidableEq Row] (first second : List Row) :
    (union first second).Nodup :=
  List.nodup_dedup _

/-- `CROSS JOIN`. -/
def crossJoin (first : List Row) (second : List Other) : List (Row × Other) :=
  first ×ˢ second

@[simp]
theorem mem_crossJoin
    {first : List Row} {second : List Other} {pair : Row × Other} :
    pair ∈ crossJoin first second ↔ pair.1 ∈ first ∧ pair.2 ∈ second := by
  cases pair
  simp [crossJoin]

theorem crossJoin_cons (row : Row) (rows : List Row) (second : List Other) :
    crossJoin (row :: rows) second =
      second.map (Prod.mk row) ++ crossJoin rows second :=
  rfl

theorem nodup_crossJoin
    {first : List Row} {second : List Other}
    (firstNodup : first.Nodup) (secondNodup : second.Nodup) :
    (crossJoin first second).Nodup :=
  firstNodup.product secondNodup

/-- A join on a unique key of its second table adds no rows to the first. -/
theorem length_filter_crossJoin_le
    {Key : Type*} [BEq Key] [LawfulBEq Key] {key : Other → Key}
    {first : List Row} {second : List Other} {reference : Row → Key}
    (unique : (second.map key).Nodup) :
    ((crossJoin first second).filter fun pair =>
      key pair.2 == reference pair.1).length ≤ first.length := by
  induction first with
  | nil => exact Nat.le_refl 0
  | cons row rows induction =>
      have one : ((second.map (Prod.mk row)).filter fun pair =>
          key pair.2 == reference pair.1).length ≤ 1 := by
        rw [List.filter_map, List.length_map]
        show (second.filter fun other =>
          key other == reference row).length ≤ 1
        rcases filter_key unique (reference row) with empty | ⟨other, single⟩
        · rw [empty]
          exact Nat.zero_le 1
        · rw [single]
          exact Nat.le_refl 1
      rw [crossJoin_cons, List.filter_append, List.length_append,
        List.length_cons, Nat.add_comm]
      exact Nat.add_le_add induction one

/-- `LEFT JOIN`; `none` is the row of NULLs. -/
def leftJoin (first : List Row) (second : List Other)
    (on : Row → Other → Bool) : List (Row × Option Other) :=
  first.flatMap fun row =>
    match second.filter (on row) with
    | [] => [(row, none)]
    | found => found.map fun other => (row, some other)

/-- A left join loses no row and makes none up. -/
theorem exists_mem_leftJoin
    {first : List Row} {second : List Other} {on : Row → Other → Bool}
    {row : Row} :
    (∃ other, (row, other) ∈ leftJoin first second on) ↔ row ∈ first := by
  simp only [leftJoin, List.mem_flatMap]
  constructor
  · rintro ⟨other, source, listed, member⟩
    split at member
    · rcases Prod.mk.inj (List.mem_singleton.mp member) with ⟨rfl, -⟩
      exact listed
    · rcases List.mem_map.mp member with ⟨found, -, equal⟩
      rcases Prod.mk.inj equal with ⟨rfl, -⟩
      exact listed
  · intro listed
    cases matching : second.filter (on row) with
    | nil =>
        refine ⟨none, row, listed, ?_⟩
        rw [matching]
        exact List.mem_singleton_self _
    | cons found others =>
        refine ⟨some found, row, listed, ?_⟩
        rw [matching]
        exact List.mem_cons_self

/-- When no row has two partners, a left join has one row for each. -/
theorem map_fst_leftJoin
    {first : List Row} {second : List Other} {on : Row → Other → Bool}
    (few : ∀ row ∈ first, (second.filter (on row)).length ≤ 1) :
    (leftJoin first second on).map Prod.fst = first := by
  induction first with
  | nil => rfl
  | cons row first induction =>
      simp only [List.mem_cons, forall_eq_or_imp] at few
      have rest := induction few.2
      rw [leftJoin] at rest
      rw [leftJoin, List.flatMap_cons, List.map_append, rest]
      match matching : second.filter (on row) with
      | [] => rfl
      | [_] => rfl
      | _ :: _ :: _ =>
          rw [matching] at few
          exact absurd few.1 (by simp)

/-- The rows of a left join that have a partner. -/
theorem some_mem_leftJoin
    {first : List Row} {second : List Other} {on : Row → Other → Bool}
    {row : Row} {other : Other} :
    (row, some other) ∈ leftJoin first second on ↔
      row ∈ first ∧ other ∈ second ∧ on row other = true := by
  simp only [leftJoin, List.mem_flatMap]
  constructor
  · rintro ⟨source, listed, member⟩
    split at member
    · cases List.mem_singleton.mp member
    · rcases List.mem_map.mp member with ⟨found, matching, equal⟩
      rcases Prod.mk.inj equal with ⟨rfl, same⟩
      rcases Option.some.inj same with rfl
      exact ⟨listed, List.mem_filter.mp matching⟩
  · rintro ⟨listed, matching⟩
    refine ⟨row, listed, ?_⟩
    have found : other ∈ second.filter (on row) := List.mem_filter.mpr matching
    split
    next empty =>
        rw [empty] at found
        cases found
    next => exact List.mem_map.mpr ⟨other, found, rfl⟩

/-- The rows of a left join that have none. -/
theorem none_mem_leftJoin
    {first : List Row} {second : List Other} {on : Row → Other → Bool}
    {row : Row} :
    (row, none) ∈ leftJoin first second on ↔
      row ∈ first ∧ ∀ other ∈ second, on row other = false := by
  simp only [leftJoin, List.mem_flatMap]
  constructor
  · rintro ⟨source, listed, member⟩
    split at member
    next empty =>
        rcases Prod.mk.inj (List.mem_singleton.mp member) with ⟨rfl, -⟩
        simpa [List.filter_eq_nil_iff] using And.intro listed empty
    next =>
        rcases List.mem_map.mp member with ⟨found, -, equal⟩
        cases (Prod.mk.inj equal).2
  · rintro ⟨listed, unmatched⟩
    refine ⟨row, listed, ?_⟩
    have empty : second.filter (on row) = [] := by
      simpa [List.filter_eq_nil_iff] using unmatched
    rw [empty]
    exact List.mem_singleton_self _

/-- `RIGHT JOIN`; `none` is the row of NULLs. -/
def rightJoin (first : List Row) (second : List Other)
    (on : Row → Other → Bool) : List (Option Row × Other) :=
  (leftJoin second first fun other row => on row other).map Prod.swap

theorem some_mem_rightJoin
    {first : List Row} {second : List Other} {on : Row → Other → Bool}
    {row : Row} {other : Other} :
    (some row, other) ∈ rightJoin first second on ↔
      row ∈ first ∧ other ∈ second ∧ on row other = true := by
  rw [rightJoin, List.mem_map_swap, some_mem_leftJoin]
  exact and_left_comm

theorem none_mem_rightJoin
    {first : List Row} {second : List Other} {on : Row → Other → Bool}
    {other : Other} :
    (none, other) ∈ rightJoin first second on ↔
      other ∈ second ∧ ∀ row ∈ first, on row other = false := by
  rw [rightJoin, List.mem_map_swap, none_mem_leftJoin]

/-- `FULL JOIN`; `none` is the row of NULLs. -/
def fullJoin (first : List Row) (second : List Other)
    (on : Row → Other → Bool) : List (Option Row × Option Other) :=
  (leftJoin first second on).map (Prod.map some id) ++
    (second.filter fun other => !first.any fun row => on row other).map
      fun other => (none, some other)

theorem some_mem_fullJoin
    {first : List Row} {second : List Other} {on : Row → Other → Bool}
    {row : Row} {partner : Option Other} :
    (some row, partner) ∈ fullJoin first second on ↔
      (row, partner) ∈ leftJoin first second on := by
  simp [fullJoin]

theorem none_mem_fullJoin
    {first : List Row} {second : List Other} {on : Row → Other → Bool}
    {partner : Option Other} :
    (none, partner) ∈ fullJoin first second on ↔
      ∃ other ∈ second, partner = some other ∧
        ∀ row ∈ first, on row other = false := by
  constructor
  · intro member
    rcases List.mem_append.mp member with left | right
    · rcases List.mem_map.mp left with ⟨pair, -, equal⟩
      cases (Prod.mk.inj equal).1
    · rcases List.mem_map.mp right with ⟨other, kept, equal⟩
      rcases List.mem_filter.mp kept with ⟨listed, unmatched⟩
      refine ⟨other, listed, (Prod.mk.inj equal).2.symm, ?_⟩
      simpa using unmatched
  · rintro ⟨other, listed, rfl, unmatched⟩
    apply List.mem_append_right
    refine List.mem_map.mpr ⟨other, List.mem_filter.mpr ⟨listed, ?_⟩, rfl⟩
    simpa using unmatched

end Limestone.Library.Sql
