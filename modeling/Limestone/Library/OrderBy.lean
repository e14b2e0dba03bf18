import Mathlib.Data.List.Sort

/-!
# `ORDER BY`, `LIMIT 1` and `DISTINCT ON`

A query that decides by the first match sorts its rows by a key.  The first
row is one with the least key; `DISTINCT ON` keeps the first row of each group
of the sorted rows.
-/

namespace Limestone.Library.Sql

variable {Row Other Key Group : Type*} [LinearOrder Key]

/-- Of the rows that qualify, one with the least key. -/
structure IsFirst (key : Row → Key) (among : Row → Prop) (row : Row) :
    Prop where
  qualifies : among row
  least : ∀ other, among other → key row ≤ key other

/-- `ORDER BY`. -/
def orderBy (key : Row → Key) (rows : List Row) : List Row :=
  rows.insertionSort fun first second => key first ≤ key second

/-- `LIMIT 1`. -/
def limitOne (rows : List Row) : Option Row :=
  rows.head?

/-- `DISTINCT ON`: of the rows of a group the first. -/
def distinctOn [DecidableEq Group] (group : Row → Group) : List Row → List Row
  | [] => []
  | row :: rows =>
      row :: (distinctOn group rows).filter fun other =>
        !decide (group other = group row)

section OrderBy

variable {key : Row → Key} {rows : List Row} {row : Row}

@[simp]
theorem mem_orderBy : row ∈ orderBy key rows ↔ row ∈ rows :=
  List.mem_insertionSort _

theorem orderBy_pairwise (key : Row → Key) (rows : List Row) :
    (orderBy key rows).Pairwise fun first second =>
      key first ≤ key second := by
  have total : Std.Total fun first second : Row => key first ≤ key second :=
    ⟨fun first second => le_total (key first) (key second)⟩
  have trans : IsTrans Row fun first second => key first ≤ key second :=
    ⟨fun _ _ _ => le_trans⟩
  exact List.pairwise_insertionSort _ rows

/-- What is inserted into rows keeps one of them before greater ones. -/
theorem orderedInsert_split
    (first : Row) {before behind : List Row}
    (greater : ∀ other ∈ behind, key row < key other) :
    ∃ newBefore newBehind,
      List.orderedInsert (fun first second => key first ≤ key second) first
          (before ++ row :: behind) = newBefore ++ row :: newBehind ∧
        ∀ other ∈ newBehind, key row < key other := by
  induction before with
  | nil =>
      rw [List.nil_append, List.orderedInsert_cons]
      split
      next => exact ⟨[first], behind, rfl, greater⟩
      next greaterFirst =>
          refine ⟨[], _, rfl, ?_⟩
          intro other member
          rcases (List.mem_orderedInsert _).mp member with rfl | old
          · exact not_le.mp greaterFirst
          · exact greater other old
  | cons head before induction =>
      rw [List.cons_append, List.orderedInsert_cons]
      split
      next => exact ⟨first :: head :: before, behind, rfl, greater⟩
      next =>
          rcases induction with ⟨newBefore, newBehind, split, kept⟩
          exact ⟨head :: newBefore, newBehind, by rw [split]; rfl, kept⟩

/-- The sort is stable: the last row stays behind the rows with its key. -/
theorem orderBy_concat (key : Row → Key) (rows : List Row) (row : Row) :
    ∃ before behind, orderBy key (rows ++ [row]) = before ++ row :: behind ∧
      ∀ other ∈ behind, key row < key other := by
  induction rows with
  | nil => exact ⟨[], [], rfl, nofun⟩
  | cons first rows induction =>
      rcases induction with ⟨before, behind, split, greater⟩
      rcases orderedInsert_split first greater with
        ⟨newBefore, newBehind, inserted, kept⟩
      refine ⟨newBefore, newBehind, ?_, kept⟩
      rw [← inserted, ← split]
      rfl

theorem limitOne_orderBy_eq_none :
    limitOne (orderBy key rows) = none ↔ rows = [] := by
  rw [limitOne, List.head?_eq_none_iff, List.eq_nil_iff_forall_not_mem,
    List.eq_nil_iff_forall_not_mem]
  simp only [mem_orderBy]

/-- The first row of a sorted query. -/
theorem isFirst_of_limitOne
    (found : limitOne (orderBy key rows) = some row) :
    IsFirst key (fun row => row ∈ rows) row := by
  have sorted := orderBy_pairwise key rows
  constructor
  · exact mem_orderBy.mp (List.mem_of_head? found)
  · intro other member
    have listed : other ∈ orderBy key rows := mem_orderBy.mpr member
    rw [limitOne] at found
    cases order : orderBy key rows with
    | nil =>
        rw [order] at found
        cases found
    | cons head tail =>
        rw [order] at found sorted listed
        rcases Option.some.inj found with rfl
        rcases List.mem_cons.mp listed with rfl | later
        · exact le_rfl
        · exact List.rel_of_pairwise_cons sorted later

/-- A sorted query has a first row if it has a row. -/
theorem exists_limitOne
    (member : row ∈ rows) :
    ∃ first, limitOne (orderBy key rows) = some first := by
  cases found : limitOne (orderBy key rows) with
  | none =>
      rw [limitOne_orderBy_eq_none.mp found] at member
      cases member
  | some first => exact ⟨first, rfl⟩

/-- In sorted rows the first that satisfies a condition is first of these. -/
theorem isFirst_of_find
    {condition : Row → Bool}
    (sorted : rows.Pairwise fun first second => key first ≤ key second)
    (found : rows.find? condition = some row) :
    IsFirst key (fun row => row ∈ rows ∧ condition row = true) row := by
  rcases List.find?_eq_some_iff_append.mp found with
    ⟨met, before, behind, split, others⟩
  constructor
  · exact ⟨List.mem_of_find?_eq_some found, met⟩
  · rintro other ⟨member, otherMet⟩
    rw [split] at sorted member
    rcases List.mem_append.mp member with early | late
    · have unmet := others other early
      rw [otherMet] at unmet
      cases unmet
    · rcases List.mem_cons.mp late with rfl | later
      · exact le_rfl
      · have rest := (List.pairwise_append.mp sorted).2.1
        exact List.rel_of_pairwise_cons rest later

/-- First rows of one query have the same key. -/
theorem IsFirst.key_eq
    {among : Row → Prop} {other : Row}
    (first : IsFirst key among row)
    (second : IsFirst key among other) :
    key row = key other :=
  le_antisymm (first.least other second.qualifies)
    (second.least row first.qualifies)

end OrderBy

section DistinctOn

variable [DecidableEq Group] {group : Row → Group} {key : Row → Key}
  {rows : List Row} {row other : Row}

theorem mem_of_mem_distinctOn (member : row ∈ distinctOn group rows) :
    row ∈ rows := by
  induction rows with
  | nil => exact member
  | cons head tail induction =>
      rcases List.mem_cons.mp member with rfl | later
      · exact List.mem_cons_self
      · exact List.mem_cons_of_mem _ (induction (List.mem_of_mem_filter later))

/-- The rows that are kept belong to different groups, in order. -/
theorem distinctOn_pairwise
    {relation : Row → Row → Prop} (sorted : rows.Pairwise relation) :
    (distinctOn group rows).Pairwise fun first second =>
      relation first second ∧ group second ≠ group first := by
  induction rows with
  | nil => exact List.Pairwise.nil
  | cons head tail induction =>
      rw [List.pairwise_cons] at sorted
      rw [distinctOn, List.pairwise_cons]
      constructor
      · intro second member
        rw [List.mem_filter, Bool.not_eq_true', decide_eq_false_iff_not]
          at member
        exact ⟨sorted.1 second (mem_of_mem_distinctOn member.1), member.2⟩
      · exact (induction sorted.2).filter _

/-- A row that is kept is first in its group. -/
theorem least_of_mem_distinctOn
    (sorted : rows.Pairwise fun first second => key first ≤ key second)
    (kept : row ∈ distinctOn group rows)
    (member : other ∈ rows)
    (same : group other = group row) :
    key row ≤ key other := by
  induction rows with
  | nil => cases member
  | cons head tail induction =>
      rw [List.pairwise_cons] at sorted
      rcases List.mem_cons.mp kept with rfl | later
      · rcases List.mem_cons.mp member with rfl | inTail
        · exact le_rfl
        · exact sorted.1 other inTail
      · rw [List.mem_filter, Bool.not_eq_true', decide_eq_false_iff_not]
          at later
        rcases List.mem_cons.mp member with rfl | inTail
        · exact (later.2 same.symm).elim
        · exact induction sorted.2 later.1 inTail

/-- Every group keeps a row. -/
theorem exists_mem_distinctOn (member : other ∈ rows) :
    ∃ row ∈ distinctOn group rows, group row = group other := by
  induction rows with
  | nil => cases member
  | cons head tail induction =>
      rcases List.mem_cons.mp member with rfl | later
      · exact ⟨other, List.mem_cons_self, rfl⟩
      · rcases induction later with ⟨row, kept, same⟩
        by_cases headGroup : group row = group head
        · exact ⟨head, List.mem_cons_self, headGroup.symm.trans same⟩
        · refine ⟨row, List.mem_cons_of_mem _ ?_, same⟩
          rw [List.mem_filter, Bool.not_eq_true', decide_eq_false_iff_not]
          exact ⟨kept, headGroup⟩

end DistinctOn

end Limestone.Library.Sql
