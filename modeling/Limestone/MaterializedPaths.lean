import Limestone.AclPaths
import Limestone.Library.NestedSet
import Limestone.Library.OrderBy

/-!
# From nested sets to paths: `nested_set_to_materialized_path.rb`

The INSERT joins each row with the rows that enclose it and accumulates their
ids in the order of their left bounds.  What it accumulates are the ids on the
chain of parents, from the root down to the row; the row is refused when the
text of the path does not fit into its column.
-/

namespace Limestone.MaterializedPaths

open Library
open Library.NestedSet
open AclPaths
open DbmsAcl

/-! ## The tables -/

/-- A row of `dav_acl_inheritance`. -/
structure NestedRow where
  resourceId : Id
  parentId : Option Id
  lft : Int
  rgt : Int
deriving DecidableEq, Repr

/-- A root has no parent, or is its own as in the initial table. -/
def IsRoot (row : NestedRow) : Prop :=
  row.parentId = none ∨ row.parentId = some row.resourceId

instance (row : NestedRow) : Decidable (IsRoot row) :=
  inferInstanceAs (Decidable (_ ∨ _))

/--
A well-formed `dav_acl_inheritance`: a nested set in which `parent_id` is the
innermost enclosing row.
-/
structure NestedSet where
  rows : List NestedRow
  /-- `fk_ip_resource`. -/
  resourceIdKey : (rows.map NestedRow.resourceId).Nodup
  isNested : IsNested NestedRow.lft NestedRow.rgt rows
  parent : ∀ row ∈ rows,
    IsOutermost NestedRow.lft NestedRow.rgt rows row ∧ IsRoot row ∨
      ∃ par ∈ rows, IsInnermost NestedRow.lft NestedRow.rgt rows par row ∧
        row.parentId = some par.resourceId

/-! ## The statement -/

/-- The subquery `inheritance`: pairs of `par_res` and `chi_res`. -/
def inheritance (rows : List NestedRow) : List (NestedRow × NestedRow) :=
  Sql.orderBy (fun pair => pair.1.lft)
    ((Sql.crossJoin rows rows).filter fun pair =>
      decide (pair.1.lft ≤ pair.2.lft) && decide (pair.1.rgt ≥ pair.2.rgt))

/-- `array_accum(par_res_id)` for the group of a resource. -/
def arrayAccum (rows : List NestedRow) (resourceId : Id) : List Id :=
  ((inheritance rows).filter fun pair =>
    pair.2.resourceId == resourceId).map fun pair => pair.1.resourceId

/-- The rows of the SELECT, one for each group. -/
def selected (rows : List NestedRow) : List AclRow :=
  ((inheritance rows).map fun pair => pair.2.resourceId).dedup.map
    fun resourceId => ⟨resourceId, pathText (arrayAccum rows resourceId)⟩

theorem nodup_selected (rows : List NestedRow) :
    ((selected rows).map AclRow.resourceId).Nodup := by
  rw [selected, List.map_map, Function.comp_def, List.map_id']
  exact List.nodup_dedup _

/--
The INSERT into the new table; it is refused when a path is too long for its
column.
-/
def nestedSetToMaterializedPath (rows : List NestedRow) : Option AclTable :=
  if (selected rows).any fun row => tooLong row.path then none
  else some { rows := selected rows, pkey := nodup_selected rows }

/-! ## The two representations -/

/-- The ids on the chain of parents, from the root down to the row. -/
inductive Ancestry (rows : List NestedRow) : NestedRow → List Id → Prop
  | root {row : NestedRow} :
      row ∈ rows → IsRoot row → Ancestry rows row [row.resourceId]
  | child {parent row : NestedRow} {ids : List Id} :
      row ∈ rows → parent ∈ rows → parent ≠ row →
      row.parentId = some parent.resourceId → Ancestry rows parent ids →
        Ancestry rows row (ids ++ [row.resourceId])

/-- In the old table the interval of an ancestor holds that of the row. -/
def AncestorBefore (par chi : NestedRow) : Prop :=
  Encloses NestedRow.lft NestedRow.rgt par chi

/-- In the new table the id of an ancestor is listed in the path. -/
def AncestorAfter (table : AclTable) (par chi : Id) : Prop :=
  ∃ row ∈ table.rows, row.resourceId = chi ∧
    idText par ∈ Segments.tokens ',' row.path

/-- Every resource has its path, and the ancestors are the same. -/
structure Migrated (rows : List NestedRow) (table : AclTable) : Prop where
  resources : ∀ id, id ∈ table.rows.map AclRow.resourceId ↔
    id ∈ rows.map NestedRow.resourceId
  path : ∀ row ∈ rows, ∃ ids, Ancestry rows row ids ∧
    (⟨row.resourceId, pathText ids⟩ : AclRow) ∈ table.rows
  ancestor : ∀ par ∈ rows, ∀ chi ∈ rows,
    AncestorAfter table par.resourceId chi.resourceId ↔ AncestorBefore par chi

/-- The migration is done, and right. -/
def Migrates (rows : List NestedRow) : Prop :=
  ∃ table, nestedSetToMaterializedPath rows = some table ∧ Migrated rows table

/-! ## The chain of parents -/

variable {set : NestedSet} {row par chi : NestedRow} {ids : List Id}

theorem eq_of_resourceId
    (parMem : par ∈ set.rows)
    (chiMem : chi ∈ set.rows)
    (same : par.resourceId = chi.resourceId) :
    par = chi :=
  List.inj_on_of_nodup_map set.resourceIdKey parMem chiMem same

/-- The parent in the table is the innermost row around a row. -/
theorem isInnermost_of_parent
    (chiMem : chi ∈ set.rows)
    (parMem : par ∈ set.rows)
    (ne : par ≠ chi)
    (parent : chi.parentId = some par.resourceId) :
    IsInnermost NestedRow.lft NestedRow.rgt set.rows par chi := by
  rcases set.parent chi chiMem with
    ⟨-, none | own⟩ | ⟨other, otherMem, innermost, named⟩
  · rw [parent] at none
    cases none
  · rw [parent] at own
    exact (ne (eq_of_resourceId parMem chiMem (Option.some.inj own))).elim
  · rw [parent] at named
    rw [eq_of_resourceId parMem otherMem (Option.some.inj named)]
    exact innermost

theorem isOutermost_of_root
    (mem : row ∈ set.rows)
    (root : IsRoot row) :
    IsOutermost NestedRow.lft NestedRow.rgt set.rows row := by
  rcases set.parent row mem with
    ⟨outermost, -⟩ | ⟨other, otherMem, innermost, named⟩
  · exact outermost
  · rcases root with none | own
    · rw [named] at none
      cases none
    · rw [named] at own
      have same := eq_of_resourceId otherMem mem (Option.some.inj own)
      exact (innermost.ne same).elim

/-- The chain of parents is the line of the row in the nested set. -/
theorem Ancestry.exists_line (ancestry : Ancestry set.rows row ids) :
    ∃ line, IsLine NestedRow.lft NestedRow.rgt set.rows row line ∧
      ids = line.map NestedRow.resourceId := by
  induction ancestry with
  | root mem root =>
      exact ⟨[_], IsLine.singleton (isOutermost_of_root mem root) mem, rfl⟩
  | child mem parentMem ne parent _ induction =>
      rcases induction with ⟨line, isLine, rfl⟩
      refine ⟨_, isLine.concat set.isNested
        (isInnermost_of_parent mem parentMem ne parent) mem, ?_⟩
      rw [List.map_append]
      rfl

/-- Every row has a chain of parents. -/
theorem exists_ancestry (mem : row ∈ set.rows) :
    ∃ ids, Ancestry set.rows row ids := by
  apply set.isNested.induction_innermost (P := fun row =>
    ∃ ids, Ancestry set.rows row ids) _ mem
  intro chi chiMem inner
  rcases set.parent chi chiMem with
    ⟨-, root⟩ | ⟨par, parMem, innermost, parent⟩
  · exact ⟨_, Ancestry.root chiMem root⟩
  · rcases inner par innermost with ⟨ids, ancestry⟩
    exact ⟨_, ancestry.child chiMem parMem innermost.ne parent⟩

/-! ## What the statement accumulates -/

theorem mem_inheritance (rows : List NestedRow) :
    (par, chi) ∈ inheritance rows ↔
      par ∈ rows ∧ chi ∈ rows ∧ AncestorBefore par chi := by
  rw [inheritance, Sql.mem_orderBy, List.mem_filter, Sql.mem_crossJoin,
    Bool.and_eq_true, decide_eq_true_iff, decide_eq_true_iff, and_assoc]
  rfl

theorem nodup_inheritance (set : NestedSet) :
    (inheritance set.rows).Nodup := by
  have nodup : set.rows.Nodup := set.resourceIdKey.of_map
  exact (List.perm_insertionSort _ _).nodup_iff.mpr
    ((Sql.nodup_crossJoin nodup nodup).filter _)

theorem ordered_inheritance (rows : List NestedRow) :
    (inheritance rows).Pairwise fun first second =>
      first.1.lft ≤ second.1.lft :=
  Sql.orderBy_pairwise _ _

/-- The group of a row is its line. -/
theorem isLine_group
    (mem : chi ∈ set.rows) :
    IsLine NestedRow.lft NestedRow.rgt set.rows chi
      (((inheritance set.rows).filter fun pair =>
        pair.2.resourceId == chi.resourceId).map Prod.fst) where
  sorted := by
    rw [List.pairwise_map]
    apply (((ordered_inheritance set.rows).and
      (nodup_inheritance set)).filter _).imp_of_mem
    rintro ⟨first, firstChi⟩ ⟨second, secondChi⟩ firstMem secondMem
      ⟨le, ne⟩
    rw [List.mem_filter, mem_inheritance, beq_iff_eq] at firstMem secondMem
    rcases firstMem with ⟨⟨firstRow, firstChiRow, -⟩, firstSame⟩
    rcases secondMem with ⟨⟨secondRow, secondChiRow, -⟩, secondSame⟩
    apply lt_of_le_of_ne le
    intro same
    apply ne
    rw [set.isNested.eq_of_lft firstRow secondRow same,
      eq_of_resourceId firstChiRow secondChiRow
        (firstSame.trans secondSame.symm)]
  mem_iff := by
    intro par
    rw [List.mem_map]
    constructor
    · rintro ⟨⟨first, second⟩, member, rfl⟩
      rw [List.mem_filter, mem_inheritance, beq_iff_eq] at member
      rcases member with ⟨⟨firstMem, secondMem, before⟩, same⟩
      rw [← eq_of_resourceId secondMem mem same]
      exact ⟨firstMem, before⟩
    · rintro ⟨parMem, before⟩
      refine ⟨(par, chi), ?_, rfl⟩
      rw [List.mem_filter, mem_inheritance, beq_iff_eq]
      exact ⟨⟨parMem, mem, before⟩, rfl⟩

theorem Ancestry.mem (ancestry : Ancestry set.rows row ids) :
    row ∈ set.rows := by
  cases ancestry with
  | root mem _ => exact mem
  | child mem _ _ _ _ => exact mem

/-- What is accumulated for a row is its chain of parents. -/
theorem Ancestry.arrayAccum_eq (ancestry : Ancestry set.rows row ids) :
    arrayAccum set.rows row.resourceId = ids := by
  rcases ancestry.exists_line with ⟨line, isLine, rfl⟩
  rw [← (isLine_group ancestry.mem).unique isLine, List.map_map]
  rfl

/-- There is one chain of parents, and it has the rows that enclose. -/
theorem Ancestry.mem_iff
    (ancestry : Ancestry set.rows chi ids)
    (parMem : par ∈ set.rows) :
    par.resourceId ∈ ids ↔ AncestorBefore par chi := by
  rcases ancestry.exists_line with ⟨line, isLine, rfl⟩
  constructor
  · intro member
    rcases List.mem_map.mp member with ⟨other, otherMem, same⟩
    rw [isLine.mem_iff] at otherMem
    rw [← eq_of_resourceId otherMem.1 parMem same]
    exact otherMem.2
  · intro before
    exact List.mem_map_of_mem ((isLine.mem_iff par).mpr ⟨parMem, before⟩)

/-- A row of the SELECT is the path of a row of the old table. -/
theorem mem_selected {new : AclRow} :
    new ∈ selected set.rows ↔ ∃ row ids, Ancestry set.rows row ids ∧
      new = ⟨row.resourceId, pathText ids⟩ := by
  rw [selected, List.mem_map]
  constructor
  · rintro ⟨id, member, rfl⟩
    rw [List.mem_dedup, List.mem_map] at member
    rcases member with ⟨⟨par, chi⟩, member, rfl⟩
    rw [mem_inheritance] at member
    rcases exists_ancestry member.2.1 with ⟨ids, ancestry⟩
    exact ⟨chi, ids, ancestry, by rw [ancestry.arrayAccum_eq]⟩
  · rintro ⟨row, ids, ancestry, rfl⟩
    refine ⟨row.resourceId, ?_, by rw [ancestry.arrayAccum_eq]⟩
    rw [List.mem_dedup, List.mem_map]
    refine ⟨(row, row), ?_, rfl⟩
    rw [mem_inheritance]
    exact ⟨ancestry.mem, ancestry.mem, encloses_self row⟩

/-! ## The migration -/

/-- A path fits into its column. -/
def Fits (rows : List NestedRow) : Prop :=
  ∀ row ids, Ancestry rows row ids → (pathText ids).length ≤ 255

theorem tooLong_selected_iff (set : NestedSet) :
    ((selected set.rows).any fun row => tooLong row.path) = false ↔
      Fits set.rows := by
  rw [List.any_eq_false]
  constructor
  · intro short row ids ancestry
    have fits := short _ (mem_selected.mpr ⟨row, ids, ancestry, rfl⟩)
    rw [tooLong, decide_eq_true_iff, not_lt] at fits
    exact fits
  · intro fits new member
    rcases mem_selected.mp member with ⟨row, ids, ancestry, rfl⟩
    rw [tooLong, decide_eq_true_iff, not_lt]
    exact fits row ids ancestry

/-- What the SELECT gives is right for every nested set. -/
theorem migrated_selected (set : NestedSet) :
    Migrated set.rows
      { rows := selected set.rows, pkey := nodup_selected set.rows } where
  resources := by
    intro id
    constructor
    · intro member
      rcases List.mem_map.mp member with ⟨new, newMem, rfl⟩
      rcases mem_selected.mp newMem with ⟨row, ids, ancestry, rfl⟩
      exact List.mem_map_of_mem ancestry.mem
    · intro member
      rcases List.mem_map.mp member with ⟨row, rowMem, rfl⟩
      rcases exists_ancestry rowMem with ⟨ids, ancestry⟩
      exact List.mem_map.mpr
        ⟨_, mem_selected.mpr ⟨row, ids, ancestry, rfl⟩, rfl⟩
  path := by
    intro row mem
    rcases exists_ancestry mem with ⟨ids, ancestry⟩
    exact ⟨ids, ancestry, mem_selected.mpr ⟨row, ids, ancestry, rfl⟩⟩
  ancestor := by
    intro par parMem chi chiMem
    constructor
    · rintro ⟨new, newMem, same, listed⟩
      rcases mem_selected.mp newMem with ⟨row, ids, ancestry, rfl⟩
      rw [tokens_pathText, List.mem_map_of_injective idText_injective]
        at listed
      rw [← eq_of_resourceId ancestry.mem chiMem same]
      exact (ancestry.mem_iff parMem).mp listed
    · intro before
      rcases exists_ancestry chiMem with ⟨ids, ancestry⟩
      refine ⟨_, mem_selected.mpr ⟨chi, ids, ancestry, rfl⟩, rfl, ?_⟩
      rw [tokens_pathText, List.mem_map_of_injective idText_injective]
      exact (ancestry.mem_iff parMem).mpr before

/-- The migration is right iff every path fits into the column. -/
theorem migrates_iff (set : NestedSet) :
    Migrates set.rows ↔ Fits set.rows := by
  rw [← tooLong_selected_iff]
  constructor
  · rintro ⟨table, done, -⟩
    rw [nestedSetToMaterializedPath] at done
    split at done
    case isTrue => cases done
    case isFalse short => exact Bool.eq_false_of_not_eq_true short
  · intro short
    refine ⟨_, ?_, migrated_selected set⟩
    rw [nestedSetToMaterializedPath, short, if_neg Bool.false_ne_true]

/-! ## A deep collection -/

/-- Resources with ids of ten digits, each the parent of the next. -/
def deepRows : List NestedRow :=
  (List.range 24).map fun level =>
    { resourceId := 2147483600 + level
      parentId := if level = 0 then none else some (2147483599 + level)
      lft := level
      rgt := 100 - level }

theorem nodup_deepRows : (deepRows.map NestedRow.resourceId).Nodup := by
  decide

theorem isNested_deepRows :
    IsNested NestedRow.lft NestedRow.rgt deepRows where
  distinct := by decide
  proper := by decide
  nested := by decide

theorem parent_deepRows : ∀ row ∈ deepRows,
    IsOutermost NestedRow.lft NestedRow.rgt deepRows row ∧ IsRoot row ∨
      ∃ par ∈ deepRows,
        IsInnermost NestedRow.lft NestedRow.rgt deepRows par row ∧
          row.parentId = some par.resourceId := by
  decide +kernel

def deepSet : NestedSet where
  rows := deepRows
  resourceIdKey := nodup_deepRows
  isNested := isNested_deepRows
  parent := parent_deepRows

/-- The INSERT is refused. -/
theorem not_migrates : ¬ Migrates deepSet.rows := by
  have refused : (nestedSetToMaterializedPath deepRows).isNone := by
    decide +kernel
  rintro ⟨table, done, -⟩
  rw [show deepSet.rows = deepRows from rfl] at done
  rw [done] at refused
  cases refused

end Limestone.MaterializedPaths
