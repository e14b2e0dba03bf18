import Limestone.DbmsPrincipal
import Limestone.Library.TrailCount

/-!
# The transitive group table counts membership paths

`group_members` is read as a directed graph and `transitive_group_members` is
consistent with it when it holds the number of membership paths of every
connected pair and nothing else.

The two calls of `principal.c` change the count of a pair by one product.  In
a consistent table the subqueries of that product can only be evaluated when
every factor of it is one, so that an update which succeeds is right.  What
breaks the table is the removal of a principal that is no direct member, and
the second addition of one that is.
-/

namespace Limestone.GroupClosure

open Library
open DbmsPrincipal

/-! ## The membership graph -/

/-- `group_members` as a graph: an arrow leads from a group to a member. -/
def membership (tables : GroupTables) : Multigraph Id GroupMember where
  source := GroupMember.groupId
  target := GroupMember.memberId
  Arrow := fun row => row ∈ tables.groupMembers

@[simp]
theorem membership_source (tables : GroupTables) (row : GroupMember) :
    (membership tables).source row = row.groupId :=
  rfl

@[simp]
theorem membership_target (tables : GroupTables) (row : GroupMember) :
    (membership tables).target row = row.memberId :=
  rfl

@[simp]
theorem membership_arrow (tables : GroupTables) (row : GroupMember) :
    (membership tables).Arrow row ↔ row ∈ tables.groupMembers :=
  Iff.rfl

/-- The transitive table holds the exact path count of each connected pair. -/
structure Consistent (tables : GroupTables) : Prop where
  acyclic : (membership tables).Acyclic
  oneRow : (tables.transitiveGroupMembers.map (·.key)).Nodup
  count : ∀ row ∈ tables.transitiveGroupMembers,
    0 < row.transitiveCount ∧
      (membership tables).pathCount row.transitiveGroupId
          row.transitiveMemberId =
        (row.transitiveCount.toNat : ℕ∞)
  complete : ∀ groupId memberId,
    ((membership tables).paths groupId memberId).Nonempty →
      ∃ row ∈ tables.transitiveGroupMembers, row.key = (groupId, memberId)

namespace Consistent

variable {tables : GroupTables} {grpId prinId groupId memberId : Id}
  {row : TransitiveGroupMember}

/-- A row stands for a connected pair. -/
theorem paths_nonempty
    (consistent : Consistent tables)
    (member : row ∈ tables.transitiveGroupMembers) :
    ((membership tables).paths row.transitiveGroupId
      row.transitiveMemberId).Nonempty := by
  rcases consistent.count row member with ⟨positive, count⟩
  rw [Set.nonempty_iff_ne_empty]
  intro empty
  rw [Multigraph.pathCount_eq_zero.mpr empty] at count
  have zero : row.transitiveCount.toNat = 0 := by
    exact_mod_cast count.symm
  omega

theorem reaches
    (consistent : Consistent tables)
    (member : row ∈ tables.transitiveGroupMembers) :
    (membership tables).Reaches row.transitiveGroupId
      row.transitiveMemberId := by
  rcases consistent.paths_nonempty member with ⟨arrows, trail, -⟩
  exact trail.reaches

/-- A row is about two different principals. -/
theorem distinct
    (consistent : Consistent tables)
    (member : row ∈ tables.transitiveGroupMembers) :
    row.transitiveGroupId ≠ row.transitiveMemberId := by
  intro equal
  have path := consistent.paths_nonempty member
  rw [equal, consistent.acyclic] at path
  exact Set.not_nonempty_empty path

theorem row_eq_of_key_eq
    (consistent : Consistent tables)
    {other : TransitiveGroupMember}
    (member : row ∈ tables.transitiveGroupMembers)
    (otherMember : other ∈ tables.transitiveGroupMembers)
    (key : row.key = other.key) :
    row = other :=
  List.inj_on_of_nodup_map consistent.oneRow member otherMember key

/-- Connected pairs of different principals are the pairs of the table. -/
theorem reaches_iff
    (consistent : Consistent tables) :
    (membership tables).Reaches groupId memberId ↔
      groupId = memberId ∨
        ∃ row ∈ tables.transitiveGroupMembers,
          row.key = (groupId, memberId) := by
  constructor
  · intro reaches
    exact reaches.eq_or_paths_nonempty.imp_right
      (consistent.complete groupId memberId)
  · rintro (rfl | ⟨row, member, key⟩)
    · exact Multigraph.Reaches.refl _ _
    · rcases Prod.mk.inj key with ⟨rfl, rfl⟩
      exact consistent.reaches member

theorem mem_grpAndParents
    (consistent : Consistent tables) :
    groupId ∈ grpAndParents tables.transitiveGroupMembers grpId ↔
      (membership tables).Reaches groupId grpId := by
  rw [consistent.reaches_iff]
  simp only [grpAndParents, Sql.mem_union, List.mem_map, List.mem_filter,
    beq_iff_eq, List.mem_singleton, TransitiveGroupMember.key,
    Prod.mk.injEq]
  constructor
  · rintro (⟨row, ⟨member, rfl⟩, rfl⟩ | rfl)
    · exact Or.inr ⟨row, member, rfl, rfl⟩
    · exact Or.inl rfl
  · rintro (rfl | ⟨row, member, rfl, rfl⟩)
    · exact Or.inr rfl
    · exact Or.inl ⟨row, ⟨member, rfl⟩, rfl⟩

theorem mem_prinAndMembers
    (consistent : Consistent tables) :
    memberId ∈ prinAndMembers tables.transitiveGroupMembers prinId ↔
      (membership tables).Reaches prinId memberId := by
  rw [consistent.reaches_iff]
  simp only [prinAndMembers, Sql.mem_union, List.mem_map, List.mem_filter,
    beq_iff_eq, List.mem_singleton, TransitiveGroupMember.key,
    Prod.mk.injEq]
  constructor
  · rintro (⟨row, ⟨member, rfl⟩, rfl⟩ | rfl)
    · exact Or.inr ⟨row, member, rfl, rfl⟩
    · exact Or.inl rfl
  · rintro (rfl | ⟨row, member, rfl, rfl⟩)
    · exact Or.inr rfl
    · exact Or.inl ⟨row, ⟨member, rfl⟩, rfl⟩

/-- The statements concern the pairs that the arrow `grp → prin` connects. -/
theorem mem_affectedPairs
    (consistent : Consistent tables) :
    (groupId, memberId) ∈
        affectedPairs tables.transitiveGroupMembers grpId prinId ↔
      (membership tables).Reaches groupId grpId ∧
        (membership tables).Reaches prinId memberId := by
  rw [affectedPairs, Sql.mem_crossJoin, consistent.mem_grpAndParents,
    consistent.mem_prinAndMembers]

/-- Every row counts the trails of its pair. -/
theorem trailCount_eq
    (consistent : Consistent tables)
    (member : row ∈ tables.transitiveGroupMembers) :
    (membership tables).trailCount row.transitiveGroupId
        row.transitiveMemberId =
      (row.transitiveCount.toNat : ℕ∞) := by
  rw [Multigraph.trailCount_of_ne (consistent.distinct member)]
  exact (consistent.count row member).2

/-- Consistency from the counts of the trails between different principals. -/
theorem of_trailCount
    (acyclic : (membership tables).Acyclic)
    (oneRow : (tables.transitiveGroupMembers.map (·.key)).Nodup)
    (count : ∀ row ∈ tables.transitiveGroupMembers,
      row.transitiveGroupId ≠ row.transitiveMemberId ∧
        0 < row.transitiveCount ∧
        (membership tables).trailCount row.transitiveGroupId
            row.transitiveMemberId =
          (row.transitiveCount.toNat : ℕ∞))
    (complete : ∀ groupId memberId, groupId ≠ memberId →
      (membership tables).Reaches groupId memberId →
        ∃ row ∈ tables.transitiveGroupMembers,
          row.key = (groupId, memberId)) :
    Consistent tables where
  acyclic := acyclic
  oneRow := oneRow
  count := by
    intro row member
    rcases count row member with ⟨distinct, positive, exact⟩
    rw [← Multigraph.trailCount_of_ne distinct]
    exact ⟨positive, exact⟩
  complete := by
    rintro groupId memberId ⟨arrows, path⟩
    refine complete groupId memberId ?_ path.1.reaches
    rintro rfl
    have cycle : arrows ∈ (membership tables).paths groupId groupId := path
    rw [acyclic] at cycle
    exact cycle

/-! ## The guards -/

theorem dbmsIsPrinInGrp_eq_zero :
    dbmsIsPrinInGrp tables prinId grpId = 0 ↔
      ⟨grpId, prinId⟩ ∉ tables.groupMembers := by
  simp only [dbmsIsPrinInGrp]
  constructor
  · intro zero present
    rw [if_neg] at zero
    · exact absurd zero (by decide)
    · rw [List.isEmpty_iff, List.filter_eq_nil_iff]
      intro none
      exact none _ present (by simp)
  · intro absent
    rw [if_pos]
    rw [List.isEmpty_iff, List.filter_eq_nil_iff]
    rintro ⟨groupId, memberId⟩ member found
    rw [Bool.and_eq_true, beq_iff_eq, beq_iff_eq] at found
    rcases found with ⟨rfl, rfl⟩
    exact absent member

/-- The loop check asks whether the principal leads back to the group. -/
theorem dbmsWillLoopPrinAddGrp_eq_zero
    (consistent : Consistent tables) :
    dbmsWillLoopPrinAddGrp tables grpId prinId = 0 ↔
      ¬ (membership tables).Reaches prinId grpId := by
  have positive : ∀ row ∈ tables.transitiveGroupMembers,
      decide (row.transitiveCount > 0) = true :=
    fun row member => decide_eq_true (consistent.count row member).1
  have parents : tables.transitiveGroupMembers.filter (fun row =>
      row.transitiveMemberId == grpId &&
        decide (row.transitiveCount > 0)) =
      tables.transitiveGroupMembers.filter fun row =>
        row.transitiveMemberId == grpId :=
    List.filter_congr fun row member => by
      rw [positive row member, Bool.and_true]
  have members : tables.transitiveGroupMembers.filter (fun row =>
      row.transitiveGroupId == prinId &&
        decide (row.transitiveCount > 0)) =
      tables.transitiveGroupMembers.filter fun row =>
        row.transitiveGroupId == prinId :=
    List.filter_congr fun row member => by
      rw [positive row member, Bool.and_true]
  have joined : dbmsWillLoopPrinAddGrp tables grpId prinId =
      if ((Sql.crossJoin (grpAndParents tables.transitiveGroupMembers grpId)
        (prinAndMembers tables.transitiveGroupMembers prinId)).filter
          fun pair => pair.1 == pair.2).isEmpty then 0 else 1 := by
    simp only [dbmsWillLoopPrinAddGrp, parents, members]
    rfl
  rw [joined]
  constructor
  · intro zero leadsBack
    rw [if_neg] at zero
    · exact absurd zero (by decide)
    · rw [List.isEmpty_iff, List.filter_eq_nil_iff]
      intro none
      refine none (grpId, grpId) ?_ (by simp)
      exact consistent.mem_affectedPairs.mpr
        ⟨Multigraph.Reaches.refl _ _, leadsBack⟩
  · intro forward
    rw [if_pos]
    rw [List.isEmpty_iff, List.filter_eq_nil_iff]
    rintro ⟨groupId, memberId⟩ member equal
    have same : groupId = memberId := beq_iff_eq.mp equal
    rcases consistent.mem_affectedPairs.mp member with ⟨before, after⟩
    exact forward (after.trans (same ▸ before))

/-! ## The product of the updates -/

/-- The row of a direct member. -/
theorem row_of_member
    (consistent : Consistent tables)
    {direct : GroupMember}
    (present : direct ∈ tables.groupMembers) :
    ∃ row ∈ tables.transitiveGroupMembers,
      row.key = (direct.groupId, direct.memberId) :=
  consistent.complete _ _
    (Multigraph.paths_nonempty_iff.mpr
      ⟨direct, present, rfl, Multigraph.Reaches.refl _ _⟩)

/-- With one parent at most, one trail leads from any parent to the group. -/
theorem trailCount_to_grp
    (consistent : Consistent tables)
    (oneParent : ∀ row ∈ tables.transitiveGroupMembers,
      ∀ other ∈ tables.transitiveGroupMembers,
        row.transitiveMemberId = grpId →
          other.transitiveMemberId = grpId → row = other)
    (reaches : (membership tables).Reaches groupId grpId) :
    (membership tables).trailCount groupId grpId = 1 := by
  by_cases same : groupId = grpId
  · rw [same]
    exact consistent.acyclic.trailCount_self
  have only : ∀ arrows,
      (membership tables).Trail groupId arrows grpId →
        arrows = [(⟨groupId, grpId⟩ : GroupMember)] := by
    intro arrows trail
    cases arrows with
    | nil => exact (same trail).elim
    | cons direct rest =>
        rcases trail with ⟨present, rfl, trail⟩
        by_cases last : direct.memberId = grpId
        · have empty : rest = [] :=
            consistent.acyclic.eq_nil_of_trail
              (by simpa [last] using trail)
          rw [empty, ← last]
          rfl
        · -- a second parent below the first one would be a loop
          rcases consistent.reaches_iff.mp
            (Multigraph.Reaches.head present trail.reaches) with
            equal | ⟨far, farMember, farKey⟩
          · exact (same equal).elim
          rcases consistent.reaches_iff.mp trail.reaches with
            equal | ⟨near, nearMember, nearKey⟩
          · exact (last equal).elim
          rcases Prod.mk.inj farKey with ⟨farGroup, farGrp⟩
          rcases Prod.mk.inj nearKey with ⟨nearGroup, nearGrp⟩
          have equal := oneParent far farMember near nearMember farGrp nearGrp
          have loop : (membership tables).Reaches
              ((membership tables).target direct)
              ((membership tables).source direct) := by
            rw [← nearGroup, ← equal, farGroup]
            exact Multigraph.Reaches.refl _ _
          exact (consistent.acyclic.not_reaches_back present loop).elim
  exact Multigraph.trailCount_eq_one reaches only

/-- With one member at most, one trail leads from the principal to it. -/
theorem trailCount_frm_prin
    (consistent : Consistent tables)
    (oneMember : ∀ row ∈ tables.transitiveGroupMembers,
      ∀ other ∈ tables.transitiveGroupMembers,
        row.transitiveGroupId = prinId →
          other.transitiveGroupId = prinId → row = other)
    (reaches : (membership tables).Reaches prinId memberId) :
    (membership tables).trailCount prinId memberId = 1 := by
  by_cases same : prinId = memberId
  · rw [same]
    exact consistent.acyclic.trailCount_self
  have only : ∀ arrows,
      (membership tables).Trail prinId arrows memberId →
        arrows = [(⟨prinId, memberId⟩ : GroupMember)] := by
    intro arrows trail
    cases arrows with
    | nil => exact (same trail).elim
    | cons direct rest =>
        rcases trail with ⟨present, leaves, trail⟩
        rcases consistent.row_of_member present with
          ⟨near, nearMember, nearKey⟩
        rcases consistent.reaches_iff.mp
          (Multigraph.Reaches.head present trail.reaches) with
          equal | ⟨far, farMember, farKey⟩
        · exact (same (leaves.symm.trans equal)).elim
        rcases Prod.mk.inj farKey with ⟨farGroup, farMemberId⟩
        rcases Prod.mk.inj nearKey with ⟨nearGroup, nearMemberId⟩
        have equal := oneMember far farMember near nearMember
          (farGroup.trans leaves) (nearGroup.trans leaves)
        have last : direct.memberId = memberId := by
          rw [← nearMemberId, ← equal, farMemberId]
        have empty : rest = [] :=
          consistent.acyclic.eq_nil_of_trail (by simpa [last] using trail)
        have direct_eq : direct = ⟨prinId, memberId⟩ := by
          rw [← last, ← leaves]
          rfl
        rw [empty, direct_eq]
  exact Multigraph.trailCount_eq_one reaches only

end Consistent

/-! ## The updates -/

/--
The `UPDATE`s cannot be evaluated: some row is to be changed, and the group
has several parents or the principal several members.
-/
def CountsClash (tables : GroupTables) (grpId prinId : Id) : Prop :=
  (∃ row ∈ tables.transitiveGroupMembers,
      row.key ∈ affectedPairs tables.transitiveGroupMembers grpId prinId) ∧
    (1 < (tables.transitiveGroupMembers.filter fun row =>
        row.transitiveMemberId == grpId).length ∨
      1 < (tables.transitiveGroupMembers.filter fun row =>
        row.transitiveGroupId == prinId).length)

/-- The table after an `UPDATE` whose product is one. -/
def bumped (combine : Int → Int → Int) (rows : List TransitiveGroupMember)
    (grpId prinId : Id) : List TransitiveGroupMember :=
  rows.map fun row =>
    if row.key ∈ affectedPairs rows grpId prinId then
      { row with transitiveCount := combine row.transitiveCount 1 }
    else row

theorem mem_bumped
    {combine : Int → Int → Int} {rows : List TransitiveGroupMember}
    {grpId prinId : Id} {row : TransitiveGroupMember} :
    row ∈ bumped combine rows grpId prinId ↔
      ∃ old ∈ rows, row =
        if old.key ∈ affectedPairs rows grpId prinId then
          { old with transitiveCount := combine old.transitiveCount 1 }
        else old := by
  simp only [bumped, List.mem_map, eq_comm]

/-- An update keeps what it does not meet, under any test of the key. -/
theorem filter_bumped
    {combine : Int → Int → Int} {rows : List TransitiveGroupMember}
    {grpId prinId : Id} {condition : TransitiveGroupMember → Bool}
    (unaffected : ∀ row ∈ rows, condition row = true →
      row.key ∉ affectedPairs rows grpId prinId)
    (blind : ∀ (row : TransitiveGroupMember) (count : Int),
      condition { row with transitiveCount := count } = condition row) :
    (bumped combine rows grpId prinId).filter condition =
      rows.filter condition := by
  rw [bumped, List.filter_map]
  have same : (rows.filter (condition ∘ fun row =>
      if row.key ∈ affectedPairs rows grpId prinId then
        { row with transitiveCount := combine row.transitiveCount 1 }
      else row)) = rows.filter condition := by
    refine List.filter_congr fun row _ => ?_
    simp only [Function.comp_apply]
    split
    · exact blind row _
    · rfl
  rw [same]
  refine Eq.trans (List.map_congr_left fun row found => ?_) (List.map_id _)
  rcases List.mem_filter.mp found with ⟨member, met⟩
  rw [if_neg (unaffected row member met), id_eq]

theorem bumped_keys
    (combine : Int → Int → Int) (rows : List TransitiveGroupMember)
    (grpId prinId : Id) :
    (bumped combine rows grpId prinId).map (·.key) = rows.map (·.key) := by
  rw [bumped, List.map_map]
  refine List.map_congr_left fun row _ => ?_
  simp only [Function.comp_apply]
  split
  · rfl
  · rfl

/-- The affected pairs depend on the keys of the table only. -/
theorem affectedPairs_congr
    {rows others : List TransitiveGroupMember}
    (keys : others.map (·.key) = rows.map (·.key))
    (grpId prinId : Id) :
    affectedPairs others grpId prinId = affectedPairs rows grpId prinId := by
  have parents : ∀ table : List TransitiveGroupMember,
      (table.filter fun row => row.transitiveMemberId == grpId).map
          (·.transitiveGroupId) =
        ((table.map (·.key)).filter fun key => key.2 == grpId).map
          (·.1) := by
    intro table
    rw [List.filter_map, List.map_map]
    rfl
  have members : ∀ table : List TransitiveGroupMember,
      (table.filter fun row => row.transitiveGroupId == prinId).map
          (·.transitiveMemberId) =
        ((table.map (·.key)).filter fun key => key.1 == prinId).map
          (·.2) := by
    intro table
    rw [List.filter_map, List.map_map]
    rfl
  rw [affectedPairs, affectedPairs, grpAndParents, grpAndParents,
    prinAndMembers, prinAndMembers, parents, parents, members, members, keys]

/-- A second row in either subquery is an error. -/
theorem countProduct_error
    {rows : List TransitiveGroupMember} {grpId prinId : Id}
    (several : 1 < (rows.filter fun row =>
          row.transitiveMemberId == grpId).length ∨
        1 < (rows.filter fun row =>
          row.transitiveGroupId == prinId).length) :
    countProduct rows grpId prinId = .error .cardinalityViolation := by
  have failure : ∀ counts : List Int, 1 < counts.length →
      Sql.scalarSubquery counts = .error .cardinalityViolation := by
    intro counts long
    match counts with
    | [] => simp at long
    | [count] => simp at long
    | first :: second :: rest => rfl
  simp only [countProduct, beq_self_eq_true, Bool.true_and, Bool.and_true]
  by_cases parents : 1 < (rows.filter fun row =>
      row.transitiveMemberId == grpId).length
  · rw [failure _ (by rwa [List.length_map])]
    rfl
  · have members := several.resolve_left parents
    rcases Sql.scalarSubquery_isOk.mpr
      (show ((rows.filter fun row => row.transitiveMemberId == grpId).map
        (·.transitiveCount)).length ≤ 1 by
          rw [List.length_map]
          exact Nat.le_of_not_lt parents) with ⟨toGrp, toGrpOk⟩
    rw [toGrpOk, failure _ (by rwa [List.length_map])]
    rfl

theorem updateCounts_of_clash
    {combine : Int → Int → Int} {tables : GroupTables} {grpId prinId : Id}
    (clash : CountsClash tables grpId prinId) :
    updateCounts combine tables.transitiveGroupMembers grpId prinId =
      .error .cardinalityViolation := by
  rcases clash with ⟨⟨row, member, affected⟩, several⟩
  rw [updateCounts, Sql.update_uncorrelated, if_pos,
    countProduct_error several]
  · rfl
  · rw [List.any_eq_true]
    exact ⟨row, member, decide_eq_true affected⟩

theorem updateCounts_of_unaffected
    {combine : Int → Int → Int} {tables : GroupTables} {grpId prinId : Id}
    (unaffected : ∀ row ∈ tables.transitiveGroupMembers,
      row.key ∉ affectedPairs tables.transitiveGroupMembers grpId prinId) :
    updateCounts combine tables.transitiveGroupMembers grpId prinId =
      .ok tables.transitiveGroupMembers :=
  Sql.update_of_forall_not fun row member =>
    decide_eq_false (unaffected row member)

theorem bumped_of_unaffected
    {combine : Int → Int → Int} {tables : GroupTables} {grpId prinId : Id}
    (unaffected : ∀ row ∈ tables.transitiveGroupMembers,
      row.key ∉ affectedPairs tables.transitiveGroupMembers grpId prinId) :
    bumped combine tables.transitiveGroupMembers grpId prinId =
      tables.transitiveGroupMembers := by
  refine Eq.trans (List.map_congr_left fun row member => ?_)
    (List.map_id tables.transitiveGroupMembers)
  rw [if_neg (unaffected row member), id_eq]

namespace Consistent

variable {tables : GroupTables} {grpId prinId groupId memberId : Id}
  {row : TransitiveGroupMember}

/-- What an update that can be evaluated says about the trails it meets. -/
theorem trailCount_of_not_clash
    (consistent : Consistent tables)
    (noClash : ¬ CountsClash tables grpId prinId)
    (member : row ∈ tables.transitiveGroupMembers)
    (affected : row.key ∈
      affectedPairs tables.transitiveGroupMembers grpId prinId) :
    (∀ groupId, (membership tables).Reaches groupId grpId →
        (membership tables).trailCount groupId grpId = 1) ∧
      ∀ memberId, (membership tables).Reaches prinId memberId →
        (membership tables).trailCount prinId memberId = 1 := by
  have few := not_or.mp fun several =>
    noClash ⟨⟨row, member, affected⟩, several⟩
  rw [Nat.not_lt, Nat.not_lt] at few
  constructor
  · intro groupId
    apply consistent.trailCount_to_grp
    intro first firstMember second secondMember firstGrp secondGrp
    exact Sql.eq_of_length_filter_le_one few.1 firstMember secondMember
      (beq_iff_eq.mpr firstGrp) (beq_iff_eq.mpr secondGrp)
  · intro memberId
    apply consistent.trailCount_frm_prin
    intro first firstMember second secondMember firstPrin secondPrin
    exact Sql.eq_of_length_filter_le_one few.2 firstMember secondMember
      (beq_iff_eq.mpr firstPrin) (beq_iff_eq.mpr secondPrin)

/-- A factor of the product whose trails are single is one. -/
theorem factor_eq_one
    (consistent : Consistent tables)
    {condition : TransitiveGroupMember → Bool}
    (few : (tables.transitiveGroupMembers.filter condition).length ≤ 1)
    (single : ∀ row ∈ tables.transitiveGroupMembers, condition row = true →
      (membership tables).trailCount row.transitiveGroupId
        row.transitiveMemberId = 1) :
    ∃ count : Option Int,
      Sql.scalarSubquery
          ((tables.transitiveGroupMembers.filter condition).map
            (·.transitiveCount)) = .ok count ∧
        count.getD 1 = 1 := by
  match found : tables.transitiveGroupMembers.filter condition with
  | [] => exact ⟨none, rfl, rfl⟩
  | [row] =>
      have member : row ∈ tables.transitiveGroupMembers.filter condition := by
        rw [found]
        exact List.mem_singleton_self row
      rcases List.mem_filter.mp member with ⟨member, met⟩
      have one : ((1 : ℕ) : ℕ∞) = (row.transitiveCount.toNat : ℕ∞) := by
        rw [← consistent.trailCount_eq member, single row member met]
        rfl
      have count : 1 = row.transitiveCount.toNat := by exact_mod_cast one
      refine ⟨some row.transitiveCount, rfl, ?_⟩
      show row.transitiveCount = 1
      omega
  | _ :: _ :: _ =>
      rw [found] at few
      simp at few

theorem updateCounts_eq
    {combine : Int → Int → Int}
    (consistent : Consistent tables)
    (noClash : ¬ CountsClash tables grpId prinId) :
    updateCounts combine tables.transitiveGroupMembers grpId prinId =
      .ok (bumped combine tables.transitiveGroupMembers grpId prinId) := by
  by_cases touched : ∃ row ∈ tables.transitiveGroupMembers,
      row.key ∈ affectedPairs tables.transitiveGroupMembers grpId prinId
  · have few := not_or.mp fun several => noClash ⟨touched, several⟩
    rw [Nat.not_lt, Nat.not_lt] at few
    rcases touched with ⟨row, member, affected⟩
    have single := consistent.trailCount_of_not_clash noClash member affected
    rcases consistent.factor_eq_one few.1 (by
      intro parent parentMember grp
      have equal := beq_iff_eq.mp grp
      rw [equal]
      apply single.1
      rw [← equal]
      exact consistent.reaches parentMember) with ⟨toGrp, toGrpOk, toGrpOne⟩
    rcases consistent.factor_eq_one few.2 (by
      intro child childMember prin
      have equal := beq_iff_eq.mp prin
      rw [equal]
      apply single.2
      rw [← equal]
      exact consistent.reaches childMember) with
      ⟨frmPrin, frmPrinOk, frmPrinOne⟩
    have product : countProduct tables.transitiveGroupMembers grpId prinId =
        .ok 1 := by
      simp only [countProduct, beq_self_eq_true, Bool.true_and, Bool.and_true]
      rw [toGrpOk, frmPrinOk]
      show Except.ok (toGrp.getD 1 * frmPrin.getD 1) = .ok (1 : Int)
      rw [toGrpOne, frmPrinOne, one_mul]
    rw [updateCounts, product]
    show Sql.update _ (fun row => .ok _) _ = _
    rw [Sql.update_pure, bumped]
    simp only [decide_eq_true_eq]
  · have unaffected : ∀ row ∈ tables.transitiveGroupMembers, row.key ∉
        affectedPairs tables.transitiveGroupMembers grpId prinId :=
      fun row member affected => touched ⟨row, member, affected⟩
    rw [updateCounts_of_unaffected unaffected, bumped_of_unaffected unaffected]

/-- An update that succeeds has met no clash. -/
theorem updateCounts_isOk
    {combine : Int → Int → Int} {rows : List TransitiveGroupMember}
    (consistent : Consistent tables)
    (success : updateCounts combine tables.transitiveGroupMembers grpId prinId =
      .ok rows) :
    ¬ CountsClash tables grpId prinId ∧
      rows = bumped combine tables.transitiveGroupMembers grpId prinId := by
  have noClash : ¬ CountsClash tables grpId prinId := by
    intro clash
    rw [updateCounts_of_clash clash] at success
    cases success
  rw [consistent.updateCounts_eq noClash] at success
  exact ⟨noClash, (Except.ok.inj success).symm⟩

end Consistent

/-! ## Adding a member -/

theorem membership_append (tables : GroupTables) (direct : GroupMember)
    (rows : List TransitiveGroupMember) :
    membership ⟨tables.groupMembers ++ [direct], rows⟩ =
      (membership tables).extend direct := by
  simp only [membership, Multigraph.extend, List.mem_append,
    List.mem_singleton]

theorem dbmsAddPrinToGroup_eq_ok
    {schema : Schema} {tables result : GroupTables}
    {groupId principalId : Id} :
    dbmsAddPrinToGroup schema tables groupId principalId = .ok result ↔
      (schema.uniqueConstraints = true →
        (tables.groupMembers ++
          [(⟨groupId, principalId⟩ : GroupMember)]).Nodup) ∧
        result = { tables with
          groupMembers := tables.groupMembers ++ [⟨groupId, principalId⟩] } := by
  rw [dbmsAddPrinToGroup, bind_eq_ok]
  constructor
  · rintro ⟨groupMembers, inserted, success⟩
    rw [dbmsExecute_eq_ok, Sql.insert_eq_ok, List.map_id] at inserted
    rcases inserted with ⟨nodup, rfl⟩
    exact ⟨nodup, (Except.ok.inj success).symm⟩
  · rintro ⟨nodup, rfl⟩
    refine ⟨_, ?_, rfl⟩
    rw [dbmsExecute_eq_ok, Sql.insert_eq_ok, List.map_id]
    exact ⟨nodup, rfl⟩

theorem dbmsAddPrinToGrpXitively_eq_ok
    {schema : Schema} {tables result : GroupTables} {grpId prinId : Id} :
    dbmsAddPrinToGrpXitively schema tables grpId prinId = .ok result ↔
      ∃ rows,
        updateCounts (· + ·) tables.transitiveGroupMembers grpId prinId =
            .ok rows ∧
          (schema.uniqueConstraints = true →
            ((rows ++ newRows rows grpId prinId).map (·.key)).Nodup) ∧
          result = { tables with
            transitiveGroupMembers := rows ++ newRows rows grpId prinId } := by
  rw [dbmsAddPrinToGrpXitively, bind_eq_ok]
  constructor
  · rintro ⟨rows, updated, success⟩
    rcases bind_eq_ok.mp success with ⟨inserted, insertion, success⟩
    rw [dbmsExecute_eq_ok] at updated
    rw [dbmsExecute_eq_ok, Sql.insert_eq_ok] at insertion
    rcases insertion with ⟨nodup, rfl⟩
    exact ⟨rows, updated, nodup, (Except.ok.inj success).symm⟩
  · rintro ⟨rows, updated, nodup, rfl⟩
    refine ⟨rows, dbmsExecute_eq_ok.mpr updated, bind_eq_ok.mpr ?_⟩
    refine ⟨_, dbmsExecute_eq_ok.mpr (Sql.insert_eq_ok.mpr ?_), rfl⟩
    exact ⟨nodup, rfl⟩

/-- What a successful addition has checked and what it leaves. -/
theorem sabridgeAddPrinToGrp_eq_ok
    {schema : Schema} {tables result : GroupTables} {grpId prinId : Id} :
    sabridgeAddPrinToGrp schema tables grpId prinId = .ok result ↔
      dbmsIsPrinInGrp tables grpId prinId = 0 ∧
      dbmsWillLoopPrinAddGrp tables grpId prinId = 0 ∧
      (schema.uniqueConstraints = true →
        (tables.groupMembers ++
          [(⟨grpId, prinId⟩ : GroupMember)]).Nodup) ∧
      ∃ rows,
        updateCounts (· + ·) tables.transitiveGroupMembers grpId prinId =
            .ok rows ∧
          (schema.uniqueConstraints = true →
            ((rows ++ newRows rows grpId prinId).map (·.key)).Nodup) ∧
          result = ⟨tables.groupMembers ++ [⟨grpId, prinId⟩],
            rows ++ newRows rows grpId prinId⟩ := by
  rw [sabridgeAddPrinToGrp, ite_error_eq_ok, ite_error_eq_ok, bind_eq_ok,
    not_not, not_not, eq_comm (a := 0), eq_comm (a := 0)]
  refine and_congr_right fun _ => and_congr_right fun _ => ?_
  constructor
  · rintro ⟨added, addition, success⟩
    rcases dbmsAddPrinToGroup_eq_ok.mp addition with ⟨nodup, rfl⟩
    exact ⟨nodup, dbmsAddPrinToGrpXitively_eq_ok.mp success⟩
  · rintro ⟨nodup, success⟩
    exact ⟨_, dbmsAddPrinToGroup_eq_ok.mpr ⟨nodup, rfl⟩,
      dbmsAddPrinToGrpXitively_eq_ok.mpr success⟩

namespace Consistent

variable {tables : GroupTables} {grpId prinId groupId memberId : Id}
  {row : TransitiveGroupMember} {count : Int}

/-- Principals are connected when they have a positive trail count. -/
theorem reaches_iff_count
    (consistent : Consistent tables) :
    (membership tables).Reaches groupId memberId ↔
      ∃ count : Int, 0 < count ∧
        (membership tables).trailCount groupId memberId =
          (count.toNat : ℕ∞) := by
  constructor
  · intro reaches
    rcases consistent.reaches_iff.mp reaches with rfl | ⟨row, member, key⟩
    · exact ⟨1, Int.one_pos, consistent.acyclic.trailCount_self⟩
    · rcases Prod.mk.inj key with ⟨rfl, rfl⟩
      exact ⟨row.transitiveCount, (consistent.count row member).1,
        consistent.trailCount_eq member⟩
  · rintro ⟨count, positive, trails⟩
    by_contra unreached
    rw [Multigraph.trailCount_eq_zero.mpr unreached] at trails
    have zero : 0 = count.toNat := by exact_mod_cast trails
    omega

/-- The trail counts of the connected pairs are those of the table. -/
theorem trailCount_eq_iff
    (consistent : Consistent tables) :
    0 < count ∧
        (membership tables).trailCount groupId memberId =
          (count.toNat : ℕ∞) ↔
      (∃ row ∈ tables.transitiveGroupMembers,
        row.key = (groupId, memberId) ∧ row.transitiveCount = count) ∨
        (groupId = memberId ∧ count = 1) := by
  constructor
  · rintro ⟨positive, trails⟩
    have reaches := consistent.reaches_iff_count.mpr ⟨count, positive, trails⟩
    rcases consistent.reaches_iff.mp reaches with rfl | ⟨row, member, key⟩
    · rw [consistent.acyclic.trailCount_self] at trails
      have one : 1 = count.toNat := by exact_mod_cast trails
      exact Or.inr ⟨rfl, by omega⟩
    · refine Or.inl ⟨row, member, key, ?_⟩
      rcases Prod.mk.inj key with ⟨rfl, rfl⟩
      rw [consistent.trailCount_eq member] at trails
      have equal : row.transitiveCount.toNat = count.toNat := by
        exact_mod_cast trails
      have rowPositive := (consistent.count row member).1
      omega
  · rintro (⟨row, member, key, rfl⟩ | ⟨rfl, rfl⟩)
    · rcases Prod.mk.inj key with ⟨rfl, rfl⟩
      exact ⟨(consistent.count row member).1, consistent.trailCount_eq member⟩
    · exact ⟨Int.one_pos, consistent.acyclic.trailCount_self⟩

theorem mem_countsToGrp
    (consistent : Consistent tables) :
    (groupId, count) ∈ countsToGrp tables.transitiveGroupMembers grpId ↔
      0 < count ∧
        (membership tables).trailCount groupId grpId =
          (count.toNat : ℕ∞) := by
  simp only [consistent.trailCount_eq_iff, countsToGrp, Sql.mem_union,
    List.mem_map, List.mem_filter, beq_iff_eq, List.mem_singleton,
    TransitiveGroupMember.key, Prod.mk.injEq]
  grind

theorem mem_countsFrmPrin
    (consistent : Consistent tables) :
    (memberId, count) ∈ countsFrmPrin tables.transitiveGroupMembers prinId ↔
      0 < count ∧
        (membership tables).trailCount prinId memberId =
          (count.toNat : ℕ∞) := by
  simp only [consistent.trailCount_eq_iff, countsFrmPrin, Sql.mem_union,
    List.mem_map, List.mem_filter, beq_iff_eq, List.mem_singleton,
    TransitiveGroupMember.key, Prod.mk.injEq]
  grind

/-- The inserted rows hold the number of paths through the new arrow. -/
theorem mem_newRows
    (consistent : Consistent tables) :
    row ∈ newRows tables.transitiveGroupMembers grpId prinId ↔
      row.key ∉ tables.transitiveGroupMembers.map (·.key) ∧
        ∃ toGrp frmPrin,
          (0 < toGrp ∧
            (membership tables).trailCount row.transitiveGroupId grpId =
              (toGrp.toNat : ℕ∞)) ∧
          (0 < frmPrin ∧
            (membership tables).trailCount prinId row.transitiveMemberId =
              (frmPrin.toNat : ℕ∞)) ∧
          row.transitiveCount = toGrp * frmPrin := by
  simp only [newRows, List.mem_map (b := row), List.mem_filter,
    Sql.mem_crossJoin, Prod.exists, Bool.not_eq_true', decide_eq_false_iff_not,
    consistent.mem_countsToGrp, consistent.mem_countsFrmPrin]
  constructor
  · rintro ⟨groupId, toGrp, memberId, frmPrin, ⟨⟨before, after⟩, fresh⟩, rfl⟩
    exact ⟨fresh, toGrp, frmPrin, before, after, rfl⟩
  · rintro ⟨fresh, toGrp, frmPrin, before, after, count⟩
    refine ⟨row.transitiveGroupId, toGrp, row.transitiveMemberId, frmPrin,
      ⟨⟨before, after⟩, fresh⟩, ?_⟩
    rw [← count]

/-- A list of counts has one entry for each principal. -/
theorem counts_injective
    {counts : List (Id × Int)} {trailsOf : Id → ℕ∞}
    (counted : ∀ principal count, (principal, count) ∈ counts ↔
      0 < count ∧ trailsOf principal = (count.toNat : ℕ∞)) :
    ∀ first ∈ counts, ∀ second ∈ counts,
      first.1 = second.1 → first = second := by
  rintro ⟨principal, first⟩ firstMember ⟨_, second⟩ secondMember rfl
  rcases (counted _ _).mp firstMember with ⟨firstPositive, firstCount⟩
  rcases (counted _ _).mp secondMember with ⟨secondPositive, secondCount⟩
  have equal : first.toNat = second.toNat := by
    exact_mod_cast firstCount.symm.trans secondCount
  have same : first = second := by omega
  rw [same]

theorem newRows_keys_nodup
    (consistent : Consistent tables) :
    ((newRows tables.transitiveGroupMembers grpId prinId).map
      (·.key)).Nodup := by
  rw [newRows, List.map_map]
  apply List.Nodup.map_on
  · rintro ⟨toGrp, frmPrin⟩ member ⟨toGrp', frmPrin'⟩ member' equal
    have joined := Sql.mem_crossJoin.mp (List.mem_filter.mp member).1
    have joined' := Sql.mem_crossJoin.mp (List.mem_filter.mp member').1
    rcases Prod.mk.inj equal with ⟨groups, members⟩
    have sameGroup := counts_injective
      (fun _ _ => consistent.mem_countsToGrp) _ joined.1 _ joined'.1 groups
    have sameMember := counts_injective
      (fun _ _ => consistent.mem_countsFrmPrin) _ joined.2 _ joined'.2 members
    exact Prod.ext sameGroup sameMember
  · apply List.Nodup.filter
    exact Sql.nodup_crossJoin (Sql.nodup_union _ _) (Sql.nodup_union _ _)

/-- The `UPDATE` leaves the rows alone that the `INSERT` multiplies. -/
theorem newRows_bumped
    {combine : Int → Int → Int}
    (consistent : Consistent tables)
    (forward : ¬ (membership tables).Reaches prinId grpId) :
    newRows (bumped combine tables.transitiveGroupMembers grpId prinId)
        grpId prinId =
      newRows tables.transitiveGroupMembers grpId prinId := by
  have parents : (bumped combine tables.transitiveGroupMembers grpId
      prinId).filter (fun row => row.transitiveMemberId == grpId) =
      tables.transitiveGroupMembers.filter fun row =>
        row.transitiveMemberId == grpId := by
    apply filter_bumped
    · intro row member grp affected
      exact forward (beq_iff_eq.mp grp ▸
        (consistent.mem_affectedPairs.mp affected).2)
    · intro row count
      rfl
  have members : (bumped combine tables.transitiveGroupMembers grpId
      prinId).filter (fun row => row.transitiveGroupId == prinId) =
      tables.transitiveGroupMembers.filter fun row =>
        row.transitiveGroupId == prinId := by
    apply filter_bumped
    · intro row member prin affected
      exact forward (beq_iff_eq.mp prin ▸
        (consistent.mem_affectedPairs.mp affected).1)
    · intro row count
      rfl
  rw [newRows, newRows, countsToGrp, countsToGrp, countsFrmPrin,
    countsFrmPrin, parents, members, bumped_keys]

/-- One row for each pair after the `INSERT`, whatever was added. -/
theorem inserted_keys_nodup
    (consistent : Consistent tables)
    (combine : Int → Int → Int)
    (forward : ¬ (membership tables).Reaches prinId grpId) :
    ((bumped combine tables.transitiveGroupMembers grpId prinId ++
        newRows (bumped combine tables.transitiveGroupMembers grpId prinId)
          grpId prinId).map (·.key)).Nodup := by
  rw [consistent.newRows_bumped forward, List.map_append, bumped_keys]
  apply List.Nodup.append consistent.oneRow consistent.newRows_keys_nodup
  intro key old new
  rcases List.mem_map.mp new with ⟨row, member, rfl⟩
  exact (consistent.mem_newRows.mp member).1 old

/-- Rows whose update is right for one more path through the new arrow. -/
theorem add_bumped_row
    (consistent : Consistent tables)
    (noClash : ¬ CountsClash tables grpId prinId)
    (fresh : (⟨grpId, prinId⟩ : GroupMember) ∉ tables.groupMembers)
    (forward : ¬ (membership tables).Reaches prinId grpId)
    (member : row ∈ bumped (· + ·) tables.transitiveGroupMembers
      grpId prinId) :
    row.transitiveGroupId ≠ row.transitiveMemberId ∧
      0 < row.transitiveCount ∧
      ((membership tables).extend ⟨grpId, prinId⟩).trailCount
          row.transitiveGroupId row.transitiveMemberId =
        (row.transitiveCount.toNat : ℕ∞) := by
  rcases mem_bumped.mp member with ⟨old, oldMember, rfl⟩
  have positive := (consistent.count old oldMember).1
  have before := consistent.trailCount_eq oldMember
  have sum := Multigraph.trailCount_extend (G := membership tables)
    fresh forward old.transitiveGroupId old.transitiveMemberId
  split
  next affected =>
      have single :=
        consistent.trailCount_of_not_clash noClash oldMember affected
      have ends := consistent.mem_affectedPairs.mp affected
      have distinct : old.transitiveGroupId ≠ old.transitiveMemberId :=
        consistent.distinct oldMember
      refine ⟨distinct, Int.add_pos positive one_pos, ?_⟩
      show _ = ((old.transitiveCount + 1).toNat : ℕ∞)
      rw [sum, before]
      simp only [membership_source, membership_target]
      rw [single.1 _ ends.1, single.2 _ ends.2, mul_one,
        Int.toNat_add positive.le Int.one_nonneg]
      rfl
  next unaffected =>
      refine ⟨consistent.distinct oldMember, positive, ?_⟩
      have apart : (membership tables).trailCount old.transitiveGroupId grpId *
          (membership tables).trailCount prinId old.transitiveMemberId = 0 := by
        rw [mul_eq_zero, Multigraph.trailCount_eq_zero,
          Multigraph.trailCount_eq_zero, ← not_and_or]
        exact fun ends => unaffected (consistent.mem_affectedPairs.mpr ends)
      rw [sum, before, membership_source, membership_target, apart, add_zero]

theorem add_new_row
    (consistent : Consistent tables)
    (fresh : (⟨grpId, prinId⟩ : GroupMember) ∉ tables.groupMembers)
    (forward : ¬ (membership tables).Reaches prinId grpId)
    (member : row ∈ newRows tables.transitiveGroupMembers grpId prinId) :
    row.transitiveGroupId ≠ row.transitiveMemberId ∧
      0 < row.transitiveCount ∧
      ((membership tables).extend ⟨grpId, prinId⟩).trailCount
          row.transitiveGroupId row.transitiveMemberId =
        (row.transitiveCount.toNat : ℕ∞) := by
  rcases consistent.mem_newRows.mp member with
    ⟨absent, toGrp, frmPrin, before, after, count⟩
  have reachesGrp := consistent.reaches_iff_count.mpr ⟨toGrp, before⟩
  have reachesMember := consistent.reaches_iff_count.mpr ⟨frmPrin, after⟩
  have distinct : row.transitiveGroupId ≠ row.transitiveMemberId := by
    intro equal
    exact forward (reachesMember.trans (equal ▸ reachesGrp))
  have unconnected : (membership tables).trailCount row.transitiveGroupId
      row.transitiveMemberId = 0 := by
    rw [Multigraph.trailCount_eq_zero, consistent.reaches_iff, not_or]
    refine ⟨distinct, ?_⟩
    rintro ⟨old, oldMember, key⟩
    exact absent (List.mem_map.mpr ⟨old, oldMember, key⟩)
  refine ⟨distinct, ?_, ?_⟩
  · rw [count]
    exact Int.mul_pos before.1 after.1
  · rw [Multigraph.trailCount_extend fresh forward, unconnected, zero_add,
      membership_source, membership_target, before.2, after.2, count,
      Int.toNat_mul before.1.le after.1.le, Nat.cast_mul]

/-- An addition that passes the checks keeps the table consistent. -/
theorem add
    (consistent : Consistent tables)
    (noClash : ¬ CountsClash tables grpId prinId)
    (fresh : (⟨grpId, prinId⟩ : GroupMember) ∉ tables.groupMembers)
    (forward : ¬ (membership tables).Reaches prinId grpId) :
    Consistent ⟨tables.groupMembers ++ [⟨grpId, prinId⟩],
      bumped (· + ·) tables.transitiveGroupMembers grpId prinId ++
        newRows (bumped (· + ·) tables.transitiveGroupMembers grpId prinId)
          grpId prinId⟩ := by
  rw [consistent.newRows_bumped forward]
  apply of_trailCount
  · rw [membership_append]
    exact consistent.acyclic.extend forward
  · have nodup := consistent.inserted_keys_nodup (· + ·) forward
    rwa [consistent.newRows_bumped forward] at nodup
  · intro row member
    rw [membership_append]
    rcases List.mem_append.mp member with old | new
    · exact consistent.add_bumped_row noClash fresh forward old
    · exact consistent.add_new_row fresh forward new
  · intro groupId memberId distinct reaches
    rw [membership_append] at reaches
    by_cases old : (groupId, memberId) ∈
        tables.transitiveGroupMembers.map (·.key)
    · rw [← bumped_keys (· + ·) tables.transitiveGroupMembers grpId
        prinId] at old
      rcases List.mem_map.mp old with ⟨row, member, key⟩
      exact ⟨row, List.mem_append_left _ member, key⟩
    · have connected : (membership tables).trailCount groupId memberId = 0 := by
        rw [Multigraph.trailCount_eq_zero, consistent.reaches_iff, not_or]
        exact ⟨distinct, fun ⟨row, member, key⟩ =>
          old (List.mem_map.mpr ⟨row, member, key⟩)⟩
      have through := mt Multigraph.trailCount_eq_zero.mp (not_not.mpr reaches)
      rw [Multigraph.trailCount_extend fresh forward, connected, zero_add,
        mul_eq_zero, not_or, Multigraph.trailCount_eq_zero,
        Multigraph.trailCount_eq_zero, not_not, not_not] at through
      rcases consistent.reaches_iff_count.mp through.1 with ⟨toGrp, before⟩
      rcases consistent.reaches_iff_count.mp through.2 with ⟨frmPrin, after⟩
      refine ⟨⟨groupId, memberId, toGrp * frmPrin⟩,
        List.mem_append_right _ ?_, rfl⟩
      exact consistent.mem_newRows.mpr
        ⟨old, toGrp, frmPrin, before, after, rfl⟩

end Consistent

/-! ## Removing a member -/

/-- `group_members` without a row, as a graph. -/
theorem membership_dbmsRemPrinFrmGrp
    {tables : GroupTables} {grpId prinId : Id}
    (present : (⟨grpId, prinId⟩ : GroupMember) ∈ tables.groupMembers) :
    membership tables =
      (membership (dbmsRemPrinFrmGrp tables grpId prinId)).extend
        ⟨grpId, prinId⟩ := by
  have arrows : (fun row => row ∈ tables.groupMembers) = fun row =>
      row ∈ (dbmsRemPrinFrmGrp tables grpId prinId).groupMembers ∨
        row = ⟨grpId, prinId⟩ := by
    funext row
    apply propext
    rcases row with ⟨groupId, memberId⟩
    simp only [dbmsRemPrinFrmGrp, List.mem_filter, Bool.not_eq_true',
      Bool.and_eq_false_iff, beq_eq_false_iff_ne, GroupMember.mk.injEq]
    constructor
    · intro member
      by_cases same : groupId = grpId ∧ memberId = prinId
      · exact Or.inr same
      · exact Or.inl ⟨member, not_and_or.mp same⟩
    · rintro (⟨member, -⟩ | ⟨rfl, rfl⟩)
      · exact member
      · exact present
  simp only [membership, Multigraph.extend, arrows]

theorem notMem_dbmsRemPrinFrmGrp
    (tables : GroupTables) (grpId prinId : Id) :
    (⟨grpId, prinId⟩ : GroupMember) ∉
      (dbmsRemPrinFrmGrp tables grpId prinId).groupMembers := by
  simp [dbmsRemPrinFrmGrp]

theorem dbmsRemPrinFrmGrp_of_notMem
    {tables : GroupTables} {grpId prinId : Id}
    (absent : (⟨grpId, prinId⟩ : GroupMember) ∉ tables.groupMembers) :
    dbmsRemPrinFrmGrp tables grpId prinId = tables := by
  have kept : tables.groupMembers.filter (fun row =>
      !(row.groupId == grpId && row.memberId == prinId)) =
      tables.groupMembers := by
    rw [List.filter_eq_self]
    rintro ⟨groupId, memberId⟩ member
    by_contra removed
    rw [Bool.not_eq_true', Bool.not_eq_false, Bool.and_eq_true, beq_iff_eq,
      beq_iff_eq] at removed
    rcases removed with ⟨rfl, rfl⟩
    exact absent member
  rw [dbmsRemPrinFrmGrp, kept]

/-- The rows a removal keeps of its updated table. -/
def remaining (rows : List TransitiveGroupMember) (grpId prinId : Id) :
    List TransitiveGroupMember :=
  (bumped (· - ·) rows grpId prinId).filter fun row =>
    !(decide (row.key ∈ affectedPairs rows grpId prinId) &&
      row.transitiveCount == 0)

/-- What a removal leaves: it fails when its update does. -/
theorem sabridgeRemPrinFrmGrp_eq_ok
    {tables result : GroupTables} {grpId prinId : Id}
    (consistent : Consistent tables) :
    sabridgeRemPrinFrmGrp tables grpId prinId = .ok result ↔
      ¬ CountsClash tables grpId prinId ∧
        result =
          ⟨(dbmsRemPrinFrmGrp tables grpId prinId).groupMembers,
            remaining tables.transitiveGroupMembers grpId prinId⟩ := by
  rw [sabridgeRemPrinFrmGrp, dbmsRemPrinFrmGrpXitively, bind_eq_ok]
  show (∃ rows, dbmsExecute _ (updateCounts _ tables.transitiveGroupMembers
    grpId prinId) = .ok rows ∧ _) ↔ _
  constructor
  · rintro ⟨rows, updated, success⟩
    rcases consistent.updateCounts_isOk (dbmsExecute_eq_ok.mp updated) with
      ⟨noClash, rfl⟩
    refine ⟨noClash, (Except.ok.inj success).symm.trans ?_⟩
    rw [affectedPairs_congr (bumped_keys _ _ _ _), remaining]
  · rintro ⟨noClash, rfl⟩
    refine ⟨_, dbmsExecute_eq_ok.mpr (consistent.updateCounts_eq noClash), ?_⟩
    rw [affectedPairs_congr (bumped_keys _ _ _ _), remaining]
    rfl

namespace Consistent

variable {tables : GroupTables} {grpId prinId groupId memberId : Id}
  {row : TransitiveGroupMember}

/-- The trails without a direct member, from the trails with it. -/
theorem trailCount_dbmsRemPrinFrmGrp
    (consistent : Consistent tables)
    (present : (⟨grpId, prinId⟩ : GroupMember) ∈ tables.groupMembers)
    (groupId memberId : Id) :
    (membership tables).trailCount groupId memberId =
      (membership (dbmsRemPrinFrmGrp tables grpId prinId)).trailCount
          groupId memberId +
        (membership tables).trailCount groupId grpId *
          (membership tables).trailCount prinId memberId := by
  have fresh := notMem_dbmsRemPrinFrmGrp tables grpId prinId
  have graph := membership_dbmsRemPrinFrmGrp present
  have forward :
      ¬ (membership (dbmsRemPrinFrmGrp tables grpId prinId)).Reaches
        prinId grpId := by
    intro back
    apply consistent.acyclic.not_reaches_back present
    rw [graph]
    exact back.transfer (fun _ => Or.inl) rfl rfl
  have sum := Multigraph.trailCount_extend
    (G := membership (dbmsRemPrinFrmGrp tables grpId prinId)) fresh forward
  simp only [← graph, membership_source, membership_target] at sum
  rw [sum groupId grpId, sum prinId memberId,
    Multigraph.trailCount_eq_zero.mpr forward, mul_zero, add_zero, zero_mul,
    add_zero]
  exact sum groupId memberId

/-- Rows whose update is right without the paths through the arrow. -/
theorem rem_bumped_row
    (consistent : Consistent tables)
    (noClash : ¬ CountsClash tables grpId prinId)
    (present : (⟨grpId, prinId⟩ : GroupMember) ∈ tables.groupMembers)
    (member : row ∈ bumped (· - ·) tables.transitiveGroupMembers
      grpId prinId) :
    row.transitiveGroupId ≠ row.transitiveMemberId ∧
      0 ≤ row.transitiveCount ∧
      (row.transitiveCount = 0 →
        row.key ∈ affectedPairs tables.transitiveGroupMembers grpId prinId) ∧
      (membership (dbmsRemPrinFrmGrp tables grpId prinId)).trailCount
          row.transitiveGroupId row.transitiveMemberId =
        (row.transitiveCount.toNat : ℕ∞) := by
  rcases mem_bumped.mp member with ⟨old, oldMember, rfl⟩
  have distinct : old.transitiveGroupId ≠ old.transitiveMemberId :=
    consistent.distinct oldMember
  have positive := (consistent.count old oldMember).1
  have sum := consistent.trailCount_dbmsRemPrinFrmGrp present
    old.transitiveGroupId old.transitiveMemberId
  rw [consistent.trailCount_eq oldMember] at sum
  split
  next affected =>
      have single :=
        consistent.trailCount_of_not_clash noClash oldMember affected
      have ends := consistent.mem_affectedPairs.mp affected
      rw [single.1 _ ends.1, single.2 _ ends.2, mul_one] at sum
      have one_more : old.transitiveCount.toNat =
          (old.transitiveCount - 1).toNat + 1 := by omega
      rw [one_more, Nat.cast_add, Nat.cast_one] at sum
      refine ⟨distinct, Int.sub_nonneg_of_le positive, fun _ => affected, ?_⟩
      exact (ENat.add_left_injective_of_ne_top ENat.one_ne_top sum).symm
  next unaffected =>
      have apart : (membership tables).trailCount old.transitiveGroupId grpId *
          (membership tables).trailCount prinId old.transitiveMemberId = 0 := by
        rw [mul_eq_zero, Multigraph.trailCount_eq_zero,
          Multigraph.trailCount_eq_zero, ← not_and_or]
        exact fun ends => unaffected (consistent.mem_affectedPairs.mpr ends)
      rw [apart, add_zero] at sum
      exact ⟨distinct, positive.le, fun zero => by omega, sum.symm⟩

/-- The removal of a direct member keeps the table consistent. -/
theorem rem
    (consistent : Consistent tables)
    (noClash : ¬ CountsClash tables grpId prinId)
    (present : (⟨grpId, prinId⟩ : GroupMember) ∈ tables.groupMembers) :
    Consistent ⟨(dbmsRemPrinFrmGrp tables grpId prinId).groupMembers,
      remaining tables.transitiveGroupMembers grpId prinId⟩ := by
  apply of_trailCount
  · have whole := consistent.acyclic
    rw [membership_dbmsRemPrinFrmGrp present] at whole
    exact whole.of_extend
  · have keys : ((bumped (· - ·) tables.transitiveGroupMembers grpId
        prinId).map (·.key)).Nodup := by
      rw [bumped_keys]
      exact consistent.oneRow
    exact keys.sublist (List.filter_sublist.map _)
  · intro row member
    rcases List.mem_filter.mp member with ⟨member, kept⟩
    rcases consistent.rem_bumped_row noClash present member with
      ⟨distinct, nonneg, zero, trails⟩
    refine ⟨distinct, lt_of_le_of_ne nonneg fun empty => ?_, trails⟩
    simp [zero empty.symm, empty.symm] at kept
  · intro groupId memberId distinct reaches
    have before : (membership tables).Reaches groupId memberId := by
      rw [membership_dbmsRemPrinFrmGrp present]
      exact reaches.transfer (fun _ => Or.inl) rfl rfl
    have listed : (groupId, memberId) ∈
        (bumped (· - ·) tables.transitiveGroupMembers grpId prinId).map
          (·.key) := by
      rw [bumped_keys]
      exact List.mem_map.mpr
        ((consistent.reaches_iff.mp before).resolve_left distinct)
    rcases List.mem_map.mp listed with ⟨row, member, key⟩
    refine ⟨row, List.mem_filter.mpr ⟨member, ?_⟩, key⟩
    have trails :=
      (consistent.rem_bumped_row noClash present member).2.2.2
    have nonzero : row.transitiveCount ≠ 0 := by
      intro zero
      rcases Prod.mk.inj key with ⟨rfl, rfl⟩
      rw [zero, Int.toNat_zero, Nat.cast_zero,
        Multigraph.trailCount_eq_zero] at trails
      exact trails reaches
    rw [beq_eq_false_iff_ne.mpr nonzero, Bool.and_false]
    rfl

/-- The removal of a principal whose pair no row is about changes nothing. -/
theorem rem_of_unaffected
    (consistent : Consistent tables)
    (absent : (⟨grpId, prinId⟩ : GroupMember) ∉ tables.groupMembers)
    (unaffected : ∀ row ∈ tables.transitiveGroupMembers,
      row.key ∉ affectedPairs tables.transitiveGroupMembers grpId prinId) :
    Consistent ⟨(dbmsRemPrinFrmGrp tables grpId prinId).groupMembers,
      remaining tables.transitiveGroupMembers grpId prinId⟩ := by
  have kept : remaining tables.transitiveGroupMembers grpId prinId =
      tables.transitiveGroupMembers := by
    rw [remaining, bumped_of_unaffected unaffected, List.filter_eq_self]
    intro row member
    rw [decide_eq_false (unaffected row member)]
    rfl
  rw [kept, dbmsRemPrinFrmGrp_of_notMem absent]
  exact consistent

end Consistent

end Limestone.GroupClosure
