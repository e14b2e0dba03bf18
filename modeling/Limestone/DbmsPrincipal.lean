import Limestone.Schema

/-!
# Group membership: `dbms_principal.c` and `principal.c`

The two membership tables and the statements that keep them.  A failed
statement aborts the PostgreSQL transaction the request runs in, so a call
that returns an error leaves no changed tables behind and `Except` carries
the new tables of a successful call only.

Unqualified columns in a subquery bind to the innermost table that has them.
-/

namespace Limestone.DbmsPrincipal

open Library

/-- A row of `group_members`. -/
structure GroupMember where
  groupId : Id
  memberId : Id
deriving DecidableEq, Repr

/-- A row of `transitive_group_members`. -/
structure TransitiveGroupMember where
  transitiveGroupId : Id
  transitiveMemberId : Id
  transitiveCount : Int
deriving DecidableEq, Repr

/-- The pair a row of `transitive_group_members` is about. -/
def TransitiveGroupMember.key (row : TransitiveGroupMember) : Id × Id :=
  (row.transitiveGroupId, row.transitiveMemberId)

/-- The membership tables. -/
structure GroupTables where
  groupMembers : List GroupMember
  transitiveGroupMembers : List TransitiveGroupMember
deriving DecidableEq, Repr

/-! ## The guards -/

/-- `dbms_is_prin_in_grp`. -/
def dbmsIsPrinInGrp (tables : GroupTables) (prinId grpId : Id) : Int :=
  let rows := tables.groupMembers.filter fun row =>
    row.groupId == grpId && row.memberId == prinId
  if rows.isEmpty then 0 else 1

/-- `dbms_will_loop_prin_add_grp`: a row joins the two unions. -/
def dbmsWillLoopPrinAddGrp (tables : GroupTables) (grpId prinId : Id) : Int :=
  let rows := tables.transitiveGroupMembers
  let g := Sql.union
    ((rows.filter fun row =>
        row.transitiveMemberId == grpId &&
          decide (row.transitiveCount > 0)).map
      (·.transitiveGroupId)) [grpId]
  let m := Sql.union
    ((rows.filter fun row =>
        row.transitiveGroupId == prinId &&
          decide (row.transitiveCount > 0)).map
      (·.transitiveMemberId)) [prinId]
  let joined := (Sql.crossJoin g m).filter fun pair => pair.1 == pair.2
  if joined.isEmpty then 0 else 1

/-! ## The direct table -/

/-- `dbms_add_prin_to_group`. -/
def dbmsAddPrinToGroup (schema : Schema) (tables : GroupTables)
    (groupId principalId : Id) : Except DavError GroupTables := do
  let groupMembers ← dbmsExecute "Couldn't add principal to group"
    (Sql.insert schema.uniqueConstraints id tables.groupMembers
      [⟨groupId, principalId⟩])
  return { tables with groupMembers }

/-- `dbms_rem_prin_frm_grp`. -/
def dbmsRemPrinFrmGrp (tables : GroupTables) (grpId prinId : Id) :
    GroupTables :=
  { tables with
    groupMembers := tables.groupMembers.filter fun row =>
      !(row.groupId == grpId && row.memberId == prinId) }

/-! ## The transitive table -/

/-- `grp` and its parents, from `transitive_group_members`. -/
def grpAndParents (rows : List TransitiveGroupMember) (grpId : Id) : List Id :=
  Sql.union
    ((rows.filter fun row => row.transitiveMemberId == grpId).map
      (·.transitiveGroupId)) [grpId]

/-- `prin` and its members, from `transitive_group_members`. -/
def prinAndMembers (rows : List TransitiveGroupMember) (prinId : Id) :
    List Id :=
  Sql.union
    ((rows.filter fun row => row.transitiveGroupId == prinId).map
      (·.transitiveMemberId)) [prinId]

/-- The pairs whose count the two statements change. -/
def affectedPairs (rows : List TransitiveGroupMember) (grpId prinId : Id) :
    List (Id × Id) :=
  Sql.crossJoin (grpAndParents rows grpId) (prinAndMembers rows prinId)

/--
The product by which both `UPDATE`s change a count.

The subqueries are meant to compare with the row being updated, but
`transitive_group_id` and `transitive_member_id` bind to their own table `t`,
so that the comparison holds of every row and the value is the same for all
rows of the statement.
-/
def countProduct (rows : List TransitiveGroupMember) (grpId prinId : Id) :
    Except Sql.SqlError Int := do
  let nToGrp ← Sql.scalarSubquery
    ((rows.filter fun t =>
        t.transitiveGroupId == t.transitiveGroupId &&
          t.transitiveMemberId == grpId).map (·.transitiveCount))
  let nFrmPrin ← Sql.scalarSubquery
    ((rows.filter fun t =>
        t.transitiveGroupId == prinId &&
          t.transitiveMemberId == t.transitiveMemberId).map
      (·.transitiveCount))
  return nToGrp.getD 1 * nFrmPrin.getD 1

/-- `UPDATE transitive_group_members SET transitive_count = .. WHERE .. IN ..`. -/
def updateCounts (combine : Int → Int → Int)
    (rows : List TransitiveGroupMember) (grpId prinId : Id) :
    Except Sql.SqlError (List TransitiveGroupMember) :=
  Sql.update (fun row => decide (row.key ∈ affectedPairs rows grpId prinId))
    (fun row => (countProduct rows grpId prinId).map fun product =>
      { row with
        transitiveCount := combine row.transitiveCount product })
    rows

/-- `grp` and its parents with the numbers of paths to `grp`. -/
def countsToGrp (rows : List TransitiveGroupMember) (grpId : Id) :
    List (Id × Int) :=
  Sql.union
    ((rows.filter fun row => row.transitiveMemberId == grpId).map
      fun row => (row.transitiveGroupId, row.transitiveCount)) [(grpId, 1)]

/-- `prin` and its members with the numbers of paths from `prin`. -/
def countsFrmPrin (rows : List TransitiveGroupMember) (prinId : Id) :
    List (Id × Int) :=
  Sql.union
    ((rows.filter fun row => row.transitiveGroupId == prinId).map
      fun row => (row.transitiveMemberId, row.transitiveCount)) [(prinId, 1)]

/-- The rows of the `INSERT .. SELECT` of `dbms_add_prin_to_grp_xitively`. -/
def newRows (rows : List TransitiveGroupMember) (grpId prinId : Id) :
    List TransitiveGroupMember :=
  ((Sql.crossJoin (countsToGrp rows grpId) (countsFrmPrin rows prinId)).filter
    fun pair => !decide ((pair.1.1, pair.2.1) ∈ rows.map (·.key))).map
    fun pair => ⟨pair.1.1, pair.2.1, pair.1.2 * pair.2.2⟩

/-- `dbms_add_prin_to_grp_xitively`. -/
def dbmsAddPrinToGrpXitively (schema : Schema) (tables : GroupTables)
    (grpId prinId : Id) : Except DavError GroupTables := do
  let rows ← dbmsExecute "Couldn't add principal to group"
    (updateCounts (· + ·) tables.transitiveGroupMembers grpId prinId)
  let rows ← dbmsExecute "Couldn't add principal to group"
    (Sql.insert schema.uniqueConstraints (·.key) rows
      (newRows rows grpId prinId))
  return { tables with transitiveGroupMembers := rows }

/-- `dbms_rem_prin_frm_grp_xitively`. -/
def dbmsRemPrinFrmGrpXitively (tables : GroupTables) (grpId prinId : Id) :
    Except DavError GroupTables := do
  let rows ← dbmsExecute "Couldn't add principal to group"
    (updateCounts (· - ·) tables.transitiveGroupMembers grpId prinId)
  let rows := rows.filter fun row =>
    !(decide (row.key ∈ affectedPairs rows grpId prinId) &&
      row.transitiveCount == 0)
  return { tables with transitiveGroupMembers := rows }

/-! ## `principal.c` -/

/-- `sabridge_add_prin_to_grp`. -/
def sabridgeAddPrinToGrp (schema : Schema) (tables : GroupTables)
    (grpId prinId : Id) : Except DavError GroupTables :=
  -- the callee's parameters are named `prin_id, grp_id` in this order
  if 0 ≠ dbmsIsPrinInGrp tables grpId prinId then
    .error ⟨httpConflict, "Principal already in group"⟩
  else if 0 ≠ dbmsWillLoopPrinAddGrp tables grpId prinId then
    .error ⟨httpConflict, "Can't add principal to group"⟩
  else do
    let tables ← dbmsAddPrinToGroup schema tables grpId prinId
    dbmsAddPrinToGrpXitively schema tables grpId prinId

/-- `sabridge_rem_prin_frm_grp`. -/
def sabridgeRemPrinFrmGrp (tables : GroupTables) (grpId prinId : Id) :
    Except DavError GroupTables :=
  dbmsRemPrinFrmGrpXitively (dbmsRemPrinFrmGrp tables grpId prinId)
    grpId prinId

end Limestone.DbmsPrincipal
