import Limestone.DbmsBind

/-!
# Locks of a resource: `dbms_locks.c`, `lock.c`

A query for the locks of a resource deletes the expired ones it meets and the
lock-null resources that lose their last lock.  The locks that survive an
unbind are found by a query that leaves out those recorded against the binds,
and by one path search for every lock with another root.
-/

namespace Limestone.DbmsLocks

open Library
open DbmsBind

/-! ## Tables -/

/-- A row of `locks`. -/
structure LockRow where
  id : Id
  uuid : Text
  resourceId : Id
  ownerId : Id
  form : Char
  depth : Int
  /-- `expires_at` in seconds, as `time_datetime_to_ansi` reads it. -/
  expiresAt : Int
  ownerInfo : Text
  lockroot : Text
deriving DecidableEq, Repr

/-- The tables that the queries for locks read and write. -/
structure LockTables where
  /-- `id` and `type`. -/
  resources : List (Id × ResourceType)
  /-- `resource_id` and `name`. -/
  principals : List (Id × Text)
  binds : List Bind
  locks : List LockRow
  /-- `lock_id` and `resource_id`. -/
  locksResources : List (Id × Id)
  /-- `lock_id` and `bind_id`. -/
  bindsLocks : List (Id × Id)
deriving Repr

/-- The tables with the keys that the queries rely on. -/
structure LockDatabase extends LockTables where
  bindTable : BindTable
  bindRows : bindTable.rows = binds
  locksPkey : (locks.map LockRow.id).Nodup
  locksResourcesPkey : locksResources.Nodup
  bindsLocksBindId :
    ∀ entry ∈ bindsLocks, ∃ bind ∈ binds, bind.id = entry.2
  principalsKey : (principals.map Prod.fst).Nodup
  locksOwnerId : ∀ lock ∈ locks, lock.ownerId ∈ principals.map Prod.fst

/-! ## Deleting -/

/-- `DELETE FROM locks` with its cascades. -/
def deleteLocks (tables : LockTables) (lockIds : List Id) : LockTables :=
  { tables with
    locks := tables.locks.filter fun lock => !decide (lock.id ∈ lockIds)
    locksResources := tables.locksResources.filter fun entry =>
      !decide (entry.1 ∈ lockIds)
    bindsLocks := tables.bindsLocks.filter fun entry =>
      !decide (entry.1 ∈ lockIds) }

/-- Whether a bind has the resource at one of its ends. -/
def touches (resId : Id) (bind : Bind) : Bool :=
  bind.collectionId == resId || bind.resourceId == resId

/-- `DELETE FROM resources` with its cascades. -/
def deleteResource (tables : LockTables) (resId : Id) : LockTables :=
  let bindIds := (tables.binds.filter (touches resId)).map Bind.id
  let lockIds := (tables.locks.filter fun lock =>
    lock.resourceId == resId || lock.ownerId == resId).map LockRow.id
  let tables := deleteLocks tables lockIds
  { tables with
    resources := tables.resources.filter fun row => row.1 != resId
    principals := tables.principals.filter fun row => row.1 != resId
    binds := tables.binds.filter fun bind => !touches resId bind
    locksResources := tables.locksResources.filter fun entry =>
      entry.2 != resId
    bindsLocks := tables.bindsLocks.filter fun entry =>
      !decide (entry.2 ∈ bindIds) }

/--
`dbms_delete_exp_locks`.  The list of two lock-null resources begins with a
comma, so that the last statement fails and takes the transaction with it.
-/
def dbmsDeleteExpLocks (tables : LockTables) (expLockIds : List Id) :
    Option LockTables :=
  let expLocknullIds := (tables.resources.filter fun row =>
    row.2 == .lockNull && tables.locks.any fun lock =>
      decide (lock.id ∈ expLockIds) && lock.resourceId == row.1).map Prod.fst
  let tables := deleteLocks tables expLockIds
  match expLocknullIds with
  | [] => some tables
  | [resId] =>
      if tables.locks.any fun lock => lock.resourceId == resId then some tables
      else some (deleteResource tables resId)
  | _ :: _ :: _ => none

/-! ## Reading -/

/-- `dav_lock_scope`. -/
inductive LockScope where
  | unknown
  | exclusive
  | shared
deriving DecidableEq, Repr

/-- `DAV_LOCKREC_DIRECT` and `DAV_LOCKREC_INDIRECT`. -/
inductive LockRectype where
  | direct
  | indirect
deriving DecidableEq, Repr

/-- `DAV_INFINITY`. -/
def davInfinity : Int := 2147483647

/-- A `dav_lock`, as far as the queries fill it. -/
structure DavLock where
  uuid : Text
  scope : LockScope
  rectype : LockRectype
  /-- `info->res_id`. -/
  resId : Id
  depth : Int
  timeout : Int
  owner : Text
  authUser : Text
  /-- `info->lock_id`. -/
  lockId : Id
  lockroot : Text
deriving DecidableEq, Repr

/-- The lock that is made of a row. -/
def readLock (serialno : Id) (rootPath : Text) (unresolved : Bool)
    (lock : LockRow) (name : Text) : DavLock where
  uuid := lock.uuid
  scope :=
    if lock.form = 'S' then .shared
    else if lock.form = 'X' then .exclusive
    else .unknown
  rectype := if unresolved then .indirect else .direct
  resId := if unresolved then serialno else lock.resourceId
  depth := if unresolved || lock.depth == 0 then 0 else davInfinity
  timeout := lock.expiresAt
  owner := lock.ownerInfo
  authUser := name
  lockId := lock.id
  lockroot := rootPath ++ lock.lockroot

/-- The loop over the rows; `indirect` is never set back. -/
def readLocks (serialno : Id) (rootPath : Text) (resolveIndirect : Bool) :
    Bool → List (LockRow × Text) → List DavLock
  | _, [] => []
  | indirect, (lock, name) :: rows =>
      let indirect := indirect || lock.resourceId != serialno
      readLock serialno rootPath (indirect && !resolveIndirect) lock name ::
        readLocks serialno rootPath resolveIndirect indirect rows

/-- Whether the time of a lock is over. -/
def expired (now : Int) (lock : DavLock) : Bool :=
  lock.timeout != 0 && decide (lock.timeout ≤ now)

/-- The time of a lock is over. -/
def Over (now : Int) (lock : LockRow) : Prop :=
  lock.expiresAt ≠ 0 ∧ lock.expiresAt ≤ now

/-- The rows of `locks_resources`, `locks` and `principals` joined. -/
def lockRows (tables : LockTables) (whereStr : Id × Id → LockRow → Bool) :
    List (LockRow × Text) :=
  tables.locksResources.flatMap fun entry =>
    (tables.locks.filter fun lock => lock.id == entry.1).flatMap fun lock =>
      (tables.principals.filter fun principal =>
          principal.1 == lock.ownerId && whereStr entry lock).map
        fun principal => (lock, principal.2)

/-- `dbms_get_locks_by_where_str`: the locks and what is left of the tables. -/
def dbmsGetLocksByWhereStr (order : Sql.RowOrder (LockRow × Text))
    (now : Int) (tables : LockTables) (serialno : Id) (rootPath : Text)
    (resolveIndirect : Bool) (whereStr : Id × Id → LockRow → Bool) :
    List DavLock × Option LockTables :=
  let locks := readLocks serialno rootPath resolveIndirect false
    (order.arrange 0 (lockRows tables whereStr))
  let expLockIds := (locks.filter (expired now)).map DavLock.lockId
  (locks.filter fun lock => !expired now lock,
    if expLockIds = [] then some tables
    else dbmsDeleteExpLocks tables expLockIds)

/-- `dbms_get_locks`. -/
def dbmsGetLocks (order : Sql.RowOrder (LockRow × Text)) (now : Int)
    (tables : LockTables) (serialno : Id) (rootPath : Text)
    (resolveIndirect : Bool) : List DavLock × Option LockTables :=
  dbmsGetLocksByWhereStr order now tables serialno rootPath resolveIndirect
    fun entry _ => entry.2 == serialno

/-- The `where_str` for the locks not recorded against the binds. -/
def notDirectlyThrough (tables : LockTables) (serialno : Id)
    (bindList : List Id) (entry : Id × Id) (lock : LockRow) : Bool :=
  entry.2 == serialno &&
    !(tables.bindsLocks.any fun row =>
      row.1 == lock.id && decide (row.2 ∈ excludedIds bindList))

/-- `dbms_get_locks_not_directly_through_binds`. -/
def dbmsGetLocksNotDirectlyThroughBinds
    (order : Sql.RowOrder (LockRow × Text)) (now : Int) (tables : LockTables)
    (serialno : Id) (rootPath : Text) (bindList : List Id) :
    List DavLock × Option LockTables :=
  dbmsGetLocksByWhereStr order now tables serialno rootPath true
    (notDirectlyThrough tables serialno bindList)

/-- What a call for the locks of a resource comes to. -/
inductive LocksResult where
  /-- `binds` is NULL where its first element is written. -/
  | undefined
  /-- A path search is running. -/
  | running
  /-- The locks, and the tables unless the transaction has failed. -/
  | returned (locks : List DavLock) (tables : Option LockTables)

/-- The search for a path of a lock; in a failed transaction there is none. -/
def findsPath (fuel : Nat) (order : Sql.RowOrder Bind)
    (tables : Option LockTables) (lock : DavLock) (serialno : Id)
    (binds : List Id) : Option Bool :=
  match tables with
  | none => some false
  | some tables =>
      (dbmsFindShortestPathExclBinds fuel order tables.binds lock.resId
        serialno binds).map Option.isSome

/-- The loop that unlinks the locks without a path. -/
def unlinkLocks (keeps : DavLock → Option Bool) :
    List DavLock → Option (List DavLock)
  | [] => some []
  | lock :: locks =>
      match keeps lock with
      | none => none
      | some kept => (unlinkLocks keeps locks).map fun rest =>
          if kept then lock :: rest else rest

/-- The ids that `dbms_get_bind` finds for the binds of a request. -/
def bindIds (binds : List Bind) (bind1 : Id × Text)
    (bind2 : Option (Id × Text)) : List Id :=
  (bind1 :: bind2.toList).map fun bind => dbmsGetBindId binds bind.1 bind.2

/--
`dav_repos_get_locks_not_through_binds`.  A bind is given by its collection
and its name, and `orders` has the row order of the search for each lock.
-/
def davReposGetLocksNotThroughBinds (fuel : Nat)
    (order : Sql.RowOrder (LockRow × Text))
    (orders : Id → Sql.RowOrder Bind) (now : Int) (tables : LockTables)
    (serialno : Id) (rootPath : Text) (bind1 bind2 : Option (Id × Text)) :
    LocksResult :=
  match bind1, bind2 with
  | none, none =>
      let (locks, after) :=
        dbmsGetLocks order now tables serialno rootPath true
      .returned locks after
  | none, some _ => .undefined
  | some bind1, bind2 =>
      let binds := bindIds tables.binds bind1 bind2
      let (locks, after) := dbmsGetLocksNotDirectlyThroughBinds order now
        tables serialno rootPath binds
      let keeps := fun lock =>
        if lock.resId = serialno then some true
        else findsPath fuel (orders lock.lockId) after lock serialno binds
      match unlinkLocks keeps locks with
      | none => .running
      | some locks => .returned locks after

/-! ## What the queries read -/

section Rows

variable {tables : LockTables} {serialno : Id} {rootPath : Text} {now : Int}

/-- With `resolve_indirect` every row is read the same way. -/
theorem readLocks_resolved
    (serialno : Id) (rootPath : Text) (indirect : Bool)
    (rows : List (LockRow × Text)) :
    readLocks serialno rootPath true indirect rows =
      rows.map fun row => readLock serialno rootPath false row.1 row.2 := by
  induction rows generalizing indirect with
  | nil => rfl
  | cons row rows induction =>
      rw [readLocks, induction, Bool.not_true, Bool.and_false, List.map_cons]

theorem mem_lockRows
    {whereStr : Id × Id → LockRow → Bool} {row : LockRow × Text} :
    row ∈ lockRows tables whereStr ↔
      ∃ entry ∈ tables.locksResources,
        row.1 ∈ tables.locks ∧ row.1.id = entry.1 ∧
          (row.1.ownerId, row.2) ∈ tables.principals ∧
          whereStr entry row.1 = true := by
  rcases row with ⟨lock, name⟩
  simp only [lockRows, List.mem_flatMap, List.mem_map, List.mem_filter,
    beq_iff_eq, Bool.and_eq_true]
  constructor
  · rintro ⟨entry, listed, other, ⟨present, same⟩, principal,
      ⟨known, owner, met⟩, equal⟩
    rcases Prod.mk.inj equal with ⟨rfl, rfl⟩
    exact ⟨entry, listed, present, same, owner ▸ known, met⟩
  · rintro ⟨entry, listed, present, same, known, met⟩
    exact ⟨entry, listed, lock, ⟨present, same⟩, _, ⟨known, rfl, met⟩, rfl⟩

@[simp]
theorem expired_readLock {lock : LockRow} {name : Text} :
    expired now (readLock serialno rootPath false lock name) = true ↔
      Over now lock := by
  simp [expired, readLock, Over]

end Rows

end Limestone.DbmsLocks
