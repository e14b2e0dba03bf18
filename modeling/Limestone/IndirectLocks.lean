import Limestone.BridgeUnbind
import Limestone.DetectBind
import Limestone.ExcludedBinds
import Limestone.ExpiredLocks
import Limestone.SurvivingLocks

/-!
# Indirect locks when a bind goes: `lock_bridge.c`

The bind is deleted, the locks of its resource are gone through, and the bind is
inserted again.  The locks are read without their roots, so that a path is
searched from the resource to itself; a row that is inserted again has another
id.
-/

namespace Limestone.IndirectLocks

open Library
open Library.Segments
open DbmsBind
open DbmsLocks
open DetectBind
open ExcludedBinds
open ExpiredLocks
open PathSearch
open UriLookup

/-! ## The functions -/

/--
The `serialno` of `sabridge_retrieve_parent`, for a URI behind the root path
that is not `/`: zero when the parent is unmapped.
-/
def parentSerialno (binds : List Bind) (uri : Text) : Id :=
  let names := (tokens '/' uri).dropLast
  let chain := walkBinds binds rootCollectionId names
  if chain.length = names.length then
    (chain.getLast?.map Bind.resourceId).getD rootCollectionId
  else 0

/-- `dbms_delete_bind`; `binds_locks` has a foreign key that cascades. -/
def dbmsDeleteBind (tables : LockTables) (collId resId : Id)
    (bindName : Text) : LockTables :=
  let deleted := (tables.binds.filter fun bind =>
    bind.collectionId == collId && bind.resourceId == resId &&
      bind.name == bindName).map Bind.id
  { tables with
    binds := DbmsBind.dbmsDeleteBind tables.binds collId resId bindName
    bindsLocks := tables.bindsLocks.filter fun entry =>
      !decide (entry.2 ∈ deleted) }

/--
`dbms_insert_bind`, where `bindId` is what `binds_id_seq` gives.  Foreign keys
are checked when the transaction ends.
-/
def dbmsInsertBind (tables : LockTables) (bindId resourceId collectionId : Id)
    (bindname updatedAt : Text) : Option LockTables :=
  if bindId ∈ tables.binds.map Bind.id ∨
      (collectionId, bindname) ∈ tables.binds.map Bind.key then none
  else some { tables with
    binds := tables.binds ++
      [⟨bindId, bindname, collectionId, resourceId, some updatedAt⟩] }

/-- `dbms_remove_indirect_lock`. -/
def dbmsRemoveIndirectLock (tables : LockTables) (lockId serialno : Id) :
    LockTables :=
  { tables with
    locksResources := tables.locksResources.filter fun entry =>
      !(entry.1 == lockId && entry.2 == serialno) }

/-- What the calls take from elsewhere. -/
structure Call where
  /-- The order of the rows when the locks of a resource are read. -/
  lockOrder : Id → Sql.RowOrder (LockRow × Text)
  /-- The orders of the rows when a path for a lock is searched. -/
  bindOrder : Id → Sql.RowOrder Bind
  memberOrder : Sql.RowOrder Bind
  now : Int
  rootPath : Text
  /-- What `binds_id_seq` gives. -/
  bindId : Id
  updatedAt : Text

/-- Whether the path is not NULL; a query in a failed transaction fails. -/
def pathFound (fuel : Nat) (order : Sql.RowOrder Bind)
    (tables : Option LockTables) (fromResId toResId : Id) : Option Bool :=
  match tables with
  | none => some (decide (fromResId = toResId))
  | some tables =>
      (dbmsFindShortestPath fuel order tables.binds fromResId toResId).map
        Option.isSome

/-- The body of the loop over the locks: the tables and `*removed`. -/
def removeUnreachable (fuel : Nat) (call : Call) (serialno : Id)
    (state : Option LockTables × Bool) (lock : DavLock) :
    Option (Option LockTables × Bool) :=
  (pathFound fuel (call.bindOrder lock.lockId) state.1 lock.resId
    serialno).map fun found =>
      if found then state
      else (state.1.map fun tables =>
        dbmsRemoveIndirectLock tables lock.lockId serialno, true)

/--
`sabridge_remove_all_indirect`: the tables, unless the transaction has failed,
and `*removed`; `none` while a search is running.
-/
def sabridgeRemoveAllIndirect (fuel : Nat) (call : Call)
    (tables : Option LockTables) (serialno : Id) :
    Option (Option LockTables × Bool) :=
  match tables with
  | none => some (none, false)
  | some tables =>
      let (locks, after) := dbmsGetLocks (call.lockOrder serialno) call.now
        tables serialno call.rootPath false
      locks.foldlM (removeUnreachable fuel call serialno) (after, false)

/-- `sabridge_get_collection_children` with depth one and no privilege. -/
def sabridgeGetCollectionChildren (call : Call) (tables : Option LockTables)
    (dbR : Id × ResourceType) : List (Id × ResourceType) :=
  match tables with
  | none => []
  | some tables =>
      if dbR.2.isCollection then
        (call.memberOrder.arrange 0 (tables.binds.filter fun bind =>
          bind.collectionId == dbR.1)).filterMap fun bind =>
            tables.resources.find? fun row => row.1 == bind.resourceId
      else []

/-- The variables of the loop. -/
structure Walk where
  tables : Option LockTables
  /-- The list from `link_item` on. -/
  items : List (Id × ResourceType)

/-- The loop over the list; the members are those of `db_r`. -/
def walkStep (fuel : Nat) (call : Call) (dbR : Id × ResourceType)
    (walk : Walk) : Option (Option LockTables) ⊕ Walk :=
  match walk.items with
  | [] => .inl (some walk.tables)
  | linkItem :: items =>
      match sabridgeRemoveAllIndirect fuel call walk.tables linkItem.1 with
      | none => .inl none
      | some (tables, removed) =>
          .inr
            { tables := tables
              items := items ++
                (if removed && linkItem.2.isCollection then
                  sabridgeGetCollectionChildren call tables dbR
                else []) }

/--
`sabridge_remove_indirect_locks_d_inf`: the tables, or `some none` for an
error; `none` while a loop is running.
-/
def sabridgeRemoveIndirectLocksDInf (fuel : Nat) (call : Call)
    (tables : LockTables) (dbR : Id × ResourceType) (uri : Text) :
    Option (Option LockTables) :=
  let bind := dbmsGetBind tables.binds
    ⟨parentSerialno tables.binds uri, some (basename uri), 0, 0, none⟩
  let unbound := dbmsDeleteBind tables bind.parentId bind.resourceId
    (basename uri)
  match Loop.run (walkStep fuel call dbR) fuel ⟨some unbound, [dbR]⟩ with
  | none => none
  | some none => none
  | some (some left) =>
      some (left.bind fun tables =>
        dbmsInsertBind tables call.bindId bind.resourceId bind.parentId
          (basename uri) call.updatedAt)

/-! ## Nothing is removed -/

section Walking

variable {serialno : Id} {rootPath : Text} {indirect : Bool} {fuel : Nat}
  {call : Call} {tables : LockTables} {dbR : Id × ResourceType}

/-- Without `resolve_indirect` every lock has the resource for its root. -/
theorem resId_of_mem_readLocks
    {rows : List (LockRow × Text)} {lock : DavLock}
    (member : lock ∈ readLocks serialno rootPath false indirect rows) :
    lock.resId = serialno := by
  induction rows generalizing indirect with
  | nil => cases member
  | cons row rows induction =>
      rcases row with ⟨first, name⟩
      rw [readLocks, Bool.not_false, Bool.and_true] at member
      rcases List.mem_cons.mp member with rfl | later
      · rw [readLock]
        dsimp only
        split
        · rfl
        · next direct =>
            rw [Bool.or_eq_true, not_or, bne_iff_ne, not_not] at direct
            exact direct.2
      · exact induction later

/-- From a resource to itself a path is found, whatever the tables are. -/
theorem pathFound_self
    (fuel : Nat) (order : Sql.RowOrder Bind) (tables : Option LockTables)
    (resId : Id) :
    pathFound fuel order tables resId resId = some true := by
  cases tables with
  | none => exact congrArg some (decide_eq_true rfl)
  | some tables =>
      show (dbmsFindShortestPath fuel order tables.binds resId resId).map
        Option.isSome = some true
      rw [dbmsFindShortestPath, dbmsFindShortestPathExclBinds, if_pos rfl]
      rfl

/-- The loop over such locks changes nothing. -/
theorem foldlM_removeUnreachable
    {locks : List DavLock} (state : Option LockTables × Bool)
    (roots : ∀ lock ∈ locks, lock.resId = serialno) :
    locks.foldlM (removeUnreachable fuel call serialno) state =
      some state := by
  induction locks with
  | nil => rfl
  | cons lock locks induction =>
      rw [List.forall_mem_cons] at roots
      have kept : removeUnreachable fuel call serialno state lock =
          some state := by
        rw [removeUnreachable, roots.1, pathFound_self]
        rfl
      rw [List.foldlM_cons, kept]
      exact induction roots.2

/-- No lock is removed; what goes are locks that have expired. -/
theorem sabridgeRemoveAllIndirect_eq :
    sabridgeRemoveAllIndirect fuel call (some tables) serialno =
      some ((dbmsGetLocks (call.lockOrder serialno) call.now tables serialno
        call.rootPath false).2, false) := by
  apply foldlM_removeUnreachable
  intro lock member
  exact resId_of_mem_readLocks (List.mem_of_mem_filter member)

/-- The loop ends with the resource itself. -/
theorem run_walkStep
    (enough : 1 < fuel) :
    Loop.run (walkStep fuel call dbR) fuel ⟨some tables, [dbR]⟩ =
      some (some (dbmsGetLocks (call.lockOrder dbR.1) call.now tables dbR.1
        call.rootPath false).2) := by
  have step : walkStep fuel call dbR ⟨some tables, [dbR]⟩ =
      .inr ⟨(dbmsGetLocks (call.lockOrder dbR.1) call.now tables dbR.1
        call.rootPath false).2, []⟩ := by
    rw [walkStep]
    dsimp only
    rw [sabridgeRemoveAllIndirect_eq]
    rfl
  have runs : Loop.run (walkStep fuel call dbR) 2 ⟨some tables, [dbR]⟩ =
      some (some (dbmsGetLocks (call.lockOrder dbR.1) call.now tables dbR.1
        call.rootPath false).2) := by
    rw [Loop.run, step]
    rfl
  exact Loop.run_mono runs enough

end Walking

/-! ## The locks that have expired -/

/-- The time of a lock is over. -/
def timedOut (now : Int) (lock : LockRow) : Bool :=
  lock.expiresAt != 0 && decide (lock.expiresAt ≤ now)

/-- The ids of the expired locks on a resource. -/
def expiredIds (tables : LockTables) (now : Int) (serialno : Id) : List Id :=
  ((lockRows tables fun entry _ => entry.2 == serialno).filter fun row =>
    timedOut now row.1).map fun row => row.1.id

section Expiring

variable {tables left : LockTables} {now : Int} {serialno : Id}
  {rootPath : Text}

/-- The time of a lock is read of its row, whatever root it is given. -/
theorem map_readLocks
    (serialno : Id) (rootPath : Text) (resolveIndirect indirect : Bool)
    (rows : List (LockRow × Text)) :
    ((readLocks serialno rootPath resolveIndirect indirect rows).filter
        (expired now)).map DavLock.lockId =
      (rows.filter fun row => timedOut now row.1).map fun row => row.1.id := by
  induction rows generalizing indirect with
  | nil => rfl
  | cons row rows induction =>
      have same : ∀ flag, expired now
          (readLock serialno rootPath flag row.1 row.2) =
            timedOut now row.1 :=
        fun _ => rfl
      rw [readLocks, List.filter_cons, List.filter_cons, same]
      cases timedOut now row.1 with
      | false => exact induction _
      | true => exact congrArg (row.1.id :: ·) (induction _)

/-- What reading the locks of a resource leaves of the tables. -/
theorem dbmsGetLocks_after
    (order : Sql.RowOrder (LockRow × Text)) (resolveIndirect : Bool) :
    (dbmsGetLocks order now tables serialno rootPath resolveIndirect).2 =
      DbmsLocks.dbmsDeleteExpLocks tables (expiredIds tables now serialno) := by
  have perm : ((readLocks serialno rootPath resolveIndirect false
      (order.arrange 0 (lockRows tables fun entry _ =>
        entry.2 == serialno))).filter (expired now)).map DavLock.lockId |>.Perm
          (expiredIds tables now serialno) := by
    rw [map_readLocks]
    exact ((order.perm 0 _).filter _).map _
  unfold dbmsGetLocks dbmsGetLocksByWhereStr
  dsimp only
  rw [SurvivingLocks.dbmsDeleteExpLocks_congr tables fun _ => perm.mem_iff]
  split
  · next none =>
      rw [none] at perm
      rw [perm.symm.eq_nil, dbmsDeleteExpLocks_nil]
  · rfl

theorem mem_expiredIds
    (consistent : LockNull.Consistent tables)
    {lock : LockRow} (listed : lock ∈ tables.locks) :
    lock.id ∈ expiredIds tables now serialno ↔
      (lock.id, serialno) ∈ tables.locksResources ∧
        timedOut now lock = true := by
  rw [expiredIds, List.mem_map]
  constructor
  · rintro ⟨row, member, same⟩
    rcases List.mem_filter.mp member with ⟨here, late⟩
    rcases mem_lockRows.mp here with
      ⟨entry, recorded, other, entryId, -, onResource⟩
    have equal : row.1 = lock :=
      List.inj_on_of_nodup_map consistent.locksPkey other listed same
    have pair : entry = (lock.id, serialno) :=
      Prod.ext (entryId.symm.trans same) (beq_iff_eq.mp onResource)
    exact ⟨pair ▸ recorded, equal ▸ late⟩
  · rintro ⟨recorded, late⟩
    rcases List.mem_map.mp (consistent.locksOwnerId lock listed) with
      ⟨⟨owner, name⟩, principal, same⟩
    refine ⟨(lock, name), List.mem_filter.mpr ⟨?_, late⟩, rfl⟩
    refine mem_lockRows.mpr ⟨_, recorded, listed, rfl, ?_, beq_self_eq_true _⟩
    have ownerId : owner = lock.ownerId := same
    exact ownerId ▸ principal

end Expiring

/-! ## The bind is inserted again -/

section Binding

variable {tables left : LockTables} {parentId resId : Id} {name : Text}

/-- Behind the deletion the collection has no bind of the name. -/
theorem key_free
    (collectionIdKey : (tables.binds.map Bind.key).Nodup)
    (parentId : Id) (name : Text) :
    (parentId, name) ∉ (dbmsDeleteBind tables parentId
      (dbmsGetBind tables.binds ⟨parentId, some name, 0, 0, none⟩).resourceId
      name).binds.map Bind.key := by
  intro listed
  rcases List.mem_map.mp listed with ⟨bind, left, key⟩
  rcases List.mem_filter.mp left with ⟨member, kept⟩
  rcases Prod.mk.inj key with ⟨collection, named⟩
  have found : bindNamed tables.binds parentId name = some bind := by
    have pairs : (fun row : Bind =>
        row.collectionId == parentId && row.name == name) =
          fun row => row.key == (parentId, name) := by
      funext row
      exact Bool.eq_iff_iff.mpr (by simp [Bind.key])
    rw [bindNamed, pairs]
    rcases Sql.filter_key collectionIdKey (parentId, name) with
      none | ⟨only, one⟩
    · have here : bind ∈ tables.binds.filter fun row =>
          row.key == (parentId, name) :=
        List.mem_filter.mpr ⟨member, beq_iff_eq.mpr key⟩
      rw [none] at here
      cases here
    · have here : bind ∈ tables.binds.filter fun row =>
          row.key == (parentId, name) :=
        List.mem_filter.mpr ⟨member, beq_iff_eq.mpr key⟩
      rw [one] at here ⊢
      rw [List.mem_singleton.mp here]
      rfl
  have resource : (dbmsGetBind tables.binds
      ⟨parentId, some name, 0, 0, none⟩).resourceId = bind.resourceId := by
    rw [dbmsGetBind]
    dsimp only
    rw [Option.bind_some, found]
    rfl
  rw [resource, collection, named] at kept
  simp at kept

/-- The bind can be inserted into what is left. -/
theorem dbmsInsertBind_eq
    {bindId : Id} {updatedAt : Text}
    (collectionIdKey : (tables.binds.map Bind.key).Nodup)
    (fresh : bindId ∉ tables.binds.map Bind.id)
    (kept : ∀ bind ∈ left.binds,
      bind ∈ (dbmsDeleteBind tables parentId
        (dbmsGetBind tables.binds ⟨parentId, some name, 0, 0, none⟩).resourceId
        name).binds) :
    dbmsInsertBind left bindId resId parentId name updatedAt =
      some { left with
        binds := left.binds ++
          [⟨bindId, name, parentId, resId, some updatedAt⟩] } := by
  rw [dbmsInsertBind, if_neg]
  rintro (used | named)
  · rcases List.mem_map.mp used with ⟨bind, member, same⟩
    exact fresh (List.mem_map.mpr
      ⟨bind, List.mem_of_mem_filter (kept bind member), same⟩)
  · rcases List.mem_map.mp named with ⟨bind, member, same⟩
    exact key_free collectionIdKey parentId name
      (List.mem_map.mpr ⟨bind, kept bind member, same⟩)

end Binding

/-! ## The whole call -/

section Calling

variable {tables : LockTables} {call : Call} {fuel : Nat}
  {dbR : Id × ResourceType} {uri : Text}

/-- The tables without the bind. -/
def unbound (tables : LockTables) (uri : Text) : LockTables :=
  let parentId := parentSerialno tables.binds uri
  dbmsDeleteBind tables parentId
    (dbmsGetBind tables.binds
      ⟨parentId, some (basename uri), 0, 0, none⟩).resourceId (basename uri)

/-- The bind that is inserted again. -/
def rebound (tables : LockTables) (call : Call) (uri : Text) : Bind :=
  let parentId := parentSerialno tables.binds uri
  ⟨call.bindId, basename uri, parentId,
    (dbmsGetBind tables.binds
      ⟨parentId, some (basename uri), 0, 0, none⟩).resourceId,
    some call.updatedAt⟩

/-- Expired locks are deleted, and the bind is inserted with another id. -/
theorem sabridgeRemoveIndirectLocksDInf_eq
    (collectionIdKey : (tables.binds.map Bind.key).Nodup)
    (fresh : call.bindId ∉ tables.binds.map Bind.id)
    (enough : 1 < fuel) :
    sabridgeRemoveIndirectLocksDInf fuel call tables dbR uri =
      some ((DbmsLocks.dbmsDeleteExpLocks (unbound tables uri)
        (expiredIds tables call.now dbR.1)).map fun left =>
          { left with binds := left.binds ++ [rebound tables call uri] }) := by
  unfold sabridgeRemoveIndirectLocksDInf
  dsimp only
  have expired : expiredIds (unbound tables uri) call.now dbR.1 =
      expiredIds tables call.now dbR.1 :=
    rfl
  have runs := @run_walkStep fuel call (unbound tables uri) dbR enough
  rw [dbmsGetLocks_after, expired] at runs
  have parent : (dbmsGetBind tables.binds
      ⟨parentSerialno tables.binds uri, some (basename uri), 0, 0,
        none⟩).parentId = parentSerialno tables.binds uri :=
    rfl
  have tablesLeft : dbmsDeleteBind tables (parentSerialno tables.binds uri)
      (dbmsGetBind tables.binds
        ⟨parentSerialno tables.binds uri, some (basename uri), 0, 0,
          none⟩).resourceId (basename uri) = unbound tables uri :=
    rfl
  rw [parent, tablesLeft, runs]
  dsimp only
  cases done : DbmsLocks.dbmsDeleteExpLocks (unbound tables uri)
      (expiredIds tables call.now dbR.1) with
  | none => rfl
  | some left =>
      rw [Option.bind_some, Option.map_some]
      apply congrArg some
      exact dbmsInsertBind_eq collectionIdKey fresh
        fun bind => mem_binds_of_dbmsDeleteExpLocks done

/-! ## What is left of the binds -/

/-- `binds` and `binds_locks` have the rows that they had. -/
def SameBinds (tables after : LockTables) : Prop :=
  (∀ bind, bind ∈ after.binds ↔ bind ∈ tables.binds) ∧
    ∀ entry, entry ∈ after.bindsLocks ↔ entry ∈ tables.bindsLocks

/--
The call leaves the binds as they were, if it succeeds, iff it fails: two
lock-null resources are roots of expired locks on the resource.
-/
theorem sameBinds_iff
    (collectionIdKey : (tables.binds.map Bind.key).Nodup)
    (fresh : call.bindId ∉ tables.binds.map Bind.id)
    (enough : 1 < fuel) :
    (∃ result, sabridgeRemoveIndirectLocksDInf fuel call tables dbR uri =
        some result ∧
      ∀ after, result = some after → SameBinds tables after) ↔
      2 ≤ (locknullRoots tables (expiredIds tables call.now dbR.1)).length := by
  rw [sabridgeRemoveIndirectLocksDInf_eq collectionIdKey fresh enough]
  have roots : locknullRoots (unbound tables uri)
      (expiredIds tables call.now dbR.1) =
        locknullRoots tables (expiredIds tables call.now dbR.1) :=
    rfl
  rw [← roots, ← dbmsDeleteExpLocks_eq_none_iff]
  cases done : DbmsLocks.dbmsDeleteExpLocks (unbound tables uri)
      (expiredIds tables call.now dbR.1) with
  | none =>
      refine iff_of_true ⟨none, rfl, ?_⟩ rfl
      intro after succeeded
      cases succeeded
  | some left =>
      apply iff_of_false
      · rintro ⟨result, returned, same⟩
        rcases Option.some.inj returned with rfl
        have inserted : rebound tables call uri ∈ tables.binds := by
          apply ((same _ rfl).1 _).mp
          exact List.mem_append_right _ (List.mem_singleton_self _)
        exact fresh (List.mem_map.mpr ⟨_, inserted, rfl⟩)
      · intro failed
        cases failed

/-! ## What is left of the locks -/

/-- Each lock is recorded on the resources that its root reaches. -/
def RecordedExactly (tables : LockTables) : Prop :=
  ∀ lock ∈ tables.locks, lock.depth ≠ 0 ∧
    ∀ resId, (lock.id, resId) ∈ tables.locksResources ↔
      (bindGraph tables.binds).Reaches lock.resourceId resId

/--
Below the bind an indirect lock is left where its root reaches the resource
without the bind, and elsewhere all locks are left.
-/
structure KeepsReached (tables : LockTables) (bind : Bind)
    (after : LockTables) : Prop where
  below : ∀ lock ∈ tables.locks, ∀ resId, resId ≠ lock.resourceId →
    (bindGraph tables.binds).Reaches bind.resourceId resId →
      ((lock.id, resId) ∈ after.locksResources ↔
        (avoiding tables.binds [bind.id]).Reaches lock.resourceId resId)
  elsewhere : ∀ lock ∈ tables.locks, ∀ resId,
    ¬ (bindGraph tables.binds).Reaches bind.resourceId resId →
      ((lock.id, resId) ∈ after.locksResources ↔
        (lock.id, resId) ∈ tables.locksResources)

/-- A lock that has expired, on the resource of the bind. -/
def ExpiredBelow (tables : LockTables) (now : Int) (bind : Bind)
    (lock : LockRow) : Prop :=
  timedOut now lock = true ∧
    (bindGraph tables.binds).Reaches lock.resourceId bind.resourceId

/-- A lock-null resource all of whose locks are such locks. -/
structure GoesWithLocks (tables : LockTables) (now : Int) (bind : Bind)
    (resId : Id) : Prop where
  lockNull : (resId, ResourceType.lockNull) ∈ tables.resources
  root : ∃ lock ∈ tables.locks, ExpiredBelow tables now bind lock ∧
    lock.resourceId = resId
  last : ∀ lock ∈ tables.locks, lock.resourceId = resId →
    ExpiredBelow tables now bind lock

/-- No lock is to be removed but those that go with their time. -/
structure NothingToRemove (tables : LockTables) (now : Int) (bind : Bind) :
    Prop where
  /-- Another path leads from the root to each resource below the bind. -/
  paths : ∀ lock ∈ tables.locks, ¬ ExpiredBelow tables now bind lock →
    ∀ resId, resId ≠ lock.resourceId →
      (bindGraph tables.binds).Reaches bind.resourceId resId →
      (bindGraph tables.binds).Reaches lock.resourceId resId →
      ¬ GoesWithLocks tables now bind resId →
        (avoiding tables.binds [bind.id]).Reaches lock.resourceId resId
  /-- An expired lock covers nothing that is reached without the bind. -/
  expired : ∀ lock ∈ tables.locks, ExpiredBelow tables now bind lock →
    (bindGraph tables.binds).Reaches bind.resourceId lock.resourceId ∧
      ∀ resId, resId ≠ lock.resourceId →
        ¬ (avoiding tables.binds [bind.id]).Reaches lock.resourceId resId
  /-- A resource that goes is reached from no other root without the bind. -/
  goes : ∀ resId, GoesWithLocks tables now bind resId →
    ∀ lock ∈ tables.locks, resId ≠ lock.resourceId →
      ¬ (avoiding tables.binds [bind.id]).Reaches lock.resourceId resId

section Keeping

variable {bind : Bind} {left : LockTables} {serialno : Id}

theorem mem_expiredIds_iff
    (consistent : LockNull.Consistent tables)
    (recorded : RecordedExactly tables)
    {lock : LockRow} (listed : lock ∈ tables.locks) :
    lock.id ∈ expiredIds tables call.now bind.resourceId ↔
      ExpiredBelow tables call.now bind lock := by
  rw [mem_expiredIds consistent listed, (recorded lock listed).2]
  exact and_comm

theorem goesWithLocks_iff
    (consistent : LockNull.Consistent tables)
    (recorded : RecordedExactly tables) {resId : Id} :
    ((resId, ResourceType.lockNull) ∈ tables.resources ∧
        LosesLastLock tables (expiredIds tables call.now bind.resourceId)
          (resId, .lockNull)) ↔
      GoesWithLocks tables call.now bind resId := by
  constructor
  · rintro ⟨lockNull, -, ⟨lock, listed, expired, root⟩, last⟩
    refine ⟨lockNull, ⟨lock, listed, ?_, root⟩, ?_⟩
    · exact (mem_expiredIds_iff consistent recorded listed).mp expired
    · intro other member same
      exact (mem_expiredIds_iff consistent recorded member).mp
        (last other member same)
  · rintro ⟨lockNull, ⟨lock, listed, expired, root⟩, last⟩
    refine ⟨lockNull, rfl, ⟨lock, listed, ?_, root⟩, ?_⟩
    · exact (mem_expiredIds_iff consistent recorded listed).mpr expired
    · intro other member same
      exact (mem_expiredIds_iff consistent recorded member).mpr
        (last other member same)

/-- What is recorded for a lock after the call. -/
theorem recorded_after
    (consistent : LockNull.Consistent tables)
    (recorded : RecordedExactly tables)
    (done : DbmsLocks.dbmsDeleteExpLocks (unbound tables uri)
      (expiredIds tables call.now bind.resourceId) = some left)
    {lock : LockRow} (listed : lock ∈ tables.locks) {resId : Id} :
    (lock.id, resId) ∈ left.locksResources ↔
      (bindGraph tables.binds).Reaches lock.resourceId resId ∧
        ¬ ExpiredBelow tables call.now bind lock ∧
        ¬ GoesWithLocks tables call.now bind resId := by
  have kept : LockNull.Consistent (unbound tables uri) :=
    ⟨consistent.locksPkey, consistent.locksOwnerId,
      consistent.principalsResourceId, consistent.principalsType⟩
  have after := @mem_locksResources_dbmsDeleteExpLocks _ _ _ kept done
    (lock.id, resId)
  have loses : LosesLastLock (unbound tables uri)
      (expiredIds tables call.now bind.resourceId) (resId, .lockNull) ↔
        LosesLastLock tables
          (expiredIds tables call.now bind.resourceId) (resId, .lockNull) :=
    ⟨fun loses => ⟨loses.lockNull, loses.root, loses.last⟩,
      fun loses => ⟨loses.lockNull, loses.root, loses.last⟩⟩
  rw [loses] at after
  rw [after]
  show (lock.id, resId) ∈ tables.locksResources ∧ _ ∧
    ¬ ((resId, ResourceType.lockNull) ∈ tables.resources ∧ _) ↔ _
  rw [(recorded lock listed).2, mem_expiredIds_iff consistent recorded listed,
    goesWithLocks_iff consistent recorded]

/-- What is left is right iff nothing was to be removed. -/
theorem keepsReached_of_left
    (recorded : RecordedExactly tables)
    (rows : ∀ lock ∈ tables.locks, ∀ resId,
      (lock.id, resId) ∈ left.locksResources ↔
        (bindGraph tables.binds).Reaches lock.resourceId resId ∧
          ¬ ExpiredBelow tables call.now bind lock ∧
          ¬ GoesWithLocks tables call.now bind resId) :
    KeepsReached tables bind left ↔
      NothingToRemove tables call.now bind := by
  constructor
  · intro keeps
    have expiredRoot : ∀ lock ∈ tables.locks,
        ExpiredBelow tables call.now bind lock →
        (bindGraph tables.binds).Reaches bind.resourceId lock.resourceId := by
      intro lock listed expired
      by_contra outside
      have kept := keeps.elsewhere lock listed lock.resourceId outside
      rw [rows lock listed, (recorded lock listed).2] at kept
      exact (kept.mpr (Multigraph.Reaches.refl _ _)).2.1 expired
    constructor
    case paths =>
      intro lock listed unexpired resId other below reached stays
      apply (keeps.below lock listed resId other below).mp
      exact (rows lock listed resId).mpr ⟨reached, unexpired, stays⟩
    case expired =>
      intro lock listed expired
      refine ⟨expiredRoot lock listed expired, ?_⟩
      intro resId other avoids
      have below := (expiredRoot lock listed expired).trans avoids.of_restrict
      have kept := (keeps.below lock listed resId other below).mpr avoids
      exact ((rows lock listed resId).mp kept).2.1 expired
    case goes =>
      intro resId goes lock listed other avoids
      rcases goes.root with ⟨first, member, expired, root⟩
      have below := expiredRoot first member expired
      rw [root] at below
      have kept := (keeps.below lock listed resId other below).mpr avoids
      exact ((rows lock listed resId).mp kept).2.2 goes
  · intro nothing
    constructor
    case below =>
      intro lock listed resId other below
      rw [rows lock listed]
      constructor
      · rintro ⟨reached, unexpired, stays⟩
        exact nothing.paths lock listed unexpired resId other below reached
          stays
      · intro avoids
        refine ⟨avoids.of_restrict, fun expired => ?_, fun goes => ?_⟩
        · exact (nothing.expired lock listed expired).2 resId other avoids
        · exact nothing.goes resId goes lock listed other avoids
    case elsewhere =>
      intro lock listed resId outside
      rw [rows lock listed, (recorded lock listed).2]
      refine and_iff_left_of_imp fun reached => ⟨fun expired => ?_,
        fun goes => ?_⟩
      · exact outside ((nothing.expired lock listed expired).1.trans reached)
      · rcases goes.root with ⟨first, member, expired, root⟩
        have below := (nothing.expired first member expired).1
        rw [root] at below
        exact outside below

end Keeping

/--
The call leaves the locks that it should iff nothing was to be removed, or it
fails.  By whatever URI the resource is unbound, no lock is removed.
-/
theorem keepsReached_iff
    (consistent : LockNull.Consistent tables)
    (recorded : RecordedExactly tables)
    (collectionIdKey : (tables.binds.map Bind.key).Nodup)
    (fresh : call.bindId ∉ tables.binds.map Bind.id)
    {bind : Bind} (resource : dbR.1 = bind.resourceId)
    (enough : 1 < fuel) :
    (∃ result, sabridgeRemoveIndirectLocksDInf fuel call tables dbR uri =
        some result ∧
      ∀ after, result = some after → KeepsReached tables bind after) ↔
      2 ≤ (locknullRoots tables
          (expiredIds tables call.now bind.resourceId)).length ∨
        NothingToRemove tables call.now bind := by
  rw [sabridgeRemoveIndirectLocksDInf_eq collectionIdKey fresh enough,
    resource]
  have roots : locknullRoots (unbound tables uri)
      (expiredIds tables call.now bind.resourceId) =
        locknullRoots tables (expiredIds tables call.now bind.resourceId) :=
    rfl
  rw [← roots, ← dbmsDeleteExpLocks_eq_none_iff]
  cases done : DbmsLocks.dbmsDeleteExpLocks (unbound tables uri)
      (expiredIds tables call.now bind.resourceId) with
  | none =>
      refine iff_of_true ⟨none, rfl, ?_⟩ (Or.inl rfl)
      intro after succeeded
      cases succeeded
  | some left =>
      have rows := fun lock listed resId =>
        @recorded_after tables call uri bind left consistent recorded done lock
          listed resId
      have keeps := keepsReached_of_left recorded rows
      constructor
      · rintro ⟨result, returned, kept⟩
        rcases Option.some.inj returned with rfl
        rcases kept _ rfl with ⟨below, elsewhere⟩
        exact Or.inr (keeps.mp ⟨below, elsewhere⟩)
      · rintro (failed | nothing)
        · cases failed
        · refine ⟨_, rfl, ?_⟩
          intro after succeeded
          rcases Option.some.inj succeeded with rfl
          rcases keeps.mpr nothing with ⟨below, elsewhere⟩
          exact ⟨below, elsewhere⟩

end Calling

/-! ## A folder with a lock -/

/-- `/a` and its member `/a/m`, with a lock of depth infinity on `/a`. -/
def lockedFolder : LockTables where
  resources := [(rootCollectionId, .collection), (9, .user),
    (10, .collection), (11, .resource)]
  principals := [(9, "fred".toList)]
  binds := [⟨1, "a".toList, rootCollectionId, 10, none⟩,
    ⟨2, "m".toList, 10, 11, none⟩]
  locks := [{ lockOn 1 10 "/a" with depth := 1, expiresAt := 0 }]
  locksResources := [(1, 10), (1, 11)]
  bindsLocks := [(1, 1)]

/-- A call in which all rows come as they are stored. -/
def storedCall : Call where
  lockOrder := fun _ => Sql.RowOrder.stored _
  bindOrder := fun _ => Sql.RowOrder.stored _
  memberOrder := Sql.RowOrder.stored _
  now := 100
  rootPath := []
  bindId := 3
  updatedAt := []

/-- After `/a/m` has been unbound, its bind has another id. -/
theorem sameBinds_lockedFolder :
    ¬ ∃ result, sabridgeRemoveIndirectLocksDInf 2 storedCall lockedFolder
        (11, .resource) "/a/m".toList = some result ∧
      ∀ after, result = some after → SameBinds lockedFolder after := by
  rw [sameBinds_iff (by decide) (by decide) (by decide)]
  decide

theorem removeIndirectLocks_lockedFolder :
    sabridgeRemoveIndirectLocksDInf 2 storedCall lockedFolder (11, .resource)
        "/a/m".toList =
      some (some { lockedFolder with
        binds := [⟨1, "a".toList, rootCollectionId, 10, none⟩,
          ⟨3, "m".toList, 10, 11, some []⟩] }) := by
  rfl

theorem not_sameBinds_lockedFolder :
    ∃ after, sabridgeRemoveIndirectLocksDInf 2 storedCall lockedFolder
        (11, .resource) "/a/m".toList = some (some after) ∧
      ¬ SameBinds lockedFolder after := by
  refine ⟨_, removeIndirectLocks_lockedFolder, ?_⟩
  rintro ⟨binds, -⟩
  have gone := (binds ⟨2, "m".toList, 10, 11, none⟩).mpr (by decide)
  revert gone
  decide

/-- The folder and its member are all that the folder reaches. -/
theorem reaches_lockedFolder {resId : Id} :
    (bindGraph lockedFolder.binds).Reaches 10 resId ↔
      resId = 10 ∨ resId = 11 := by
  constructor
  · intro reaches
    have member : resId ∈ [10, 11] := by
      refine reaches.mem_of_closed (S := (· ∈ [(10 : Id), 11])) (by decide) ?_
      show ∀ bind ∈ lockedFolder.binds,
        bind.collectionId ∈ [(10 : Id), 11] →
          bind.resourceId ∈ [(10 : Id), 11]
      decide
    simpa using member
  · rintro (rfl | rfl)
    · exact Multigraph.Reaches.refl _ _
    · exact ⟨[⟨2, "m".toList, 10, 11, none⟩],
        List.mem_cons_of_mem _ (List.mem_singleton_self _), rfl, rfl⟩

theorem recordedExactly_lockedFolder : RecordedExactly lockedFolder := by
  intro lock listed
  rcases List.mem_singleton.mp listed with rfl
  refine ⟨by decide, fun resId => ?_⟩
  show ((1 : Id), resId) ∈ [((1 : Id), (10 : Id)), (1, 11)] ↔
    (bindGraph lockedFolder.binds).Reaches 10 resId
  rw [reaches_lockedFolder]
  simp

theorem consistent_lockedFolder : LockNull.Consistent lockedFolder where
  locksPkey := by decide
  locksOwnerId := by decide
  principalsResourceId := by decide
  principalsType := by decide

/-- No lock of the folder has expired. -/
theorem not_expiredBelow_lockedFolder
    {bind : Bind} {lock : LockRow} (listed : lock ∈ lockedFolder.locks) :
    ¬ ExpiredBelow lockedFolder 100 bind lock := by
  rcases List.mem_singleton.mp listed with rfl
  rintro ⟨late, -⟩
  cases late

/-- `/a` is unbound; its member is reached from it all the same. -/
theorem keepsReached_lockedFolder :
    ∃ result, sabridgeRemoveIndirectLocksDInf 2 storedCall lockedFolder
        (10, .collection) "/a".toList = some result ∧
      ∀ after, result = some after → KeepsReached lockedFolder
        ⟨1, "a".toList, rootCollectionId, 10, none⟩ after := by
  apply (@keepsReached_iff lockedFolder storedCall 2 (10, .collection)
    "/a".toList consistent_lockedFolder recordedExactly_lockedFolder
    (by decide) (by decide) ⟨1, "a".toList, rootCollectionId, 10, none⟩ rfl
    (by decide)).mpr
  right
  constructor
  case paths =>
    intro lock listed _ resId other below _ _
    rcases List.mem_singleton.mp listed with rfl
    rcases reaches_lockedFolder.mp below with rfl | rfl
    · exact (other rfl).elim
    · exact ⟨[⟨2, "m".toList, 10, 11, none⟩],
        ⟨List.mem_cons_of_mem _ (List.mem_singleton_self _), by decide⟩,
        rfl, rfl⟩
  case expired =>
    intro lock listed expired
    exact (not_expiredBelow_lockedFolder listed expired).elim
  case goes =>
    intro resId goes
    rcases goes.root with ⟨lock, listed, expired, -⟩
    exact (not_expiredBelow_lockedFolder listed expired).elim

/-- `/a/m` is unbound, and keeps the lock of `/a`. -/
theorem not_keepsReached_lockedFolder :
    RecordedExactly lockedFolder ∧
      ∃ after, sabridgeRemoveIndirectLocksDInf 2 storedCall lockedFolder
          (11, .resource) "/a/m".toList = some (some after) ∧
        ¬ KeepsReached lockedFolder ⟨2, "m".toList, 10, 11, none⟩ after := by
  refine ⟨recordedExactly_lockedFolder, _, removeIndirectLocks_lockedFolder,
    ?_⟩
  intro keeps
  have below := keeps.below { lockOn 1 10 "/a" with depth := 1, expiresAt := 0 }
    (List.mem_singleton_self _) 11 (by decide) (Multigraph.Reaches.refl _ _)
  have avoids := below.mp (by decide)
  have outside : (11 : Id) ∈ [(10 : Id)] := by
    refine avoids.mem_of_closed (S := (· ∈ [(10 : Id)])) (by decide) ?_
    rintro bind ⟨present, kept⟩ member
    revert member kept
    revert present
    revert bind
    show ∀ bind ∈ lockedFolder.binds, bind.id ∉ [(2 : Id)] →
      bind.collectionId ∈ [(10 : Id)] → bind.resourceId ∈ [(10 : Id)]
    decide
  revert outside
  decide

end Limestone.IndirectLocks
