import Limestone.DbmsLocks
import Limestone.Library.Runs
import Limestone.Library.Segments

/-!
# Lock-null resources: `lock.c`

A LOCK of an unmapped URI creates a resource of the type `LockNull` and its
first lock.  The resource is to go with its last lock.  Expiry sees to that,
the removal of a lock by its token does not.
-/

namespace Limestone.LockNull

open Library
open DbmsBind
open DbmsLocks

/-! ## Requests -/

/-- A `dav_lock` that is to be inserted. -/
structure NewLock where
  /-- `locktoken->char_uuid`. -/
  uuid : Text
  /-- NULL in a request without a user. -/
  authUser : Option Text
  scope : LockScope
  depth : Int
  timeout : Int
  owner : Option Text
  /-- `lockroot` after the root path of the repository. -/
  lockroot : Text
deriving DecidableEq, Repr

/-- `dbms_insert_lock`: `owner_id` is a scalar subquery and not null. -/
def dbmsInsertLock (tables : LockTables) (lockId serialno : Id)
    (lock : NewLock) : Option LockTables :=
  match tables.principals.filter fun row => some row.2 == lock.authUser with
  | [principal] =>
      if lockId ∈ tables.locks.map LockRow.id then none
      else some { tables with
        locks := tables.locks ++
          [{ id := lockId
             uuid := lock.uuid
             resourceId := serialno
             ownerId := principal.1
             form := if lock.scope = .exclusive then 'X' else 'S'
             depth := lock.depth
             expiresAt := lock.timeout
             ownerInfo := lock.owner.getD []
             lockroot := lock.lockroot }] }
  | _ => none

/-- The ids of the binds that `dbms_get_path_binds` finds, zero for none. -/
def dbmsGetPathBinds (binds : List Bind) : Id → List Text → List Id
  | _, [] => []
  | parentId, name :: names =>
      dbmsGetBindId binds parentId name ::
        dbmsGetPathBinds binds (dbmsGetBindResourceId binds parentId name)
          names

/--
`dav_repos_append_locks` for a direct lock and the locks after it in its
list.  Foreign keys are checked when the transaction ends.
-/
def davReposAppendLocks (tables : LockTables) (serialno lockId : Id)
    (lock : NewLock) (next : List Id) : Option LockTables :=
  match dbmsInsertLock tables lockId serialno lock with
  | none => none
  | some tables =>
      let bindList := dbmsGetPathBinds tables.binds rootCollectionId
        (Segments.tokens '/' lock.lockroot)
      let lockIds := lockId :: next
      let locksResources := (tables.locksResources.filter fun entry =>
          !(decide (entry.1 ∈ lockIds) && entry.2 == serialno)) ++
        lockIds.map fun id => (id, serialno)
      if lockIds.Nodup ∧ (∀ id ∈ lockIds, id ∈ tables.locks.map LockRow.id) ∧
          (∀ id ∈ bindList, id ∈ tables.binds.map Bind.id) ∧
          serialno ∈ tables.resources.map Prod.fst then
        some { tables with
          locksResources := locksResources
          bindsLocks := tables.bindsLocks ++
            bindList.map fun bindId => (lockId, bindId) }
      else none

/-- The rows that `sabridge_insert_resource` makes of a resource with a URI. -/
def sabridgeInsertResource (tables : LockTables) (resId : Id)
    (resourcetype : ResourceType) (bind : Bind) : Option LockTables :=
  if resId ∈ tables.resources.map Prod.fst ∨
      bind.id ∈ tables.binds.map Bind.id ∨
      bind.key ∈ tables.binds.map Bind.key ∨
      bind.collectionId ∉ tables.resources.map Prod.fst then none
  else some { tables with
    resources := tables.resources ++ [(resId, resourcetype)]
    binds := tables.binds ++ [{ bind with resourceId := resId }] }

/--
`dav_repos_create_lock` for an unmapped URI.  Without lock-null resources an
ordinary one is created.
-/
def davReposCreateLock (tables : LockTables) (useLocknull : Bool)
    (resId : Id) (bind : Bind) : Option LockTables :=
  sabridgeInsertResource tables resId
    (if useLocknull then .lockNull else .resource) bind

/-- `dbms_remove_lock`. -/
def dbmsRemoveLock (tables : LockTables) (token : Text) : LockTables :=
  deleteLocks tables
    ((tables.locks.filter fun lock => lock.uuid == token).map LockRow.id)

/-- `dbms_update_resource_type`. -/
def dbmsUpdateResourceType (tables : LockTables) (serialno : Id)
    (newResourceType : ResourceType) : LockTables :=
  { tables with
    resources := tables.resources.map fun row =>
      if row.1 = serialno then (row.1, newResourceType) else row }

/-- `dav_repos_remove_locknull_state`, without the rows of the new ACL. -/
def davReposRemoveLocknullState (tables : LockTables) (serialno : Id)
    (regular collection versioned : Bool) : Option LockTables :=
  if regular then
    some (dbmsUpdateResourceType tables serialno
      (match collection, versioned with
        | false, false => .resource
        | false, true => .versioned
        | true, false => .collection
        | true, true => .versionedCollection))
  else none

/-- A request about locks, each in a transaction of its own. -/
inductive Request where
  /-- LOCK of an unmapped URI. -/
  | lockUnmapped (useLocknull : Bool) (resId : Id) (bind : Bind) (lockId : Id)
      (lock : NewLock)
  /-- LOCK of a resource. -/
  | lock (serialno lockId : Id) (lock : NewLock) (next : List Id)
  | unlock (token : Text)
  /-- A query for locks, which deletes the expired ones among them. -/
  | getLocks (order : Sql.RowOrder (LockRow × Text)) (now : Int)
      (serialno : Id) (rootPath : Text) (resolveIndirect : Bool)
      (whereStr : Id × Id → LockRow → Bool)
  | removeLocknullState (serialno : Id) (regular collection versioned : Bool)

/-- The tables a request leaves, unless its transaction fails. -/
def Request.run (tables : LockTables) : Request → Option LockTables
  | .lockUnmapped useLocknull resId bind lockId newLock =>
      (davReposCreateLock tables useLocknull resId bind).bind fun tables =>
        davReposAppendLocks tables resId lockId newLock []
  | .lock serialno lockId newLock next =>
      davReposAppendLocks tables serialno lockId newLock next
  | .unlock token => some (dbmsRemoveLock tables token)
  | .getLocks order now serialno rootPath resolveIndirect whereStr =>
      (dbmsGetLocksByWhereStr order now tables serialno rootPath
        resolveIndirect whereStr).2
  | .removeLocknullState serialno regular collection versioned =>
      davReposRemoveLocknullState tables serialno regular collection versioned

/-- The tables after a request: those before it when it fails. -/
def Request.after (tables : LockTables) (request : Request) : LockTables :=
  (request.run tables).getD tables

/-! ## Invariants -/

/-- The keys of the tables; a principal is not a lock-null resource. -/
structure Consistent (tables : LockTables) : Prop where
  locksPkey : (tables.locks.map LockRow.id).Nodup
  locksOwnerId : ∀ lock ∈ tables.locks,
    lock.ownerId ∈ tables.principals.map Prod.fst
  principalsResourceId : ∀ row ∈ tables.principals,
    row.1 ∈ tables.resources.map Prod.fst
  principalsType : ∀ row ∈ tables.principals,
    (row.1, ResourceType.lockNull) ∉ tables.resources

/-- Every lock-null resource is the root of a lock. -/
def LockedRoots (tables : LockTables) : Prop :=
  ∀ resId, (resId, ResourceType.lockNull) ∈ tables.resources →
    ∃ lock ∈ tables.locks, lock.resourceId = resId

/-- An UNLOCK leaves a lock on every lock-null resource. -/
def LeavesLock (tables : LockTables) : Request → Prop
  | .unlock token =>
      ∀ resId, (resId, ResourceType.lockNull) ∈ tables.resources →
        ∃ lock ∈ tables.locks, lock.resourceId = resId ∧ lock.uuid ≠ token
  | _ => True

section Deleting

variable {tables : LockTables} {lockIds : List Id} {resId : Id}

theorem mem_deleteLocks {lock : LockRow} :
    lock ∈ (deleteLocks tables lockIds).locks ↔
      lock ∈ tables.locks ∧ lock.id ∉ lockIds := by
  rw [deleteLocks, List.mem_filter, Bool.not_eq_true',
    decide_eq_false_iff_not]

theorem Consistent.deleteLocks
    (consistent : Consistent tables) (lockIds : List Id) :
    Consistent (deleteLocks tables lockIds) where
  locksPkey := consistent.locksPkey.sublist
    (List.filter_sublist.map LockRow.id)
  locksOwnerId := fun lock member =>
    consistent.locksOwnerId lock (mem_deleteLocks.mp member).1
  principalsResourceId := consistent.principalsResourceId
  principalsType := consistent.principalsType

/-- The locks that the deletion of a resource leaves. -/
theorem mem_locks_deleteResource
    (consistent : Consistent tables) {lock : LockRow} :
    lock ∈ (deleteResource tables resId).locks ↔
      lock ∈ tables.locks ∧ lock.resourceId ≠ resId ∧
        lock.ownerId ≠ resId := by
  show lock ∈ (DbmsLocks.deleteLocks tables _).locks ↔ _
  rw [mem_deleteLocks]
  apply and_congr_right
  intro listed
  constructor
  · intro kept
    constructor
    · intro root
      exact kept (List.mem_map.mpr ⟨lock, List.mem_filter.mpr
        ⟨listed, by simp [root]⟩, rfl⟩)
    · intro owner
      exact kept (List.mem_map.mpr ⟨lock, List.mem_filter.mpr
        ⟨listed, by simp [owner]⟩, rfl⟩)
  · rintro ⟨root, owner⟩ deleted
    rcases List.mem_map.mp deleted with ⟨other, member, same⟩
    rcases List.mem_filter.mp member with ⟨otherListed, touched⟩
    have equal : other = lock :=
      List.inj_on_of_nodup_map consistent.locksPkey otherListed listed same
    rw [equal, Bool.or_eq_true, beq_iff_eq, beq_iff_eq] at touched
    exact touched.elim root owner

theorem mem_resources_deleteResource {row : Id × ResourceType} :
    row ∈ (deleteResource tables resId).resources ↔
      row ∈ tables.resources ∧ row.1 ≠ resId := by
  show row ∈ tables.resources.filter _ ↔ _
  rw [List.mem_filter, bne_iff_ne]

theorem mem_principals_deleteResource {row : Id × Text} :
    row ∈ (deleteResource tables resId).principals ↔
      row ∈ tables.principals ∧ row.1 ≠ resId := by
  show row ∈ tables.principals.filter _ ↔ _
  rw [List.mem_filter, bne_iff_ne]

theorem Consistent.deleteResource
    (consistent : Consistent tables) (resId : Id) :
    Consistent (deleteResource tables resId) := by
  constructor
  · exact (consistent.deleteLocks _).locksPkey
  · intro lock member
    rcases (mem_locks_deleteResource consistent).mp member with
      ⟨listed, -, owner⟩
    rcases List.mem_map.mp (consistent.locksOwnerId lock listed) with
      ⟨row, present, same⟩
    refine List.mem_map.mpr ⟨row, ?_, same⟩
    exact mem_principals_deleteResource.mpr ⟨present, same ▸ owner⟩
  · intro row member
    rcases mem_principals_deleteResource.mp member with ⟨listed, other⟩
    rcases List.mem_map.mp (consistent.principalsResourceId row listed) with
      ⟨resource, present, same⟩
    refine List.mem_map.mpr ⟨resource, ?_, same⟩
    exact mem_resources_deleteResource.mpr ⟨present, same ▸ other⟩
  · intro row member lockNull
    exact consistent.principalsType row
      (mem_principals_deleteResource.mp member).1
      (mem_resources_deleteResource.mp lockNull).1

/-- Expiry takes a lock-null resource with its last lock. -/
theorem deleteExpLocks_spec
    {left : LockTables}
    (consistent : Consistent tables)
    (done : dbmsDeleteExpLocks tables lockIds = some left) :
    Consistent left ∧ (LockedRoots tables → LockedRoots left) := by
  have others : ∀ other : Id,
      (other, ResourceType.lockNull) ∈ tables.resources →
      other ∉ (tables.resources.filter fun row =>
        row.2 == .lockNull && tables.locks.any fun lock =>
          decide (lock.id ∈ lockIds) && lock.resourceId == row.1).map
            Prod.fst →
      (∃ lock ∈ tables.locks, lock.resourceId = other) →
      ∃ lock ∈ (deleteLocks tables lockIds).locks,
        lock.resourceId = other := by
    rintro other lockNull unmet ⟨lock, listed, root⟩
    refine ⟨lock, mem_deleteLocks.mpr ⟨listed, fun late => ?_⟩, root⟩
    apply unmet
    refine List.mem_map.mpr ⟨_, List.mem_filter.mpr ⟨lockNull, ?_⟩, rfl⟩
    rw [Bool.and_eq_true, beq_iff_eq, List.any_eq_true]
    exact ⟨rfl, lock, listed, by simp [late, root]⟩
  have kept := consistent.deleteLocks lockIds
  simp only [dbmsDeleteExpLocks] at done
  split at done
  · next none =>
      rcases Option.some.inj done with rfl
      refine ⟨kept, fun locked other lockNull => ?_⟩
      apply others other lockNull _ (locked other lockNull)
      rw [none]
      exact List.not_mem_nil
  · next only one =>
      split at done
      · next still =>
          rcases Option.some.inj done with rfl
          refine ⟨kept, fun locked other lockNull => ?_⟩
          by_cases same : other = only
          · rcases List.any_eq_true.mp still with ⟨lock, listed, root⟩
            exact ⟨lock, listed, same ▸ beq_iff_eq.mp root⟩
          · apply others other lockNull _ (locked other lockNull)
            rw [one, List.mem_singleton]
            exact same
      · next gone =>
          rcases Option.some.inj done with rfl
          refine ⟨kept.deleteResource only, fun locked other lockNull => ?_⟩
          rcases mem_resources_deleteResource.mp lockNull with
            ⟨present, different⟩
          rcases others other present
              (by rw [one, List.mem_singleton]; exact different)
              (locked other present) with ⟨lock, listed, root⟩
          refine ⟨lock, (mem_locks_deleteResource kept).mpr
            ⟨listed, root ▸ different, ?_⟩, root⟩
          intro owner
          rcases List.mem_map.mp (kept.locksOwnerId lock listed) with
            ⟨row, principal, same⟩
          have lockNullOnly : (only, ResourceType.lockNull) ∈
              tables.resources := by
            have met : only ∈ [only] := List.mem_singleton_self only
            rw [← one] at met
            rcases List.mem_map.mp met with ⟨resource, member, rfl⟩
            rcases List.mem_filter.mp member with ⟨here, type⟩
            rw [Bool.and_eq_true, beq_iff_eq] at type
            rw [← type.1]
            exact here
          apply kept.principalsType row principal
          rw [same, owner]
          exact lockNullOnly
  · cases done

end Deleting

section Locking

variable {tables left : LockTables} {serialno lockId : Id} {lock : NewLock}
  {next : List Id}

/-- What an inserted lock adds to the tables. -/
theorem insertLock_spec
    (done : dbmsInsertLock tables lockId serialno lock = some left) :
    left.resources = tables.resources ∧
      left.principals = tables.principals ∧
      lockId ∉ tables.locks.map LockRow.id ∧
      ∃ row, left.locks = tables.locks ++ [row] ∧ row.id = lockId ∧
        row.resourceId = serialno ∧
        row.ownerId ∈ tables.principals.map Prod.fst := by
  rw [dbmsInsertLock] at done
  split at done
  · next principal one =>
      have member : principal ∈ tables.principals := by
        have met : principal ∈ [principal] :=
          List.mem_singleton_self principal
        rw [← one] at met
        exact List.mem_of_mem_filter met
      by_cases used : lockId ∈ tables.locks.map LockRow.id
      · rw [if_pos used] at done
        cases done
      · rw [if_neg used] at done
        rcases Option.some.inj done with rfl
        exact ⟨rfl, rfl, used, _, rfl, rfl, rfl,
          List.mem_map.mpr ⟨principal, member, rfl⟩⟩
  · cases done

/-- What appending locks leaves: one more lock, rooted at the resource. -/
theorem appendLocks_spec
    (done : davReposAppendLocks tables serialno lockId lock next =
      some left) :
    left.resources = tables.resources ∧
      left.principals = tables.principals ∧
      lockId ∉ tables.locks.map LockRow.id ∧
      ∃ row, left.locks = tables.locks ++ [row] ∧ row.id = lockId ∧
        row.resourceId = serialno ∧
        row.ownerId ∈ tables.principals.map Prod.fst := by
  rw [davReposAppendLocks] at done
  cases insertion : dbmsInsertLock tables lockId serialno lock with
  | none =>
      rw [insertion] at done
      cases done
  | some inserted =>
      rw [insertion] at done
      dsimp only at done
      split at done
      · rcases Option.some.inj done with rfl
        rcases insertLock_spec insertion with
          ⟨resources, principals, fresh, row, locks, id, root, owner⟩
        exact ⟨resources, principals, fresh, row, locks, id, root, owner⟩
      · cases done

theorem appendLocks_consistent
    (consistent : Consistent tables)
    (done : davReposAppendLocks tables serialno lockId lock next =
      some left) :
    Consistent left := by
  rcases appendLocks_spec done with
    ⟨resources, principals, fresh, row, locks, id, -, owner⟩
  constructor
  · rw [locks, List.map_append, List.map_singleton, id]
    apply consistent.locksPkey.append (List.nodup_singleton lockId)
    exact List.disjoint_singleton.mpr fresh
  · intro other member
    rw [locks, List.mem_append, List.mem_singleton] at member
    rw [principals]
    rcases member with old | rfl
    · exact consistent.locksOwnerId other old
    · exact owner
  · rw [principals, resources]
    exact consistent.principalsResourceId
  · rw [principals, resources]
    exact consistent.principalsType

/-- A lock on a resource covers it and leaves the other locks. -/
theorem appendLocks_locked
    (locked : ∀ resId, (resId, ResourceType.lockNull) ∈ tables.resources →
      resId = serialno ∨ ∃ lock ∈ tables.locks, lock.resourceId = resId)
    (done : davReposAppendLocks tables serialno lockId lock next =
      some left) :
    LockedRoots left := by
  rcases appendLocks_spec done with
    ⟨resources, -, -, row, locks, -, root, -⟩
  intro resId lockNull
  rw [resources] at lockNull
  rw [locks]
  rcases locked resId lockNull with rfl | ⟨old, listed, oldRoot⟩
  · exact ⟨row, List.mem_append_right _ (List.mem_singleton_self row), root⟩
  · exact ⟨old, List.mem_append_left _ listed, oldRoot⟩

/-- What an inserted resource adds to the tables. -/
theorem insertResource_spec
    {resId : Id} {resourcetype : ResourceType} {bind : Bind}
    (done : sabridgeInsertResource tables resId resourcetype bind =
      some left) :
    resId ∉ tables.resources.map Prod.fst ∧
      left.resources = tables.resources ++ [(resId, resourcetype)] ∧
      left.principals = tables.principals ∧ left.locks = tables.locks := by
  rw [sabridgeInsertResource] at done
  split at done
  · cases done
  · next allowed =>
      rcases Option.some.inj done with rfl
      exact ⟨fun present => allowed (Or.inl present), rfl, rfl, rfl⟩

theorem insertResource_consistent
    {resId : Id} {resourcetype : ResourceType} {bind : Bind}
    (consistent : Consistent tables)
    (done : sabridgeInsertResource tables resId resourcetype bind =
      some left) :
    Consistent left := by
  rcases insertResource_spec done with ⟨fresh, resources, principals, locks⟩
  constructor
  · rw [locks]
    exact consistent.locksPkey
  · rw [locks, principals]
    exact consistent.locksOwnerId
  · intro row member
    rw [principals] at member
    rw [resources, List.map_append]
    exact List.mem_append_left _
      (consistent.principalsResourceId row member)
  · intro row member lockNull
    rw [principals] at member
    rw [resources, List.mem_append, List.mem_singleton] at lockNull
    rcases lockNull with old | new
    · exact consistent.principalsType row member old
    · have known := consistent.principalsResourceId row member
      rw [(Prod.mk.inj new).1] at known
      exact fresh known

/-- The types after an update; the new type is not lock-null. -/
theorem mem_updateResourceType
    {newResourceType : ResourceType} {resId : Id}
    (ordinary : newResourceType ≠ .lockNull) :
    (resId, ResourceType.lockNull) ∈
        (dbmsUpdateResourceType tables serialno newResourceType).resources ↔
      (resId, ResourceType.lockNull) ∈ tables.resources ∧
        resId ≠ serialno := by
  show _ ∈ tables.resources.map _ ↔ _
  rw [List.mem_map]
  constructor
  · rintro ⟨row, member, equal⟩
    split at equal
    · exact (ordinary (Prod.mk.inj equal).2).elim
    · next other =>
        rw [equal] at member other
        exact ⟨member, other⟩
  · rintro ⟨member, other⟩
    exact ⟨_, member, if_neg other⟩

theorem updateResourceType_consistent
    {newResourceType : ResourceType}
    (consistent : Consistent tables)
    (ordinary : newResourceType ≠ .lockNull) :
    Consistent
      (dbmsUpdateResourceType tables serialno newResourceType) := by
  have ids : (dbmsUpdateResourceType tables serialno
      newResourceType).resources.map Prod.fst =
      tables.resources.map Prod.fst := by
    show (tables.resources.map _).map Prod.fst = _
    rw [List.map_map]
    apply List.map_congr_left
    intro row _
    rw [Function.comp_apply]
    split <;> rfl
  constructor
  · exact consistent.locksPkey
  · exact consistent.locksOwnerId
  · intro row member
    rw [ids]
    exact consistent.principalsResourceId row member
  · intro row member lockNull
    exact consistent.principalsType row member
      ((mem_updateResourceType ordinary).mp lockNull).1

/-- Removing the lock-null state makes an ordinary resource. -/
theorem removeLocknullState_spec
    {regular collection versioned : Bool}
    (done : davReposRemoveLocknullState tables serialno regular collection
      versioned = some left) :
    ∃ newResourceType, newResourceType ≠ ResourceType.lockNull ∧
      left = dbmsUpdateResourceType tables serialno newResourceType := by
  cases regular with
  | false => cases done
  | true =>
      rcases Option.some.inj done with rfl
      refine ⟨_, ?_, rfl⟩
      cases collection <;> cases versioned <;> decide

end Locking

/-! ## Requests and runs -/

section Runs

variable {tables left : LockTables} {request : Request}

theorem Request.run_consistent
    (consistent : Consistent tables)
    (done : request.run tables = some left) :
    Consistent left := by
  cases request with
  | lockUnmapped useLocknull resId bind lockId newLock =>
      rcases Option.bind_eq_some_iff.mp done with ⟨created, creation, append⟩
      exact appendLocks_consistent
        (insertResource_consistent consistent creation) append
  | lock serialno lockId newLock next =>
      exact appendLocks_consistent consistent done
  | unlock token =>
      rcases Option.some.inj done with rfl
      exact consistent.deleteLocks _
  | getLocks order now serialno rootPath resolveIndirect whereStr =>
      rw [run, dbmsGetLocksByWhereStr] at done
      simp only at done
      split at done
      · rcases Option.some.inj done with rfl
        exact consistent
      · exact (deleteExpLocks_spec consistent done).1
  | removeLocknullState serialno regular collection versioned =>
      rcases removeLocknullState_spec done with ⟨type, ordinary, rfl⟩
      exact updateResourceType_consistent consistent ordinary

/-- A request keeps every lock-null resource locked iff an UNLOCK does. -/
theorem Request.run_locked_iff
    (consistent : Consistent tables) (locked : LockedRoots tables)
    (done : request.run tables = some left) :
    LockedRoots left ↔ LeavesLock tables request := by
  cases request with
  | lockUnmapped useLocknull resId bind lockId newLock =>
      apply iff_of_true _ trivial
      rcases Option.bind_eq_some_iff.mp done with ⟨created, creation, append⟩
      rcases insertResource_spec creation with ⟨-, resources, -, locks⟩
      apply appendLocks_locked _ append
      intro other lockNull
      rw [resources, List.mem_append, List.mem_singleton] at lockNull
      rw [locks]
      rcases lockNull with old | new
      · exact Or.inr (locked other old)
      · exact Or.inl (Prod.mk.inj new).1
  | lock serialno lockId newLock next =>
      apply iff_of_true _ trivial
      exact appendLocks_locked
        (fun resId lockNull => Or.inr (locked resId lockNull)) done
  | unlock token =>
      rcases Option.some.inj done with rfl
      apply forall₂_congr
      intro resId _
      apply exists_congr
      intro lock
      rw [dbmsRemoveLock, mem_deleteLocks]
      constructor
      · rintro ⟨⟨listed, kept⟩, root⟩
        refine ⟨listed, root, fun same => ?_⟩
        exact kept (List.mem_map.mpr ⟨lock, List.mem_filter.mpr
          ⟨listed, beq_iff_eq.mpr same⟩, rfl⟩)
      · rintro ⟨listed, root, different⟩
        refine ⟨⟨listed, fun removed => ?_⟩, root⟩
        rcases List.mem_map.mp removed with ⟨other, member, same⟩
        rcases List.mem_filter.mp member with ⟨otherListed, token⟩
        have equal : other = lock := List.inj_on_of_nodup_map
          consistent.locksPkey otherListed listed same
        rw [equal] at token
        exact different (beq_iff_eq.mp token)
  | getLocks order now serialno rootPath resolveIndirect whereStr =>
      apply iff_of_true _ trivial
      rw [run, dbmsGetLocksByWhereStr] at done
      simp only at done
      split at done
      · rcases Option.some.inj done with rfl
        exact locked
      · exact (deleteExpLocks_spec consistent done).2 locked
  | removeLocknullState serialno regular collection versioned =>
      apply iff_of_true _ trivial
      rcases removeLocknullState_spec done with ⟨type, ordinary, rfl⟩
      intro resId lockNull
      exact locked resId ((mem_updateResourceType ordinary).mp lockNull).1

/-- An UNLOCK never fails, and other requests need no lock left. -/
theorem leavesLock_of_failed (failed : request.run tables = none) :
    LeavesLock tables request := by
  cases request with
  | unlock token => cases failed
  | _ => trivial

theorem after_consistent
    (request : Request) (consistent : Consistent tables) :
    Consistent (request.after tables) := by
  rw [Request.after]
  cases done : request.run tables with
  | none => exact consistent
  | some left => exact Request.run_consistent consistent done

theorem after_locked_iff
    (request : Request) (consistent : Consistent tables)
    (locked : LockedRoots tables) :
    LockedRoots (request.after tables) ↔ LeavesLock tables request := by
  rw [Request.after]
  cases done : request.run tables with
  | none => exact iff_of_true locked (leavesLock_of_failed done)
  | some left => exact Request.run_locked_iff consistent locked done

end Runs

/--
In every run from consistent tables without a lock-null resource that has no
lock, there is never one iff every UNLOCK leaves a lock on each of them.
-/
theorem run_lockedRoots_iff
    (tables : LockTables) (requests : List Request)
    (consistent : Consistent tables) (locked : LockedRoots tables) :
    Runs.Throughout (fun tables request => Request.after tables request)
        LockedRoots tables requests ↔
      Runs.Guarded (fun tables request => Request.after tables request)
        LeavesLock tables requests := by
  apply Runs.throughout_iff_guarded_of_invariant consistent _ locked
  · intro tables request before lockedBefore
    exact after_locked_iff request before lockedBefore
  · intro tables request before
    exact after_consistent request before

/-- The root collection and the user `fred`. -/
def noLocks : LockTables where
  resources := [(rootCollectionId, .collection), (9, .user)]
  principals := [(9, "fred".toList)]
  binds := []
  locks := []
  locksResources := []
  bindsLocks := []

theorem noLocks_consistent : Consistent noLocks where
  locksPkey := by decide
  locksOwnerId := by decide
  principalsResourceId := by decide
  principalsType := by decide

theorem noLocks_lockedRoots : LockedRoots noLocks := by
  intro resId lockNull
  have absent : ∀ row ∈ noLocks.resources, row.2 ≠ .lockNull := by decide
  exact (absent _ lockNull rfl).elim

/-- A shared lock of `fred` on `/a`. -/
def sharedLock (uuid : String) : NewLock where
  uuid := uuid.toList
  authUser := some "fred".toList
  scope := .shared
  depth := 0
  timeout := 0
  owner := none
  lockroot := "/a".toList

/-- LOCK of the unmapped `/a`. -/
def lockA : Request :=
  .lockUnmapped true 10 ⟨1, "a".toList, rootCollectionId, 10, none⟩ 1
    (sharedLock "first")

/-- With a second lock the first one may be removed. -/
theorem run_lockedRoots_shared :
    Runs.Throughout (fun tables request => Request.after tables request)
      LockedRoots noLocks
      [lockA, .lock 10 2 (sharedLock "second") [],
        .unlock "first".toList] :=
  (run_lockedRoots_iff noLocks _ noLocks_consistent noLocks_lockedRoots).mpr
    ⟨trivial, trivial, by
      intro resId lockNull
      have only : ∀ row ∈ ((Request.lock 10 2 (sharedLock "second") []).after
          (lockA.after noLocks)).resources,
          row.2 = .lockNull → row.1 = 10 := by
        decide
      have second : ∃ lock ∈ ((Request.lock 10 2 (sharedLock "second")
          []).after (lockA.after noLocks)).locks,
          lock.resourceId = 10 ∧ lock.uuid ≠ "first".toList := by
        decide
      rw [show resId = 10 from only _ lockNull rfl]
      exact second, trivial⟩

/-- LOCK and UNLOCK of an unmapped URI leave a lock-null resource. -/
theorem run_not_lockedRoots :
    ¬ Runs.Throughout (fun tables request => Request.after tables request)
      LockedRoots noLocks [lockA, .unlock "first".toList] := by
  intro holds
  have last : LockedRoots ((Request.unlock "first".toList).after
      (lockA.after noLocks)) :=
    holds.2.2
  have lockNull : (10, ResourceType.lockNull) ∈
      ((Request.unlock "first".toList).after
        (lockA.after noLocks)).resources := by
    decide
  have none : ((Request.unlock "first".toList).after
      (lockA.after noLocks)).locks = [] := by
    decide
  rcases last 10 lockNull with ⟨lock, member, -⟩
  rw [none] at member
  cases member

end Limestone.LockNull
