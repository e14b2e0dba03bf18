import Limestone.CollectionChildren
import Limestone.GetResource
import Limestone.LockNull

/-!
# Locks that are created again: `dav_repos_refresh_locks`

With the time 1 every lock of a list is inserted again, with the binds on its
path and the resources below its root.  The error of a statement gives way to
that of the next one.  They are statements of one transaction, so that after one
that fails the last one fails as well.
-/

namespace Limestone.RefreshLocks

open Library
open BridgeProperty (PropertyTables newResource sabridgeGetProperty)
open CollectionChildren (Listed ListedTables ListsExactly StartCollection)
open DbmsBind
open DbmsCollection (MemberRow RepoTables)
open DbmsLocks
open LockNull (NewLock dbmsGetPathBinds dbmsInsertLock)
open PathSearch (bindGraph)

/-! ## The function -/

/-- The tables that are read, as the two queries for resources see them. -/
structure Repository extends ListedTables where
  properties : PropertyTables
  sameBinds : properties.binds.rows = binds.rows
  sameResources : properties.resources.map (fun row => (row.id, row.type)) =
    resources.map fun resource => (resource.id, resource.resourcetype)
  resourcesPositive : ∀ resource ∈ resources, 0 < resource.id

/-- What is sent to the database for one lock. -/
inductive Statement where
  | getProperty
  | insertLock
  | getPathBinds
  | insertBindsLocks
  | getCollectionChildren
  | addIndirectLockedChildren
deriving DecidableEq, Repr

/-- What the loop takes from elsewhere; locks are numbered from zero. -/
structure Call where
  rootPath : Text
  /-- Whether a statement for a lock fails, whatever the tables are. -/
  refuses : Nat → Statement → Bool
  /-- What `sabridge_get_property` leaves when one of its queries fails. -/
  spoiled : Nat → BridgeProperty.DavReposResource × Option DavError
  /-- What `locks_id_seq` gives. -/
  lockId : Nat → Id
  /-- The orders of the rows in which members are listed. -/
  order : Nat → Sql.RowOrder MemberRow

/-- A statement of a transaction, which has failed if it is `none`. -/
def execute (refused : Bool) (statement : LockTables → Option LockTables)
    (transaction : Option LockTables) : Option LockTables :=
  if refused then none else transaction.bind statement

/-- `dbms_insert_binds_locks`; foreign keys are checked at the end. -/
def dbmsInsertBindsLocks (lockId : Id) (bindList : List Id)
    (tables : LockTables) : Option LockTables :=
  some { tables with
    bindsLocks := tables.bindsLocks ++
      bindList.map fun bindId => (lockId, bindId) }

/-- `dbms_add_indirect_locked_children` for the ids of a list. -/
def dbmsAddIndirectLockedChildren (lockId : Id) (children : List Id)
    (tables : LockTables) : Option LockTables :=
  let locksResources := tables.locksResources ++
    children.map fun serialno => (lockId, serialno)
  if locksResources.Nodup then
    some { tables with locksResources := locksResources }
  else none

def indirectError : DavError :=
  ⟨httpInternalServerError, "Could not insert indirect locks."⟩

section Loop

variable (fuel : Nat) (repo : Repository) (call : Call) (n : Nat)
  (lock : NewLock)

/-- `sabridge_get_property` for the URI of the root of a lock. -/
def getLockroot (transaction : Option LockTables) : BridgeProperty.Outcome :=
  match sabridgeGetProperty false repo.properties
      (newResource call.rootPath (call.rootPath ++ lock.lockroot)) with
  | .undefined => .undefined
  | .returned r err =>
      if transaction.isSome then .returned r err
      else .returned (call.spoiled n).1 (call.spoiled n).2

/-- The ids of the binds on the path of a lock, zero for none. -/
def pathBinds : List Id :=
  dbmsGetPathBinds repo.binds.rows rootCollectionId
    (Segments.tokens '/' lock.lockroot)

/-- `dbms_get_path_binds` and `dbms_insert_binds_locks`. -/
def recordPathBinds (transaction : Option LockTables) : Option LockTables :=
  if pathBinds repo lock = [] then transaction
  else
    execute (call.refuses n .insertBindsLocks)
      (dbmsInsertBindsLocks (call.lockId n) (pathBinds repo lock))
      (execute (call.refuses n .getPathBinds) some transaction)

/--
The ids in the list of `sabridge_get_collection_children`.  There is none if a
query fails, and none if the type is not that of a collection.
-/
def listedIds (lockrootDbr : BridgeProperty.DavReposResource)
    (transaction : Option LockTables) : Option (List Id) :=
  match transaction, lockrootDbr.resourcetype with
  | some _, some resourcetype =>
      (CollectionChildren.sabridgeGetCollectionChildren fuel (call.order n)
        repo.toRepoTables none
        { serialno := lockrootDbr.serialno
          resourcetype := resourcetype
          uri := some (call.rootPath ++ lock.lockroot)
          parentId := 0
          bindId := lockrootDbr.bindId
          hasBind := false }
        .infinity).map fun children =>
          children.linkHead.map fun entry => entry.1.serialno
  | _, _ => some []

/-- What is done for a lock when its root is known. -/
def recreateLock (lockrootDbr : BridgeProperty.DavReposResource)
    (transaction : Option LockTables) : Option (Option LockTables) :=
  let transaction := recordPathBinds repo call n lock
    (execute (call.refuses n .insertLock)
      (fun tables =>
        dbmsInsertLock tables (call.lockId n) lockrootDbr.serialno lock)
      transaction)
  let add := fun (transaction : Option LockTables) (children : List Id) =>
    execute (call.refuses n .addIndirectLockedChildren)
      (dbmsAddIndirectLockedChildren (call.lockId n)
        (lockrootDbr.serialno :: children)) transaction
  if lock.depth ≠ 0 then
    let transaction :=
      execute (call.refuses n .getCollectionChildren) some transaction
    (listedIds fuel repo call n lock lockrootDbr transaction).map
      (add transaction)
  else some (add transaction [])

/-- What a call does. -/
inductive Refreshed where
  /-- A result that does not exist is used. -/
  | undefined
  | returned (err : Option DavError) (transaction : Option LockTables)

/-- The loop over the locks from the one with the number `n` on. -/
def refreshFrom (n : Nat) (err : Option DavError)
    (transaction : Option LockTables) : List NewLock → Option Refreshed
  | [] => some (.returned err transaction)
  | lock :: next =>
      let transaction :=
        execute (call.refuses n .getProperty) some transaction
      match getLockroot repo call n lock transaction with
      | .undefined => some .undefined
      | .returned _ (some err) => some (.returned (some err) transaction)
      | .returned lockrootDbr none =>
          match recreateLock fuel repo call n lock lockrootDbr
              transaction with
          | none => none
          | some transaction =>
              refreshFrom (n + 1)
                (if transaction.isSome then none else some indirectError)
                transaction next

/-- `dav_repos_refresh_locks` with the time 1; `none` while it is running. -/
def davReposRefreshLocks (tables : LockTables) (locks : List NewLock) :
    Option Refreshed :=
  refreshFrom fuel repo call 0 none (some tables) locks

end Loop

/-! ## What is to be recorded -/

/-- The keys of the tables of locks. -/
structure Keys (tables : LockTables) : Prop where
  locksPkey : (tables.locks.map LockRow.id).Nodup
  locksResourcesPkey : tables.locksResources.Nodup
  locksResourcesLockId : ∀ entry ∈ tables.locksResources,
    entry.1 ∈ tables.locks.map LockRow.id
  bindsLocksLockId : ∀ entry ∈ tables.bindsLocks,
    entry.1 ∈ tables.locks.map LockRow.id

/-- The type of the resource is that of a plain or a versioned collection. -/
def HasMembers (repo : RepoTables) (resId : Id) : Prop :=
  ∃ resource ∈ repo.resources, resource.id = resId ∧
    resource.resourcetype.isCollection = true

/-- The binds in plain and in versioned collections. -/
def collectionGraph (repo : RepoTables) : Multigraph Id Bind :=
  (bindGraph repo.binds.rows).restrict fun bind =>
    HasMembers repo bind.collectionId

/-- The root of a lock, and with any depth but zero what is below it. -/
def Covers (graph : Multigraph Id Bind) (depth : Int) (root resId : Id) :
    Prop :=
  resId = root ∨ depth ≠ 0 ∧ graph.Reaches root resId

/-- The rows for a lock. -/
structure Recreated (repo : Repository) (graph : Multigraph Id Bind)
    (rootPath : Text) (lock : NewLock) (lockId : Id) (tables : LockTables) :
    Prop where
  lockroot : ∃ lockrootDbr,
    sabridgeGetProperty false repo.properties
      (newResource rootPath (rootPath ++ lock.lockroot)) =
        .returned lockrootDbr none ∧
    (∃ row, (tables.locks.filter fun row => row.id == lockId) = [row] ∧
      row.uuid = lock.uuid ∧ row.resourceId = lockrootDbr.serialno ∧
      row.depth = lock.depth ∧ row.lockroot = lock.lockroot) ∧
    ∀ resId, (lockId, resId) ∈ tables.locksResources ↔
      Covers graph lock.depth lockrootDbr.serialno resId
  binds : ∀ bindId, (lockId, bindId) ∈ tables.bindsLocks ↔
    bindId ∈ pathBinds repo lock

/-- The lookup of the root of a lock uses a result that does not exist. -/
def Crashes (repo : Repository) (call : Call) (locks : List NewLock) : Prop :=
  ∃ lock ∈ locks, sabridgeGetProperty false repo.properties
    (newResource call.rootPath (call.rootPath ++ lock.lockroot)) = .undefined

/--
With no error there are the rows for every lock, and none twice.  If a statement
has failed there is an error.  Only the lookup of a root can crash.
-/
def Reports (repo : Repository) (graph : Multigraph Id Bind) (call : Call)
    (locks : List NewLock) : Refreshed → Prop
  | .undefined => Crashes repo call locks
  | .returned err transaction =>
      (transaction = none → err ≠ none) ∧
      (err = none → ∃ tables, transaction = some tables ∧
        tables.locksResources.Nodup ∧
        ∀ n lock, locks[n]? = some lock →
          Recreated repo graph call.rootPath lock (call.lockId n) tables)

/-! ## The graph of a listing -/

section Listing

variable {fuel : Nat} {repo : Repository} {call : Call} {n : Nat}
  {lock : NewLock} {lockrootDbr : BridgeProperty.DavReposResource}

/-- The binds that are listed are those of collections that are reached. -/
theorem listed_iff
    {startId : Id} (hasMembers : HasMembers repo.toRepoTables startId)
    (bind : Bind) :
    Listed repo.toRepoTables none startId bind ↔
      (collectionGraph repo.toRepoTables).Arrow bind ∧
        (collectionGraph repo.toRepoTables).Reaches startId
          bind.collectionId := by
  have entering : (CollectionChildren.admittedGraph repo.toRepoTables
      none).Reaches startId bind.collectionId ↔
        ((bindGraph repo.binds.rows).restrict fun bind =>
          HasMembers repo.toRepoTables bind.resourceId).Reaches startId
            bind.collectionId := by
    constructor
    · intro reaches
      apply reaches.transfer
      · rintro bind ⟨bound, _, hasMembers⟩
        exact ⟨bound, hasMembers⟩
      · rfl
      · rfl
    · intro reaches
      apply reaches.transfer
      · rintro bind ⟨bound, hasMembers⟩
        refine ⟨bound, ?_, hasMembers⟩
        intro column isColumn
        cases isColumn
      · rfl
      · rfl
  have leaving : ((bindGraph repo.binds.rows).restrict fun bind =>
      HasMembers repo.toRepoTables bind.resourceId).Reaches startId
        bind.collectionId ↔
          (collectionGraph repo.toRepoTables).Reaches startId
            bind.collectionId ∧
          HasMembers repo.toRepoTables bind.collectionId :=
    Multigraph.reaches_restrict_target hasMembers
  constructor
  · intro listed
    have reached := leaving.mp (entering.mp listed.reached)
    exact ⟨⟨listed.bound, reached.2⟩, reached.1⟩
  · rintro ⟨⟨bound, isParent⟩, reached⟩
    constructor
    case bound => exact bound
    case kept =>
      intro column isColumn
      cases isColumn
    case reached => exact entering.mpr (leaving.mpr ⟨reached, isParent⟩)

/-- The type that is read with an id. -/
theorem resourcetype_getPropertyOf
    {tables : PropertyTables} {r record : BridgeProperty.DavReposResource}
    {bind : DbmsLookup.DbmsBindList} {uriNotFound : Bool}
    {err : Option DavError} (blank : r.resourcetype = none)
    (read : BridgeProperty.getPropertyOf false tables r (some bind)
      uriNotFound = .returned record err) :
    record.serialno = 0 ∧ record.resourcetype = none ∨
      record.resourcetype =
        (tables.resources.find? fun row => row.id == record.serialno).map
          BridgeProperty.ResourceRow.type := by
  have typed : (BridgeProperty.dbmsGetResource false tables r).1.serialno =
        r.serialno ∧
      (BridgeProperty.dbmsGetResource false tables r).1.resourcetype =
        (tables.resources.find? fun row => row.id == r.serialno).map
          BridgeProperty.ResourceRow.type := by
    unfold BridgeProperty.dbmsGetResource
    rw [if_neg Bool.false_ne_true]
    split
    next missing =>
        rw [missing]
        exact ⟨rfl, blank⟩
    next row found =>
        rw [found]
        exact ⟨rfl, rfl⟩
  unfold BridgeProperty.getPropertyOf at read
  dsimp only at read
  split at read
  next =>
      left
      rw [← (BridgeProperty.Outcome.returned.inj read).1]
      exact ⟨rfl, rfl⟩
  next =>
      right
      rw [← (BridgeProperty.Outcome.returned.inj read).1,
        GetResource.keepsRow_getTypedProps.sameResource.resourcetype,
        GetResource.keepsRow_getTypedProps.sameResource.serialno]
      split
      next =>
          rw [(GetResource.keepsRow_extendReftarget
              _).sameResource.resourcetype,
            (GetResource.keepsRow_extendReftarget _).sameResource.serialno]
          dsimp only
          rw [typed.1]
          exact typed.2
      next =>
          dsimp only
          rw [typed.1]
          exact typed.2

/-- The root of a lock has the type of its row, if it has any. -/
theorem resourcetype_lockroot
    {tables : PropertyTables} {rootPath uri : Text}
    {record : BridgeProperty.DavReposResource} {err : Option DavError}
    (read : sabridgeGetProperty false tables
      (newResource rootPath (rootPath ++ uri)) = .returned record err) :
    record.serialno = 0 ∧ record.resourcetype = none ∨
      record.resourcetype =
        (tables.resources.find? fun row => row.id == record.serialno).map
          BridgeProperty.ResourceRow.type := by
  rw [RedirectTarget.sabridgeGetProperty_newResource] at read
  cases looked : DbmsLookup.dbmsLookupUri false tables.binds.rows
      (BridgeProperty.lastmodified tables) uri with
  | undefined =>
      rw [looked] at read
      cases read
  | error failure =>
      rw [looked] at read
      left
      rw [← (BridgeProperty.Outcome.returned.inj read).1]
      exact ⟨rfl, rfl⟩
  | noBind =>
      rw [looked] at read
      left
      rw [← (BridgeProperty.Outcome.returned.inj read).1]
      exact ⟨rfl, rfl⟩
  | found bind =>
      rw [looked] at read
      unfold BridgeProperty.getLookedUp at read
      dsimp only at read
      generalize (if bind.resourceId = -1 then bind.parentId
        else bind.resourceId) = serialno at read
      split at read
      next =>
          left
          rw [← (BridgeProperty.Outcome.returned.inj read).1]
          exact ⟨rfl, rfl⟩
      next => exact resourcetype_getPropertyOf rfl read

/-- A root with the type of a collection is one in the bind graph. -/
theorem isCollection_iff
    (read : sabridgeGetProperty false repo.properties
      (newResource call.rootPath (call.rootPath ++ lock.lockroot)) =
        .returned lockrootDbr none) :
    (∃ resourcetype, lockrootDbr.resourcetype = some resourcetype ∧
      resourcetype.isCollection = true) ↔
        HasMembers repo.toRepoTables lockrootDbr.serialno := by
  have pairs : ∀ id type, (∃ row ∈ repo.properties.resources,
      row.id = id ∧ row.type = type) ↔
        ∃ resource ∈ repo.resources, resource.id = id ∧
          resource.resourcetype = type := by
    intro id type
    have member : (id, type) ∈
        repo.properties.resources.map (fun row => (row.id, row.type)) ↔
          (id, type) ∈ repo.resources.map fun resource =>
            (resource.id, resource.resourcetype) := by
      rw [repo.sameResources]
    simpa only [List.mem_map, Prod.mk.injEq] using member
  rcases resourcetype_lockroot read with ⟨isZero, untyped⟩ | typed
  · constructor
    · rintro ⟨resourcetype, isType, _⟩
      rw [untyped] at isType
      cases isType
    · rintro ⟨resource, present, same, _⟩
      have positive := repo.resourcesPositive resource present
      rw [same, isZero] at positive
      cases positive
  · rw [typed]
    constructor
    · rintro ⟨resourcetype, isType, isCollection⟩
      rcases Option.map_eq_some_iff.mp isType with ⟨row, found, rfl⟩
      have member := List.mem_of_find?_eq_some found
      have same := List.find?_some found
      rw [beq_iff_eq] at same
      rcases (pairs row.id row.type).mp ⟨row, member, rfl, rfl⟩ with
        ⟨resource, present, sameId, sameType⟩
      refine ⟨resource, present, ?_, ?_⟩
      · rw [sameId]
        exact same
      · rw [sameType]
        exact isCollection
    · rintro ⟨resource, present, same, isCollection⟩
      rcases (pairs resource.id resource.resourcetype).mpr
        ⟨resource, present, rfl, rfl⟩ with ⟨row, member, sameId, sameType⟩
      cases found : repo.properties.resources.find? fun row =>
          row.id == lockrootDbr.serialno with
      | none =>
          have absent := List.find?_eq_none.mp found row member
          rw [sameId, same, beq_self_eq_true] at absent
          exact absurd rfl absent
      | some other =>
          have otherMember := List.mem_of_find?_eq_some found
          have otherSame := List.find?_some found
          rw [beq_iff_eq] at otherSame
          rcases (pairs other.id other.type).mp
            ⟨other, otherMember, rfl, rfl⟩ with
              ⟨second, secondPresent, secondId, secondType⟩
          have equal : second = resource :=
            List.inj_on_of_nodup_map repo.resourcesPkey secondPresent present
              (secondId.trans (otherSame.trans same.symm))
          refine ⟨other.type, rfl, ?_⟩
          rw [← secondType, equal]
          exact isCollection

/-- What is no collection has no members. -/
theorem children_of_not_collection
    (order : Sql.RowOrder MemberRow) (tables : RepoTables)
    {dbR : DbmsCollection.DavReposResource}
    (notCollection : dbR.resourcetype.isCollection = false)
    (positive : 0 < fuel) :
    CollectionChildren.sabridgeGetCollectionChildren fuel order tables none
        dbR .infinity =
      some ⟨[], some (CollectionChildren.dbmsNumItems order 0 tables
        [dbR])⟩ := by
  have unlisted : DbmsCollection.listedCollections [dbR] = [] := by
    rw [DbmsCollection.listedCollections, List.filter_singleton,
      notCollection, Bool.and_false]
    rfl
  have empty : DbmsCollection.dbmsGetCollectionResource order 0 tables none
      [dbR] = [] :=
    CollectionChildren.dbmsGetCollectionResource_eq_nil unlisted
  rcases Nat.exists_eq_add_one_of_ne_zero (Nat.ne_of_gt positive) with
    ⟨more, rfl⟩
  have stops : CollectionChildren.listLevel order tables none .infinity
      (CollectionChildren.listingStart order tables none dbR) =
        .inl ⟨[], some (CollectionChildren.dbmsNumItems order 0 tables
          [dbR])⟩ :=
    if_pos empty
  show Loop.run (CollectionChildren.listLevel order tables none .infinity)
    (more + 1) (CollectionChildren.listingStart order tables none dbR) = _
  rw [Loop.run, stops]

/-- The ids in the list are those below the root. -/
theorem exists_listedIds
    (tables : LockTables) (enough : 2 * repo.resources.length + 1 < fuel)
    (read : sabridgeGetProperty false repo.properties
      (newResource call.rootPath (call.rootPath ++ lock.lockroot)) =
        .returned lockrootDbr none) :
    ∃ ids,
      listedIds fuel repo call n lock lockrootDbr (some tables) = some ids ∧
      ∀ resId, resId ∈ lockrootDbr.serialno :: ids ↔
        (collectionGraph repo.toRepoTables).Reaches lockrootDbr.serialno
          resId := by
  by_cases hasMembers : HasMembers repo.toRepoTables lockrootDbr.serialno
  · rcases (isCollection_iff read).mpr hasMembers with
      ⟨resourcetype, isType, isCollection⟩
    let start : StartCollection :=
      ⟨lockrootDbr.serialno, resourcetype, call.rootPath ++ lock.lockroot, 0,
        lockrootDbr.bindId, isCollection⟩
    rcases CollectionChildren.exists_children (call.order n)
      repo.toListedTables none start with
        ⟨children, stopped, done, state, invariant, last, equal⟩
    have lists := (invariant.listsGraph last).binds
    rw [← equal] at lists
    refine ⟨children.linkHead.map fun entry => entry.1.serialno, ?_, ?_⟩
    · unfold listedIds
      rw [isType]
      exact congrArg (Option.map _) (stopped fuel enough)
    · intro resId
      rw [List.mem_cons, Multigraph.reaches_iff_last]
      apply or_congr Iff.rfl
      constructor
      · intro member
        rcases List.mem_map.mp member with ⟨entry, entryMember, rfl⟩
        rcases lists.sound entry entryMember with
          ⟨bind, listed, _, serialno, _⟩
        rcases (listed_iff hasMembers bind).mp listed with ⟨arrow, reached⟩
        exact ⟨bind, arrow, reached, serialno.symm⟩
      · rintro ⟨bind, arrow, reached, rfl⟩
        rcases lists.complete bind
          ((listed_iff hasMembers bind).mpr ⟨arrow, reached⟩) with
            ⟨entry, member, sameBind⟩
        rcases lists.sound entry member with
          ⟨other, listed, otherBind, serialno, _⟩
        have equal : other = bind :=
          List.inj_on_of_nodup_map repo.binds.pkey listed.bound arrow.1
            (otherBind.symm.trans sameBind)
        refine List.mem_map.mpr ⟨entry, member, ?_⟩
        rw [serialno, equal]
        rfl
  · have empty :
        listedIds fuel repo call n lock lockrootDbr (some tables) =
          some [] := by
      unfold listedIds
      cases isType : lockrootDbr.resourcetype with
      | none => rfl
      | some resourcetype =>
          have notCollection : resourcetype.isCollection = false := by
            rw [Bool.eq_false_iff]
            intro isCollection
            exact hasMembers ((isCollection_iff read).mp
              ⟨resourcetype, isType, isCollection⟩)
          dsimp only
          rw [children_of_not_collection (call.order n) repo.toRepoTables
            notCollection (Nat.zero_lt_of_lt enough)]
          rfl
    refine ⟨[], empty, ?_⟩
    intro resId
    rw [List.mem_singleton]
    constructor
    · intro same
      rw [same]
      exact Multigraph.Reaches.refl _ _
    · intro reaches
      apply reaches.mem_of_closed
      · rfl
      · rintro bind ⟨_, isParent⟩ leaves
        change bind.collectionId = _ at leaves
        rw [leaves] at isParent
        exact absurd isParent hasMembers

end Listing

/-! ## One lock -/

section Step

variable {fuel : Nat} {repo : Repository} {call : Call} {n : Nat}
  {lock : NewLock} {lockrootDbr : BridgeProperty.DavReposResource}
  {refused : Bool} {statement : LockTables → Option LockTables}
  {transaction : Option LockTables} {before after : LockTables}

/-- After a transaction has failed no statement succeeds. -/
@[simp]
theorem execute_none : execute refused statement none = none := by
  cases refused with
  | true => rfl
  | false => rfl

theorem execute_eq_some
    (done : execute refused statement transaction = some after) :
    ∃ before, transaction = some before ∧ statement before = some after := by
  unfold execute at done
  split at done
  next => cases done
  next => exact Option.bind_eq_some_iff.mp done

theorem recordPathBinds_none :
    recordPathBinds repo call n lock none = none := by
  unfold recordPathBinds
  rw [execute_none, execute_none, ite_self]

/-- The rows for the binds on the path, and nothing else. -/
theorem recordPathBinds_eq_some
    (done : recordPathBinds repo call n lock transaction = some after) :
    ∃ before, transaction = some before ∧ after = { before with
      bindsLocks := before.bindsLocks ++
        (pathBinds repo lock).map fun bindId => (call.lockId n, bindId) } := by
  unfold recordPathBinds at done
  split at done
  next empty =>
      refine ⟨after, done, ?_⟩
      rw [empty, List.map_nil, List.append_nil]
  next =>
      rcases execute_eq_some done with ⟨middle, looked, inserted⟩
      rcases execute_eq_some looked with ⟨before, begun, same⟩
      rw [Option.some.inj same] at begun
      exact ⟨middle, begun, (Option.some.inj inserted).symm⟩

/-- The row of a lock, with an id that is new. -/
theorem dbmsInsertLock_eq_some
    {lockId serialno : Id}
    (done : dbmsInsertLock before lockId serialno lock = some after) :
    lockId ∉ before.locks.map LockRow.id ∧
      ∃ row, row.id = lockId ∧ row.uuid = lock.uuid ∧
        row.resourceId = serialno ∧ row.depth = lock.depth ∧
        row.lockroot = lock.lockroot ∧
        after = { before with locks := before.locks ++ [row] } := by
  unfold dbmsInsertLock at done
  split at done
  next =>
      split at done
      next => cases done
      next fresh =>
          exact ⟨fresh, _, rfl, rfl, rfl, rfl, rfl,
            (Option.some.inj done).symm⟩
  next => cases done

/-- What the statements for a lock add to the tables. -/
structure Added (repo : Repository) (lock : NewLock) (lockId root : Id)
    (before after : LockTables) : Prop where
  fresh : lockId ∉ before.locks.map LockRow.id
  locks : ∃ row, row.id = lockId ∧ row.uuid = lock.uuid ∧
    row.resourceId = root ∧ row.depth = lock.depth ∧
    row.lockroot = lock.lockroot ∧ after.locks = before.locks ++ [row]
  bindsLocks : after.bindsLocks = before.bindsLocks ++
    (pathBinds repo lock).map fun bindId => (lockId, bindId)
  locksResources : ∃ resIds : List Id,
    after.locksResources = before.locksResources ++
      resIds.map (fun resId => (lockId, resId)) ∧
    ∀ resId, resId ∈ resIds ↔
      Covers (collectionGraph repo.toRepoTables) lock.depth root resId
  once : after.locksResources.Nodup

/-- The first two inserts and the last one. -/
theorem added_of_inserted
    {middle : LockTables} {serialno : Id} {children : List Id}
    (recorded : recordPathBinds repo call n lock
      (execute (call.refuses n .insertLock)
        (fun tables => dbmsInsertLock tables (call.lockId n) serialno lock)
        (some before)) = some middle)
    (inserted : execute (call.refuses n .addIndirectLockedChildren)
      (dbmsAddIndirectLockedChildren (call.lockId n) (serialno :: children))
      (some middle) = some after)
    (covered : ∀ resId, resId ∈ serialno :: children ↔
      Covers (collectionGraph repo.toRepoTables) lock.depth serialno resId) :
    Added repo lock (call.lockId n) serialno before after := by
  rcases recordPathBinds_eq_some recorded with ⟨locked, isLocked, rfl⟩
  rcases execute_eq_some isLocked with ⟨tables, begun, isRow⟩
  rw [← Option.some.inj begun] at isRow
  rcases dbmsInsertLock_eq_some isRow with
    ⟨fresh, row, isId, isUuid, isRoot, isDepth, isLockroot, rfl⟩
  rcases execute_eq_some inserted with ⟨tables, found, isAdded⟩
  rw [← Option.some.inj found] at isAdded
  unfold dbmsAddIndirectLockedChildren at isAdded
  dsimp only at isAdded
  split at isAdded
  next once =>
      rw [← Option.some.inj isAdded]
      constructor
      case fresh => exact fresh
      case locks =>
        exact ⟨row, isId, isUuid, isRoot, isDepth, isLockroot, rfl⟩
      case bindsLocks => rfl
      case locksResources => exact ⟨serialno :: children, rfl, covered⟩
      case once => exact once
  next => cases isAdded

theorem recreateLock_none :
    recreateLock fuel repo call n lock lockrootDbr none = some none := by
  unfold recreateLock
  simp only [execute_none, recordPathBinds_none]
  split
  next => rfl
  next => rfl

/-- Enough fuel for the list makes an end of the statements for a lock. -/
theorem exists_recreateLock
    (enough : 2 * repo.resources.length + 1 < fuel)
    (read : sabridgeGetProperty false repo.properties
      (newResource call.rootPath (call.rootPath ++ lock.lockroot)) =
        .returned lockrootDbr none) :
    ∃ left,
      recreateLock fuel repo call n lock lockrootDbr (some before) =
        some left ∧
      ∀ after, left = some after →
        Added repo lock (call.lockId n) lockrootDbr.serialno before after := by
  let middle := recordPathBinds repo call n lock
    (execute (call.refuses n .insertLock)
      (fun tables =>
        dbmsInsertLock tables (call.lockId n) lockrootDbr.serialno lock)
      (some before))
  by_cases atRoot : lock.depth = 0
  · refine ⟨execute (call.refuses n .addIndirectLockedChildren)
      (dbmsAddIndirectLockedChildren (call.lockId n) [lockrootDbr.serialno])
      middle, ?_, ?_⟩
    · unfold recreateLock
      exact if_neg (not_not.mpr atRoot)
    · intro after done
      rcases execute_eq_some done with ⟨tables, recorded, _⟩
      rw [recorded] at done
      apply added_of_inserted recorded done
      intro resId
      rw [List.mem_singleton, Covers]
      exact ⟨Or.inl, fun covered => covered.resolve_right fun below =>
        below.1 atRoot⟩
  · let listing := execute (call.refuses n .getCollectionChildren) some middle
    have unfolded : recreateLock fuel repo call n lock lockrootDbr
        (some before) =
          (listedIds fuel repo call n lock lockrootDbr listing).map
            fun children =>
              execute (call.refuses n .addIndirectLockedChildren)
                (dbmsAddIndirectLockedChildren (call.lockId n)
                  (lockrootDbr.serialno :: children)) listing :=
      if_pos atRoot
    rw [unfolded]
    cases isListing : listing with
    | none =>
        refine ⟨none, ?_, ?_⟩
        · exact congrArg some execute_none
        · intro after done
          cases done
    | some tables =>
        rcases @exists_listedIds fuel repo call n lock lockrootDbr tables
          enough read with ⟨ids, isList, below⟩
        rw [isList]
        refine ⟨_, rfl, ?_⟩
        intro after done
        rcases execute_eq_some isListing with ⟨listed, recorded, same⟩
        rw [Option.some.inj same] at recorded
        apply added_of_inserted recorded done
        intro resId
        rw [below, Covers]
        constructor
        · intro reaches
          exact Or.inr ⟨atRoot, reaches⟩
        · rintro (rfl | ⟨_, reaches⟩)
          · exact Multigraph.Reaches.refl _ _
          · exact reaches

end Step

/-! ## All locks -/

section Run

variable {fuel : Nat} {repo : Repository} {call : Call} {n : Nat}
  {lock : NewLock} {lockId root : Id} {rootPath : Text}
  {graph : Multigraph Id Bind} {err : Option DavError}
  {before middle after : LockTables}

/-- The rows of the locks that were there are the same. -/
structure Keeps (before after : LockTables) : Prop where
  ids : ∀ id ∈ before.locks.map LockRow.id, id ∈ after.locks.map LockRow.id
  locks : ∀ id ∈ before.locks.map LockRow.id,
    (after.locks.filter fun row => row.id == id) =
      before.locks.filter fun row => row.id == id
  locksResources : ∀ id ∈ before.locks.map LockRow.id, ∀ resId,
    (id, resId) ∈ after.locksResources ↔ (id, resId) ∈ before.locksResources
  bindsLocks : ∀ id ∈ before.locks.map LockRow.id, ∀ bindId,
    (id, bindId) ∈ after.bindsLocks ↔ (id, bindId) ∈ before.bindsLocks

theorem Keeps.refl (tables : LockTables) : Keeps tables tables where
  ids := fun _ member => member
  locks := fun _ _ => rfl
  locksResources := fun _ _ _ => Iff.rfl
  bindsLocks := fun _ _ _ => Iff.rfl

theorem Keeps.trans
    (first : Keeps before middle)
    (second : Keeps middle after) : Keeps before after where
  ids := fun id member => second.ids id (first.ids id member)
  locks := fun id member =>
    (second.locks id (first.ids id member)).trans (first.locks id member)
  locksResources := fun id member resId =>
    (second.locksResources id (first.ids id member) resId).trans
      (first.locksResources id member resId)
  bindsLocks := fun id member bindId =>
    (second.bindsLocks id (first.ids id member) bindId).trans
      (first.bindsLocks id member bindId)

/-- Rows for a new lock do not belong to another one. -/
theorem mem_append_map
    {table : List (Id × Id)} {values : List Id} {id value : Id}
    (other : id ≠ lockId) :
    (id, value) ∈ table ++ values.map (fun value => (lockId, value)) ↔
      (id, value) ∈ table := by
  rw [List.mem_append, or_iff_left_iff_imp]
  intro member
  rcases List.mem_map.mp member with ⟨_, _, same⟩
  exact absurd (Prod.mk.inj same).1.symm other

/-- The rows of a new lock are those that were put in for it. -/
theorem mem_append_map_self
    {table : List (Id × Id)} {values : List Id} {value : Id} {ids : List Id}
    (refers : ∀ entry ∈ table, entry.1 ∈ ids)
    (fresh : lockId ∉ ids) :
    (lockId, value) ∈ table ++ values.map (fun value => (lockId, value)) ↔
      value ∈ values := by
  rw [List.mem_append, List.mem_map]
  constructor
  · rintro (old | ⟨_, member, same⟩)
    · exact absurd (refers _ old) fresh
    · rw [← (Prod.mk.inj same).2]
      exact member
  · intro member
    exact Or.inr ⟨value, member, rfl⟩

theorem Added.keys
    (added : Added repo lock lockId root before after)
    (keys : Keys before) : Keys after := by
  rcases added.locks with ⟨row, isId, _, _, _, _, locks⟩
  rcases added.locksResources with ⟨resIds, locksResources, _⟩
  have ids : after.locks.map LockRow.id =
      before.locks.map LockRow.id ++ [lockId] := by
    rw [locks, List.map_append, List.map_singleton, isId]
  have refers : ∀ {table : List (Id × Id)} {values : List Id},
      (∀ entry ∈ table, entry.1 ∈ before.locks.map LockRow.id) →
      ∀ entry ∈ table ++ values.map (fun value => (lockId, value)),
        entry.1 ∈ after.locks.map LockRow.id := by
    intro table values old entry member
    rw [ids, List.mem_append, List.mem_singleton]
    rcases List.mem_append.mp member with isOld | isNew
    · exact Or.inl (old entry isOld)
    · rcases List.mem_map.mp isNew with ⟨_, _, rfl⟩
      exact Or.inr rfl
  constructor
  case locksPkey =>
    rw [locks]
    apply Sql.nodup_key_append keys.locksPkey
    rw [isId]
    exact added.fresh
  case locksResourcesPkey => exact added.once
  case locksResourcesLockId =>
    rw [locksResources]
    exact refers keys.locksResourcesLockId
  case bindsLocksLockId =>
    rw [added.bindsLocks]
    exact refers keys.bindsLocksLockId

theorem Added.keeps
    (added : Added repo lock lockId root before after) :
    Keeps before after := by
  rcases added.locks with ⟨row, isId, _, _, _, _, locks⟩
  rcases added.locksResources with ⟨resIds, locksResources, _⟩
  have other : ∀ id ∈ before.locks.map LockRow.id, id ≠ lockId := by
    rintro id member rfl
    exact added.fresh member
  constructor
  case ids =>
    intro id member
    rw [locks, List.map_append]
    exact List.mem_append_left _ member
  case locks =>
    intro id member
    have unlike : (row.id == id) = false := by
      rw [isId]
      exact beq_eq_false_iff_ne.mpr (other id member).symm
    rw [locks, List.filter_append, List.filter_singleton, unlike]
    exact List.append_nil _
  case locksResources =>
    intro id member resId
    rw [locksResources]
    exact mem_append_map (other id member)
  case bindsLocks =>
    intro id member bindId
    rw [added.bindsLocks]
    exact mem_append_map (other id member)

/-- After its statements a lock has its rows. -/
theorem Added.recreated
    {lockrootDbr : BridgeProperty.DavReposResource}
    (added : Added repo lock lockId lockrootDbr.serialno before after)
    (keys : Keys before)
    (read : sabridgeGetProperty false repo.properties
      (newResource rootPath (rootPath ++ lock.lockroot)) =
        .returned lockrootDbr none) :
    Recreated repo (collectionGraph repo.toRepoTables) rootPath lock lockId
      after := by
  rcases added.locks with
    ⟨row, isId, isUuid, isRoot, isDepth, isLockroot, locks⟩
  rcases added.locksResources with ⟨resIds, locksResources, covered⟩
  constructor
  case lockroot =>
    refine ⟨lockrootDbr, read, ?_, ?_⟩
    · refine ⟨row, ?_, isUuid, isRoot, isDepth, isLockroot⟩
      have none : (before.locks.filter fun row => row.id == lockId) = [] := by
        rw [List.filter_eq_nil_iff]
        intro other member same
        apply added.fresh
        exact List.mem_map.mpr ⟨other, member, beq_iff_eq.mp same⟩
      rw [locks, List.filter_append, none, List.filter_singleton, isId,
        beq_self_eq_true]
      rfl
    · intro resId
      rw [locksResources, ← covered]
      exact mem_append_map_self keys.locksResourcesLockId added.fresh
  case binds =>
    intro bindId
    rw [added.bindsLocks]
    exact mem_append_map_self keys.bindsLocksLockId added.fresh

/-- The locks after it leave the rows of a lock as they are. -/
theorem Recreated.keep
    (recreated : Recreated repo graph rootPath lock lockId before)
    (listed : lockId ∈ before.locks.map LockRow.id)
    (keeps : Keeps before after) :
    Recreated repo graph rootPath lock lockId after := by
  rcases recreated.lockroot with ⟨lockrootDbr, read, row, covered⟩
  constructor
  case lockroot =>
    refine ⟨lockrootDbr, read, ?_, ?_⟩
    · rw [keeps.locks lockId listed]
      exact row
    · intro resId
      rw [keeps.locksResources lockId listed]
      exact covered resId
  case binds =>
    intro bindId
    rw [keeps.bindsLocks lockId listed]
    exact recreated.binds bindId

/-- What the loop from a lock on makes of the tables. -/
def ReportsFrom (repo : Repository) (call : Call) (n : Nat)
    (before : LockTables) (locks : List NewLock) : Refreshed → Prop
  | .undefined => Crashes repo call locks
  | .returned err transaction =>
      (transaction = none → err ≠ none) ∧
      (err = none → ∃ tables, transaction = some tables ∧ Keys tables ∧
        Keeps before tables ∧
        ∀ k lock, locks[k]? = some lock →
          Recreated repo (collectionGraph repo.toRepoTables) call.rootPath
            lock (call.lockId (n + k)) tables)

/-- A crash or an error. -/
def Fails (repo : Repository) (call : Call) (locks : List NewLock) :
    Refreshed → Prop
  | .undefined => Crashes repo call locks
  | .returned err _ => err ≠ none

theorem Fails.reportsFrom
    {locks : List NewLock} {result : Refreshed}
    (fails : Fails repo call locks result) :
    ReportsFrom repo call n before locks result := by
  cases result with
  | undefined => exact fails
  | returned err transaction =>
      exact ⟨fun _ => fails, fun noError => absurd noError fails⟩

theorem Fails.cons
    {locks : List NewLock} {result : Refreshed}
    (fails : Fails repo call locks result) :
    Fails repo call (lock :: locks) result := by
  cases result with
  | undefined =>
      rcases fails with ⟨other, member, undefined⟩
      exact ⟨other, List.mem_cons_of_mem _ member, undefined⟩
  | returned err transaction => exact fails

/-- A transaction that has failed is reported, also by the locks after it. -/
theorem refreshFrom_failed
    (locks : List NewLock) (failed : locks = [] → err ≠ none) :
    ∃ result, refreshFrom fuel repo call n err none locks = some result ∧
      Fails repo call locks result := by
  induction locks generalizing n err with
  | nil => exact ⟨_, rfl, failed rfl⟩
  | cons lock locks induction =>
      rw [refreshFrom, execute_none, getLockroot]
      cases read : sabridgeGetProperty false repo.properties
          (newResource call.rootPath (call.rootPath ++ lock.lockroot)) with
      | undefined => exact ⟨_, rfl, lock, List.mem_cons_self, read⟩
      | returned lockrootDbr found =>
          dsimp only [Option.isSome_none]
          rw [if_neg Bool.false_ne_true]
          cases spoiled : (call.spoiled n).2 with
          | some err => exact ⟨_, rfl, Option.some_ne_none err⟩
          | none =>
              dsimp only
              rw [recreateLock_none]
              have rest := @induction (n + 1) (some indirectError)
                fun _ => Option.some_ne_none _
              rcases rest with ⟨result, runs, fails⟩
              exact ⟨result, runs, fails.cons⟩

/-- The first lock of a list, and the others after it. -/
theorem ReportsFrom.cons
    {lockrootDbr : BridgeProperty.DavReposResource}
    {locks : List NewLock} {result : Refreshed}
    (reports : ReportsFrom repo call (n + 1) after locks result)
    (added : Added repo lock (call.lockId n) lockrootDbr.serialno before
      after)
    (keys : Keys before)
    (read : sabridgeGetProperty false repo.properties
      (newResource call.rootPath (call.rootPath ++ lock.lockroot)) =
        .returned lockrootDbr none) :
    ReportsFrom repo call n before (lock :: locks) result := by
  cases result with
  | undefined =>
      rcases reports with ⟨other, member, undefined⟩
      exact ⟨other, List.mem_cons_of_mem _ member, undefined⟩
  | returned err transaction =>
      refine ⟨reports.1, ?_⟩
      intro noError
      rcases reports.2 noError with
        ⟨tables, isLeft, keysLeft, keeps, recreated⟩
      refine ⟨tables, isLeft, keysLeft, added.keeps.trans keeps, ?_⟩
      intro k other listed
      cases k with
      | zero =>
          cases listed
          have here : call.lockId n ∈ after.locks.map LockRow.id := by
            rcases added.locks with ⟨row, isId, _, _, _, _, locks⟩
            rw [locks, List.map_append, List.mem_append, List.map_singleton,
              isId]
            exact Or.inr (List.mem_singleton_self _)
          exact (added.recreated keys read).keep here keeps
      | succ k =>
          rw [Nat.add_succ, ← Nat.succ_add]
          exact recreated k other listed

/-- The loop ends, with an error or with the rows for all locks. -/
theorem exists_refreshFrom
    (enough : 2 * repo.resources.length + 1 < fuel)
    (keys : Keys before) (locks : List NewLock) :
    ∃ result,
      refreshFrom fuel repo call n none (some before) locks = some result ∧
      ReportsFrom repo call n before locks result := by
  induction locks generalizing n before with
  | nil =>
      refine ⟨_, rfl, ?_, ?_⟩
      · intro failed
        cases failed
      · intro _
        refine ⟨before, rfl, keys, Keeps.refl before, ?_⟩
        intro k lock listed
        cases listed
  | cons lock locks induction =>
      by_cases refused : call.refuses n .getProperty = true
      · -- nothing is looked up, as after a transaction that has failed
        have same : refreshFrom fuel repo call n none (some before)
            (lock :: locks) =
              refreshFrom fuel repo call n none none (lock :: locks) := by
          rw [refreshFrom, refreshFrom, execute_none, execute,
            if_pos refused]
        rw [same]
        rcases @refreshFrom_failed fuel repo call n none (lock :: locks)
          (fun empty => absurd empty (List.cons_ne_nil _ _)) with
            ⟨result, runs, fails⟩
        exact ⟨result, runs, fails.reportsFrom⟩
      · have begun : execute (call.refuses n .getProperty) some
            (some before) = some before :=
          if_neg refused
        rw [refreshFrom, begun, getLockroot]
        cases read : sabridgeGetProperty false repo.properties
            (newResource call.rootPath
              (call.rootPath ++ lock.lockroot)) with
        | undefined => exact ⟨_, rfl, lock, List.mem_cons_self, read⟩
        | returned lockrootDbr found =>
            dsimp only [Option.isSome_some]
            rw [if_pos rfl]
            cases found with
            | some err =>
                refine ⟨_, rfl, ?_, ?_⟩
                · intro failed
                  cases failed
                · intro noError
                  cases noError
            | none =>
                rcases @exists_recreateLock fuel repo call n lock lockrootDbr
                  before enough read with ⟨left, recreated, added⟩
                dsimp only
                rw [recreated]
                cases left with
                | none =>
                    rcases @refreshFrom_failed fuel repo call (n + 1)
                      (some indirectError) locks
                        (fun _ => Option.some_ne_none _) with
                          ⟨result, runs, fails⟩
                    exact ⟨result, runs, fails.cons.reportsFrom⟩
                | some after =>
                    have isAdded := added after rfl
                    rcases @induction (n + 1) after (isAdded.keys keys) with
                      ⟨result, runs, reports⟩
                    exact ⟨result, runs, reports.cons isAdded keys read⟩

end Run

/--
Locks that are created again have their rows, and each resource that they
cover has one, where only collections that are not versions have members.  A
statement that fails is reported.
-/
theorem davReposRefreshLocks_reports
    (repo : Repository) (call : Call) (tables : LockTables)
    (locks : List NewLock) (keys : Keys tables) {fuel : Nat}
    (enough : 2 * repo.resources.length + 1 < fuel) :
    ∃ result,
      davReposRefreshLocks fuel repo call tables locks = some result ∧
      Reports repo (collectionGraph repo.toRepoTables) call locks result := by
  rcases @exists_refreshFrom fuel repo call 0 tables enough keys locks with
    ⟨result, runs, reports⟩
  refine ⟨result, runs, ?_⟩
  cases result with
  | undefined => exact reports
  | returned err transaction =>
      refine ⟨reports.1, ?_⟩
      intro noError
      rcases reports.2 noError with
        ⟨left, isLeft, keysLeft, _, recreated⟩
      refine ⟨left, isLeft, keysLeft.locksResourcesPkey, ?_⟩
      intro n lock listed
      have row := recreated n lock listed
      rwa [Nat.zero_add] at row

/-! ## A version with a member -/

/--
The root collection has a version of a collection, whose member is the history
of a resource.
-/
def boundVersionTables : ListedTables where
  resources :=
    [⟨2, .collection, 3, 3⟩, ⟨3, .user, 3, 3⟩, ⟨10, .versionHistory, 3, 3⟩,
      ⟨11, .collectionVersion, 3, 3⟩, ⟨12, .versionHistory, 3, 3⟩,
      ⟨13, .version, 3, 3⟩]
  binds :=
    { rows := [⟨1, "version".toList, 2, 11, none⟩,
        ⟨2, "member".toList, 11, 12, none⟩]
      pkey := by decide
      collectionIdKey := by decide
      positive := by decide }
  versions := [⟨11, 1, 10⟩, ⟨13, 1, 12⟩]
  vhrs := [⟨10, 11⟩, ⟨12, 13⟩]
  vcrs := []
  resourcesPkey := by decide
  vhrsResource := by decide
  fkBindCollection := by decide
  fkBindResource := by decide
  fkVersionVhr := by decide
  fkVhrRootVersion := by decide
  versionType := by decide
  versionsResource := by decide
  vcrsChecked := by decide

/-- A row of `resources` with its type. -/
def resourceRow (id : Id) (type : ResourceType) :
    BridgeProperty.ResourceRow where
  id := id
  uuid := []
  createdAt := []
  displayname := none
  contentlanguage := []
  comment := none
  type := type
  ownerId := 3
  creatorId := 3
  limebarState := none
  lastmodified := none

/-- The same resources and binds, as they are read one at a time. -/
def boundVersion : Repository where
  toListedTables := boundVersionTables
  properties :=
    { binds := boundVersionTables.binds
      resources := [resourceRow 2 .collection, resourceRow 3 .user,
        resourceRow 10 .versionHistory, resourceRow 11 .collectionVersion,
        resourceRow 12 .versionHistory, resourceRow 13 .version]
      redirectrefs := []
      collections := []
      media := []
      principals := []
      versions := [⟨11, 1, 0, 10⟩, ⟨13, 1, 0, 12⟩]
      vhrs := [⟨10, 11⟩, ⟨12, 13⟩]
      vcrs := [] }
  sameBinds := rfl
  sameResources := rfl
  resourcesPositive := by decide

/-- No locks, and one user. -/
def unlocked : LockTables where
  resources := []
  principals := [(3, "user".toList)]
  binds := []
  locks := []
  locksResources := []
  bindsLocks := []

theorem keys_unlocked : Keys unlocked where
  locksPkey := List.nodup_nil
  locksResourcesPkey := List.nodup_nil
  locksResourcesLockId := by decide
  bindsLocksLockId := by decide

/-- A lock of the root collection with depth infinity. -/
def rootLock : NewLock where
  uuid := "token".toList
  authUser := some "user".toList
  scope := .exclusive
  depth := davInfinity
  timeout := 0
  owner := none
  lockroot := ['/']

/-- A call whose statements succeed. -/
def smooth : Call where
  rootPath := []
  refuses := fun _ _ => false
  spoiled := fun _ => ({}, none)
  lockId := fun n => 1 + n
  order := fun _ => Sql.RowOrder.stored _

/-- The row of the lock. -/
def rootLockRow : LockRow where
  id := 1
  uuid := "token".toList
  resourceId := 2
  ownerId := 3
  form := 'X'
  depth := davInfinity
  expiresAt := 0
  ownerInfo := []
  lockroot := ['/']

theorem davReposRefreshLocks_rootLock :
    davReposRefreshLocks 14 boundVersion smooth unlocked [rootLock] =
      some (.returned none (some { unlocked with
        locks := [rootLockRow]
        locksResources := [(1, 2), (1, 11)] })) :=
  rfl

/-- A version with a member: the member is below the root and is not locked. -/
theorem not_forall_davReposRefreshLocks_reports :
    ¬ ∀ (repo : Repository) (call : Call) (tables : LockTables)
        (locks : List NewLock), Keys tables → ∀ fuel,
      2 * repo.resources.length + 1 < fuel →
      ∃ result,
        davReposRefreshLocks fuel repo call tables locks = some result ∧
        Reports repo (bindGraph repo.binds.rows) call locks result := by
  intro always
  rcases always boundVersion smooth unlocked [rootLock] keys_unlocked 14
    (by decide) with ⟨result, runs, reports⟩
  rw [davReposRefreshLocks_rootLock] at runs
  rw [← Option.some.inj runs] at reports
  rcases reports.2 rfl with ⟨tables, left, _, recreated⟩
  rcases (recreated 0 rootLock rfl).lockroot with
    ⟨lockrootDbr, read, ⟨row, found, _, isRoot, _, _⟩, covered⟩
  rw [← Option.some.inj left] at found covered
  have serialno : lockrootDbr.serialno = 2 := by
    have isRow : [rootLockRow] = [row] := found
    rw [← isRoot, ← List.singleton_inj.mp isRow]
    rfl
  have below : (bindGraph boundVersion.binds.rows).Reaches 2 12 :=
    ⟨boundVersion.binds.rows, List.mem_cons_self, rfl,
      List.mem_cons_of_mem _ List.mem_cons_self, rfl, rfl⟩
  have locked := (covered 12).mpr
    (Or.inr ⟨by decide, serialno ▸ below⟩)
  revert locked
  decide

/-- The version is locked with the root collection. -/
theorem davReposRefreshLocks_reports_boundVersion :
    Keys unlocked ∧ 2 * boundVersion.resources.length + 1 < 14 ∧
      Reports boundVersion (collectionGraph boundVersion.toRepoTables) smooth
        [rootLock] (.returned none (some { unlocked with
          locks := [rootLockRow]
          locksResources := [(1, 2), (1, 11)] })) := by
  refine ⟨keys_unlocked, by decide, ?_⟩
  rcases davReposRefreshLocks_reports boundVersion smooth unlocked [rootLock]
    keys_unlocked (show 2 * _ + 1 < 14 by decide) with ⟨result, runs, reports⟩
  rw [davReposRefreshLocks_rootLock] at runs
  rw [Option.some.inj runs]
  exact reports

end Limestone.RefreshLocks
