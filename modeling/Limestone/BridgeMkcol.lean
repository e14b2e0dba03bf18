import Limestone.AclPaths

/-!
# Collections with their parents: `sabridge_mkcol_w_parents`

One loop walks down a path while its segments are bound, and from the first
segment that is not it makes a collection for each.  All new collections are
made from one `dav_repos_resource`, whose `parent` is loaded once.

The database executes every statement that breaks no constraint of the schema.
-/

namespace Limestone.BridgeMkcol

open Library
open DbmsBind
open AclPaths

/-! ## Tables -/

/-- A row of `resources`, with the column that members are given. -/
structure ResourceRow where
  id : Id
  resourcetype : ResourceType
  /-- `none` is NULL. -/
  limebarState : Option Text
deriving DecidableEq, Repr

/-- `resources` and `resources_id_seq`. -/
structure ResourceTable where
  rows : List ResourceRow
  nextId : Id
  nextIdPos : 0 < nextId
  ids : ∀ row ∈ rows, 0 < row.id ∧ row.id < nextId
  pkey : (rows.map ResourceRow.id).Nodup

/-- A row of `collections`. -/
structure CollectionRow where
  resourceId : Id
  /-- `auto_version_new_children`. -/
  avNewChildren : Int
deriving DecidableEq, Repr

/-- `binds` and `binds_id_seq`. -/
structure BindSequence extends BindTable where
  nextId : Id
  nextIdPos : 0 < nextId
  ids : ∀ bind ∈ rows, bind.id < nextId

/-- The tables that a new collection is written to. -/
structure CollectionStore where
  resources : ResourceTable
  collections : List CollectionRow
  binds : BindSequence
  aclInheritance : AclTable

/-- The ids of the resources. -/
def CollectionStore.resourceIds (store : CollectionStore) : List Id :=
  store.resources.rows.map ResourceRow.id

/-- The call does not return a resource. -/
inductive Stop where
  | davError (error : DavError)
  | nullDereference
deriving DecidableEq, Repr

/-! ## The functions -/

/-- The `limebar_state` that `dbms_get_resource` loads; NULL is empty. -/
def limebarState (store : CollectionStore) (serialno : Id) : Option Text :=
  (store.resources.rows.find? fun row => row.id == serialno).map
    fun row => row.limebarState.getD []

/-- `dbms_get_collection_props` for a `dav_repos_resource` of zeros. -/
def dbmsGetCollectionProps (store : CollectionStore) (serialno : Id) : Int :=
  match store.collections.find? fun row => row.resourceId == serialno with
  | none => 0
  | some row => row.avNewChildren

/-- The fields of a `parent` that are read. -/
structure ParentDbr where
  limebarState : Option Text
  avNewChildren : Int
deriving DecidableEq, Repr

/-- The `dav_repos_resource` of the new collections; its `uri` is NULL. -/
structure NewCollRes where
  serialno : Id
  parentId : Id
  parent : Option ParentDbr
  limebarState : Option Text
  avNewChildren : Int
deriving DecidableEq, Repr

/-- The `dav_repos_resource` of `dav_repos_new_resource`. -/
def newDbr : NewCollRes where
  serialno := 0
  parentId := 0
  parent := none
  limebarState := none
  avNewChildren := 0

/-- `dbms_insert_resource` for a collection. -/
def dbmsInsertResource (table : ResourceTable)
    (limebarState : Option Text) : ResourceTable where
  rows := table.rows ++ [⟨table.nextId, .collection, limebarState⟩]
  nextId := table.nextId + 1
  nextIdPos := Int.lt_add_one_of_le (le_of_lt table.nextIdPos)
  ids := by
    intro row member
    rcases List.mem_append.mp member with old | isNew
    · have ids := table.ids row old
      exact ⟨ids.1, Int.lt_add_one_of_le (le_of_lt ids.2)⟩
    · rcases List.mem_singleton.mp isNew with rfl
      exact ⟨table.nextIdPos, Int.lt_add_one_of_le le_rfl⟩
  pkey := Sql.nodup_key_append table.pkey
    (Sql.next_not_mem fun row member => (table.ids row member).2)

/-- `dbms_insert_collection`; `resource_id` is the primary key. -/
def dbmsInsertCollection (rows : List CollectionRow) (serialno : Id)
    (avNewChildren : Int) : Except DavError (List CollectionRow) :=
  if serialno ∈ rows.map CollectionRow.resourceId then
    .error ⟨httpInternalServerError,
      "DBMS error during insert to 'collections'"⟩
  else .ok (rows ++ [⟨serialno, avNewChildren⟩])

/-- The column `name` is a `varchar(767)`. -/
def maxNameLength : Nat := 767

/-- `dbms_insert_bind`; both ids are foreign keys. -/
def dbmsInsertBind (resources : ResourceTable) (binds : BindSequence)
    (updatedAt : Text) (resourceId collectionId : Id) (bindname : Text) :
    Except DavError BindSequence :=
  if fits : (collectionId, bindname) ∉ binds.rows.map Bind.key ∧
      resourceId ∈ resources.rows.map ResourceRow.id ∧
      collectionId ∈ resources.rows.map ResourceRow.id ∧
      bindname.length ≤ maxNameLength then
    .ok
      { rows := binds.rows ++
          [⟨binds.nextId, bindname, collectionId, resourceId, some updatedAt⟩]
        nextId := binds.nextId + 1
        nextIdPos := Int.lt_add_one_of_le (le_of_lt binds.nextIdPos)
        ids := by
          intro bind member
          rcases List.mem_append.mp member with old | isNew
          · exact Int.lt_add_one_of_le (le_of_lt (binds.ids bind old))
          · rcases List.mem_singleton.mp isNew with rfl
            exact Int.lt_add_one_of_le le_rfl
        pkey := Sql.nodup_key_append binds.pkey (Sql.next_not_mem binds.ids)
        collectionIdKey := by
          apply Sql.nodup_key_append binds.collectionIdKey
          exact fits.1
        positive := by
          intro bind member
          rcases List.mem_append.mp member with old | isNew
          · exact binds.positive bind old
          · rcases List.mem_singleton.mp isNew with rfl
            rcases List.mem_map.mp fits.2.1 with ⟨row, listed, same⟩
            refine ⟨binds.nextIdPos, ?_⟩
            have ids := (resources.ids row listed).1
            rwa [same] at ids }
  else
    .error ⟨httpInternalServerError, "Could not insert into binds table."⟩

/-- The `parent` of a resource whose `uri` is NULL. -/
def loadParent (store : CollectionStore) (r : NewCollRes) :
    Option ParentDbr :=
  match r.parent with
  | some parent => some parent
  | none =>
      if 0 < r.parentId then
        some
          { limebarState := limebarState store r.parentId
            avNewChildren := dbmsGetCollectionProps store r.parentId }
      else none

/-- `dav_repos_inherit_aces` for a resource whose `uri` is NULL. -/
def davReposInheritAces (aclInheritance : AclTable) (r : NewCollRes) :
    Except DavError AclTable :=
  if r.parentId = 0 then
    .error ⟨httpInternalServerError,
      "Could not get parent id for ACL Inheritance"⟩
  else dbmsInheritParentAces aclInheritance r.serialno r.parentId

/--
`sabridge_insert_resource` for a collection whose bind is delayed.  The ACE
for the owner is left out.
-/
def sabridgeInsertResource (store : CollectionStore) (r : NewCollRes) :
    Except Stop (CollectionStore × NewCollRes) :=
  match loadParent store r with
  | none => .error .nullDereference
  | some parent => do
      let r := { r with
        parent := some parent
        limebarState := parent.limebarState
        serialno := store.resources.nextId
        avNewChildren := parent.avNewChildren }
      let collections ← (dbmsInsertCollection store.collections r.serialno
        r.avNewChildren).mapError Stop.davError
      let aclInheritance ←
        (davReposInheritAces store.aclInheritance r).mapError Stop.davError
      pure
        ({ resources := dbmsInsertResource store.resources r.limebarState
           collections := collections
           binds := store.binds
           aclInheritance := aclInheritance }, r)

/-- The part of the loop that makes a collection. -/
def mkcolLevel (updatedAt : Text) (store : CollectionStore) (r : NewCollRes)
    (currBase : Id) (nextDir : Text) :
    Except Stop (CollectionStore × NewCollRes) := do
  let (made, r) ← sabridgeInsertResource store
    { r with serialno := 0, parentId := currBase }
  let binds ← (dbmsInsertBind made.resources made.binds updatedAt r.serialno
    currBase nextDir).mapError Stop.davError
  pure ({ made with binds := binds }, r)

/-- The loop over the segments of the path. -/
def mkcolLoop (updatedAt : Text) (store : CollectionStore) (r : NewCollRes)
    (currBase newCollId : Id) (searchIfCollExists : Bool) :
    List Text → Except Stop (CollectionStore × Id)
  | [] => .ok (store, newCollId)
  | nextDir :: path =>
      let found :=
        if searchIfCollExists then
          dbmsGetBindResourceId store.binds.rows currBase nextDir
        else 0
      if found ≠ 0 then mkcolLoop updatedAt store r found found true path
      else do
        let (made, r) ← mkcolLevel updatedAt store r currBase nextDir
        mkcolLoop updatedAt made r r.serialno r.serialno false path

/--
`sabridge_mkcol_w_parents`: the tables and the `serialno`.  `new_coll_id`
begins with whatever its memory holds.
-/
def sabridgeMkcolWParents (updatedAt : Text) (newCollId : Id)
    (store : CollectionStore) (rootPath uri : Text) :
    Except Stop (CollectionStore × Id) :=
  mkcolLoop updatedAt store newDbr rootCollectionId newCollId true
    (Segments.tokens '/' (uri.drop rootPath.length))

end Limestone.BridgeMkcol
