import Limestone.DbmsCollection
import Limestone.Library.LastSeen
import Limestone.Library.Loop

/-!
# Binds that are removed: `sabridge_unbind_resource`

Without garbage collection a resource is deleted when its last way from the
root is.  A list of resources is worked through: each is deleted if the search
for a path from the root fails, and its members are put at the end of the list
if it has been a collection and is deleted.

Media, quotas, bodies and bookkeeping columns are left out; the database
executes every statement.
-/

namespace Limestone.BridgeUnbind

open Library
open DbmsBind
open DbmsCollection

/-! ## Tables -/

/-- The tables of the bind graph and of the version histories. -/
structure GraphStore where
  /-- `id` and `type` of the rows of `resources`. -/
  resources : List (Id × ResourceType)
  binds : BindTable
  vhrs : List Vhr
  versions : List Version
  vcrs : List Vcr
  resourcesPkey : (resources.map Prod.fst).Nodup
  fkBindCollection : ∀ bind ∈ binds.rows,
    bind.collectionId ∈ resources.map Prod.fst
  fkBindResource : ∀ bind ∈ binds.rows,
    bind.resourceId ∈ resources.map Prod.fst

/-- The ids of the resources. -/
def GraphStore.ids (store : GraphStore) : List Id :=
  store.resources.map Prod.fst

/-- The orders in which queries return their rows. -/
structure RowOrders where
  parents : Sql.RowOrder Bind
  children : Sql.RowOrder (Bind × Id × ResourceType)

/-! ## Members -/

/--
`dbms_get_collection_resource` for one collection, without a privilege.  The
columns of its other joins are left out.
-/
def dbmsGetCollectionResource (orders : RowOrders) (store : GraphStore)
    (dbR : DavReposResource) : List DavReposResource :=
  let listed := listedCollections [dbR]
  let rows := orders.children.arrange 0
    ((Sql.crossJoin (store.binds.rows.filter fun bind =>
        decide (bind.collectionId ∈ listed.map DavReposResource.serialno))
      store.resources).filter fun pair => pair.2.1 == pair.1.resourceId)
  rows.map fun pair =>
    { serialno := pair.2.1
      resourcetype := pair.2.2
      uri :=
        match dbR.uri with
        | none => some ('/' :: pair.1.name)
        | some uri =>
            if uri = ['/'] then some ('/' :: pair.1.name)
            else some (uri ++ '/' :: pair.1.name)
      parentId := pair.1.collectionId
      bindId := pair.1.id
      hasBind := false }

/-- `sabridge_get_collection_children` with depth one. -/
def sabridgeGetCollectionChildren (orders : RowOrders) (store : GraphStore)
    (dbR : DavReposResource) : List DavReposResource :=
  ((LastSeen.mark DavReposResource.serialno some [(dbR.serialno, none)] 0
      (dbmsGetCollectionResource orders store dbR)).1).map fun entry =>
    { entry.1 with hasBind := entry.2.isSome }

/-! ## Deleting -/

/-- Another resource is left when one is deleted. -/
theorem mem_ids_filter
    {resources : List (Id × ResourceType)} {id serialno : Id}
    (member : id ∈ resources.map Prod.fst) (other : id ≠ serialno) :
    id ∈ (resources.filter fun row => row.1 != serialno).map Prod.fst := by
  rcases List.mem_map.mp member with ⟨row, listed, rfl⟩
  exact List.mem_map_of_mem
    (List.mem_filter.mpr ⟨listed, bne_iff_ne.mpr other⟩)

/-- `DELETE FROM resources`, with the foreign keys that cascade. -/
def dbmsDeleteResource (store : GraphStore) (serialno : Id) : GraphStore :=
  let vhrs := store.vhrs.filter fun vhr =>
    vhr.resourceId != serialno && vhr.rootVersionId != serialno
  let vhrIds := vhrs.map Vhr.resourceId
  { resources := store.resources.filter fun row => row.1 != serialno
    binds := store.binds.keep fun bind =>
      bind.collectionId != serialno && bind.resourceId != serialno
    vhrs := vhrs
    versions := store.versions.filter fun version =>
      version.resourceId != serialno && decide (version.vhrId ∈ vhrIds)
    vcrs := store.vcrs.filter fun vcr =>
      vcr.resourceId != serialno && vcr.checkedId != serialno &&
        decide (vcr.vhrId ∈ vhrIds)
    resourcesPkey :=
      store.resourcesPkey.sublist (List.filter_sublist.map Prod.fst)
    fkBindCollection := by
      intro bind member
      rcases List.mem_filter.mp member with ⟨listed, kept⟩
      rw [Bool.and_eq_true, bne_iff_ne, bne_iff_ne] at kept
      exact mem_ids_filter (store.fkBindCollection bind listed) kept.1
    fkBindResource := by
      intro bind member
      rcases List.mem_filter.mp member with ⟨listed, kept⟩
      rw [Bool.and_eq_true, bne_iff_ne, bne_iff_ne] at kept
      exact mem_ids_filter (store.fkBindResource bind listed) kept.2 }

/-- The type of a resource that is no longer under version control. -/
def unversioned : ResourceType → ResourceType
  | .versioned => .resource
  | .versionedCollection => .collection
  | resourcetype => resourcetype

/-- The version-controlled resources of a version history. -/
def vcrIds (store : GraphStore) (vhrId : Id) : List Id :=
  (store.vcrs.filter fun vcr => vcr.vhrId == vhrId).map Vcr.resourceId

/-- The row of a resource that leaves a version history. -/
def unversionedRow (store : GraphStore) (vhrId : Id)
    (row : Id × ResourceType) : Id × ResourceType :=
  if row.1 ∈ vcrIds store vhrId then (row.1, unversioned row.2) else row

theorem map_fst_unversionedRow (store : GraphStore) (vhrId : Id) :
    (store.resources.map (unversionedRow store vhrId)).map Prod.fst =
      store.resources.map Prod.fst := by
  rw [List.map_map]
  apply List.map_congr_left
  intro row _
  rw [Function.comp_apply, unversionedRow]
  split
  · rfl
  · rfl

/-- `dbms_unversion_vhr_vcrs`. -/
def dbmsUnversionVhrVcrs (store : GraphStore) (vhrId : Id) : GraphStore :=
  { store with
    resources := store.resources.map (unversionedRow store vhrId)
    resourcesPkey := by
      rw [map_fst_unversionedRow]
      exact store.resourcesPkey
    fkBindCollection := by
      rw [map_fst_unversionedRow]
      exact store.fkBindCollection
    fkBindResource := by
      rw [map_fst_unversionedRow]
      exact store.fkBindResource }

/-- The ids of `dbms_get_vhr_versions`, in the order of the numbers. -/
def dbmsGetVhrVersions (store : GraphStore) (vhrId : Id) : List Id :=
  (((store.versions.filter fun version => version.vhrId == vhrId).filter
      fun version => decide (version.resourceId ∈
        store.resources.map Prod.fst)).insertionSort fun first second =>
          first.number ≤ second.number).map Version.resourceId

/--
`sabridge_remove_vhr`.  Before a collection version is deleted its members are
to be cleared, but of a collection version none are listed.  Without a version
`dbms_get_vhr_versions` tests a pointer that it has never set: `none`.
-/
def sabridgeRemoveVhr (store : GraphStore) (vhrId : Id) :
    Option GraphStore :=
  let unversioned := dbmsUnversionVhrVcrs store vhrId
  match dbmsGetVhrVersions unversioned vhrId with
  | [] => none
  | versions => some (versions.foldl dbmsDeleteResource unversioned)

/-- `sabridge_delete_resource`. -/
def sabridgeDeleteResource (store : GraphStore) (dbR : DavReposResource) :
    Option GraphStore :=
  let removed :=
    if dbR.resourcetype = .versionHistory then
      sabridgeRemoveVhr store dbR.serialno
    else some store
  removed.map fun store => dbmsDeleteResource store dbR.serialno

/-- `dbms_find_shortest_path` from the root, with the rounds it can make. -/
def pathFromRoot (orders : RowOrders) (store : GraphStore) (serialno : Id) :
    Option Text :=
  (dbmsFindShortestPath (store.binds.rows.length + 1) orders.parents
    store.binds.rows rootCollectionId serialno).join

/-- `sabridge_delete_if_orphaned`: the tables and `deleted`. -/
def sabridgeDeleteIfOrphaned (orders : RowOrders) (store : GraphStore)
    (dbR : DavReposResource) : Option (GraphStore × Bool) :=
  match pathFromRoot orders store dbR.serialno with
  | some _ => some (store, false)
  | none =>
      (sabridgeDeleteResource store dbR).map fun store => (store, true)

/-- `dbms_delete_bind` for a resource with a URI. -/
def deleteBindOf (store : GraphStore) (dbR : DavReposResource) : GraphStore :=
  match dbR.uri with
  | none => store
  | some uri =>
      { store with
        binds := store.binds.keep fun bind =>
          !(bind.collectionId == dbR.parentId &&
            bind.resourceId == dbR.serialno && bind.name == basename uri)
        fkBindCollection := fun bind member =>
          store.fkBindCollection bind (List.mem_of_mem_filter member)
        fkBindResource := fun bind member =>
          store.fkBindResource bind (List.mem_of_mem_filter member) }

/--
The loop of `sabridge_unbind_resource`: the tables and the list.  It is left
with `none` where what happens is undefined.
-/
def unbindRound (orders : RowOrders) :
    GraphStore × List DavReposResource →
      Option GraphStore ⊕ (GraphStore × List DavReposResource)
  | (store, []) => .inl (some store)
  | (store, iter :: next) =>
      if iter.hasBind then .inr (store, next)
      else
        let children :=
          if iter.resourcetype.isCollection then
            sabridgeGetCollectionChildren orders store iter
          else []
        match sabridgeDeleteIfOrphaned orders (deleteBindOf store iter) iter
        with
        | none => .inl none
        | some (store, deleted) =>
            .inr (store, if deleted then next ++ children else next)

/--
`sabridge_unbind_resource` for a resource whose `parent_id` is known or that
has no URI, without garbage collection; `none` while the loop is running, and
where what happens is undefined.
-/
def sabridgeUnbindResource (fuel : Nat) (orders : RowOrders)
    (store : GraphStore) (dbR : DavReposResource) : Option GraphStore :=
  (Loop.run (unbindRound orders) fuel (store, [dbR])).join

/-- The loop of `sabridge_coll_clear_children`. -/
def clearChildren (fuel : Nat) (orders : RowOrders) :
    GraphStore → List DavReposResource → Option GraphStore
  | store, [] => some store
  | store, iter :: next =>
      if iter.hasBind then clearChildren fuel orders (deleteBindOf store iter) next
      else
        (sabridgeUnbindResource fuel orders store iter).bind fun store =>
          clearChildren fuel orders store next

/-- `sabridge_coll_clear_children`. -/
def sabridgeCollClearChildren (fuel : Nat) (orders : RowOrders)
    (store : GraphStore) (coll : DavReposResource) : Option GraphStore :=
  clearChildren fuel orders store
    (sabridgeGetCollectionChildren orders store coll)

end Limestone.BridgeUnbind
