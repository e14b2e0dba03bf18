import Limestone.IndirectLocks
import Limestone.UnbindCollects

/-!
# What unbinding leaves, version histories included

A version history that is no longer reached takes its versions along, also
those that are reached.  The versions are read before the first of them is
deleted, since with the root version the rows of the history and of all its
versions go.  A history that is listed for two collections would be removed a
second time, when no version can be read.
-/

namespace Limestone.UnbindHistories

open Library
open DbmsBind
open DbmsCollection
open PathSearch
open BridgeUnbind
open UnbindCollects

/-! ## The request -/

/--
`sabridge_unbind_resource`, with the parent that is retrieved when its id is not
known; URIs begin with the root path.
-/
def unbindResource (fuel : Nat) (orders : RowOrders) (rootPath : Text)
    (store : GraphStore) (dbR : DavReposResource) : Option GraphStore :=
  match dbR.uri with
  | none => sabridgeUnbindResource fuel orders store dbR
  | some uri =>
      sabridgeUnbindResource fuel orders store
        { dbR with
          parentId :=
            if dbR.parentId = 0 then
              IndirectLocks.parentSerialno store.binds.rows
                (uri.drop rootPath.length)
            else dbR.parentId }

/-- The record of the resource of a bind, with a URI that ends in its name. -/
structure Addresses (store : GraphStore) (rootPath : Text)
    (dbR : DavReposResource) (bind : Bind) : Prop where
  row : (dbR.serialno, dbR.resourcetype) ∈ store.resources
  unmarked : dbR.hasBind = false
  serialno : dbR.serialno = bind.resourceId
  uri : ∃ uri, dbR.uri = some uri ∧ basename uri = bind.name ∧
    (dbR.parentId = bind.collectionId ∧ dbR.parentId ≠ 0 ∨
      dbR.parentId = 0 ∧ IndirectLocks.parentSerialno store.binds.rows
        (uri.drop rootPath.length) = bind.collectionId)

/-! ## Tables -/

/-- The keys of the tables of versions, and the types of their resources. -/
structure Consistent (store : GraphStore) : Prop where
  versionsResource : (store.versions.map Version.resourceId).Nodup
  fkVersionVhr : ∀ version ∈ store.versions, ∃ vhr ∈ store.vhrs,
    vhr.resourceId = version.vhrId
  fkVhrRootVersion : ∀ vhr ∈ store.vhrs, ∃ version ∈ store.versions,
    version.resourceId = vhr.rootVersionId ∧ version.vhrId = vhr.resourceId
  fkVersionResource : ∀ version ∈ store.versions,
    version.resourceId ∈ store.ids
  fkVhrResource : ∀ vhr ∈ store.vhrs, vhr.resourceId ∈ store.ids
  versionType : ∀ version ∈ store.versions, ∀ row ∈ store.resources,
    row.1 = version.resourceId →
      row.2 = .version ∨ row.2 = .collectionVersion
  vhrType : ∀ vhr ∈ store.vhrs, ∀ row ∈ store.resources,
    row.1 = vhr.resourceId → row.2 = .versionHistory

/-- A version of a history that is not left. -/
def Taken (before : GraphStore) (kept : Bind → Prop) (id : Id) : Prop :=
  ∃ version ∈ before.versions, version.resourceId = id ∧
    ¬ Left before kept version.vhrId

/--
Of the resources that are not left, histories have only their own versions for
members, and others with members are collections that are listed.  Versions of
these histories have no members, and the root version is a member of no other
resource that is not left.  Each of these histories has versions, and is a
member of one resource that is not left at most.
-/
structure Tidy (before : GraphStore) (kept : Bind → Prop) : Prop where
  members : ∀ bind ∈ before.binds.rows, ∀ row ∈ before.resources,
    row.1 = bind.collectionId → Left before kept row.1 ∨
      row.2.isCollection = true ∨
      ∃ version ∈ before.versions, version.resourceId = bind.resourceId ∧
        version.vhrId = row.1
  childless : ∀ bind ∈ before.binds.rows,
    ¬ Taken before kept bind.collectionId
  rootVersions : ∀ vhr ∈ before.vhrs, ¬ Left before kept vhr.resourceId →
    ∀ bind ∈ before.binds.rows, bind.resourceId = vhr.rootVersionId →
      Left before kept bind.collectionId ∨
        bind.collectionId = vhr.resourceId
  vhrs : ∀ row ∈ before.resources, row.2 = .versionHistory →
    Left before kept row.1 ∨ ∃ vhr ∈ before.vhrs, vhr.resourceId = row.1
  once : ∀ vhr ∈ before.vhrs, ¬ Left before kept vhr.resourceId →
    ∀ bind ∈ before.binds.rows, ∀ other ∈ before.binds.rows,
      bind.resourceId = vhr.resourceId → other.resourceId = vhr.resourceId →
        ¬ Left before kept bind.collectionId →
        ¬ Left before kept other.collectionId →
          bind.collectionId = other.collectionId

/--
What is left but the versions of histories that are not, and the binds between
these resources.
-/
structure Leaves (before : GraphStore) (kept : Bind → Prop)
    (after : GraphStore) : Prop where
  ids : ∀ id, id ∈ after.ids ↔
    id ∈ before.ids ∧ Left before kept id ∧ ¬ Taken before kept id
  binds : ∀ bind, bind ∈ after.binds.rows ↔
    bind ∈ before.binds.rows ∧ kept bind ∧
      bind.collectionId ∈ after.ids ∧ bind.resourceId ∈ after.ids

/-! ## Several resources are deleted -/

section Deleting

variable {store : GraphStore} {serialno id : Id} {gone : List Id}

/-- Resources that are deleted one after the other. -/
def deleteAll (store : GraphStore) (gone : List Id) : GraphStore :=
  gone.foldl dbmsDeleteResource store

theorem mem_ids_deleteAll :
    id ∈ (deleteAll store gone).ids ↔ id ∈ store.ids ∧ id ∉ gone := by
  induction gone generalizing store with
  | nil =>
      show id ∈ store.ids ↔ _
      rw [and_iff_left List.not_mem_nil]
  | cons serialno gone induction =>
      show id ∈ (deleteAll (dbmsDeleteResource store serialno) gone).ids ↔ _
      rw [induction, mem_ids_dbmsDeleteResource, and_assoc, List.mem_cons,
        not_or]

theorem mem_resources_deleteAll
    {row : Id × ResourceType}
    (member : row ∈ (deleteAll store gone).resources) :
    row ∈ store.resources := by
  induction gone generalizing store with
  | nil => exact member
  | cons serialno gone induction =>
      exact List.mem_of_mem_filter (induction member)

theorem mem_binds_deleteAll
    {bind : Bind} :
    bind ∈ (deleteAll store gone).binds.rows ↔
      bind ∈ store.binds.rows ∧ bind.collectionId ∉ gone ∧
        bind.resourceId ∉ gone := by
  induction gone generalizing store with
  | nil =>
      show bind ∈ store.binds.rows ↔ _
      rw [and_iff_left List.not_mem_nil, and_iff_left List.not_mem_nil]
  | cons serialno gone induction =>
      show bind ∈ (deleteAll (dbmsDeleteResource store serialno)
        gone).binds.rows ↔ _
      rw [induction, List.mem_cons, List.mem_cons, not_or, not_or]
      show bind ∈ store.binds.rows.filter _ ∧ _ ↔ _
      rw [List.mem_filter, Bool.and_eq_true, bne_iff_ne, bne_iff_ne]
      constructor
      · rintro ⟨⟨bound, source, target⟩, sources, targets⟩
        exact ⟨bound, ⟨source, sources⟩, target, targets⟩
      · rintro ⟨bound, ⟨source, sources⟩, target, targets⟩
        exact ⟨⟨bound, source, target⟩, sources, targets⟩

theorem mem_vhrs_deleteAll
    {vhr : Vhr} (listed : vhr ∈ store.vhrs)
    (history : vhr.resourceId ∉ gone)
    (rootVersion : vhr.rootVersionId ∉ gone) :
    vhr ∈ (deleteAll store gone).vhrs := by
  induction gone generalizing store with
  | nil => exact listed
  | cons serialno gone induction =>
      rw [List.mem_cons, not_or] at history rootVersion
      apply induction _ history.2 rootVersion.2
      apply List.mem_filter.mpr
      refine ⟨listed, ?_⟩
      rw [Bool.and_eq_true, bne_iff_ne, bne_iff_ne]
      exact ⟨history.1, rootVersion.1⟩

/-- The row of a version stays with those of its history. -/
theorem mem_versions_deleteAll
    {version : Version} {vhr : Vhr}
    (listed : version ∈ store.versions) (vhrListed : vhr ∈ store.vhrs)
    (same : vhr.resourceId = version.vhrId)
    (kept : version.resourceId ∉ gone)
    (history : vhr.resourceId ∉ gone)
    (rootVersion : vhr.rootVersionId ∉ gone) :
    version ∈ (deleteAll store gone).versions := by
  induction gone generalizing store with
  | nil => exact listed
  | cons serialno gone induction =>
      rw [List.mem_cons, not_or] at kept history rootVersion
      have vhrStays : vhr ∈ (dbmsDeleteResource store serialno).vhrs := by
        apply List.mem_filter.mpr
        refine ⟨vhrListed, ?_⟩
        rw [Bool.and_eq_true, bne_iff_ne, bne_iff_ne]
        exact ⟨history.1, rootVersion.1⟩
      apply induction _ vhrStays kept.2 history.2 rootVersion.2
      apply List.mem_filter.mpr
      refine ⟨listed, ?_⟩
      rw [Bool.and_eq_true, bne_iff_ne, decide_eq_true_eq, ← same]
      exact ⟨kept.1, List.mem_map_of_mem vhrStays⟩

theorem versions_deleteAll_subset
    {version : Version}
    (member : version ∈ (deleteAll store gone).versions) :
    version ∈ store.versions := by
  induction gone generalizing store with
  | nil => exact member
  | cons serialno gone induction =>
      exact List.mem_of_mem_filter (induction member)

/-- What is deleted with a resource: a history goes after its versions. -/
def deletedWith (store : GraphStore) (dbR : DavReposResource) : List Id :=
  if dbR.resourcetype = .versionHistory then
    dbmsGetVhrVersions (dbmsUnversionVhrVcrs store dbR.serialno)
      dbR.serialno ++ [dbR.serialno]
  else [dbR.serialno]

/-- The tables before the first resource is deleted. -/
def unversionedFor (store : GraphStore) (dbR : DavReposResource) :
    GraphStore :=
  if dbR.resourcetype = .versionHistory then
    dbmsUnversionVhrVcrs store dbR.serialno
  else store

/-- The tables after a resource has been deleted. -/
def afterDelete (store : GraphStore) (dbR : DavReposResource) : GraphStore :=
  deleteAll (unversionedFor store dbR) (deletedWith store dbR)

/-- A history without versions. -/
def ReadsNone (store : GraphStore) (dbR : DavReposResource) : Prop :=
  dbR.resourcetype = .versionHistory ∧
    dbmsGetVhrVersions (dbmsUnversionVhrVcrs store dbR.serialno)
      dbR.serialno = []

theorem sabridgeDeleteResource_eq
    {dbR : DavReposResource} (reads : ¬ ReadsNone store dbR) :
    sabridgeDeleteResource store dbR = some (afterDelete store dbR) := by
  unfold sabridgeDeleteResource afterDelete deletedWith unversionedFor
  split
  next history =>
      unfold sabridgeRemoveVhr
      simp only
      split
      next none => exact absurd ⟨history, none⟩ reads
      next =>
          rw [deleteAll, List.foldl_append]
          rfl
  next => rfl

theorem sabridgeDeleteResource_eq_none
    {dbR : DavReposResource} (reads : ReadsNone store dbR) :
    sabridgeDeleteResource store dbR = none := by
  unfold sabridgeDeleteResource sabridgeRemoveVhr
  simp only
  rw [if_pos reads.1, reads.2]
  rfl

end Deleting

/-! ## What holds while the list is worked through -/

/-- The type of a resource, or what is made of it without its history. -/
def TypedAs (before : GraphStore) (row : Id × ResourceType) : Prop :=
  ∃ resourcetype, (row.1, resourcetype) ∈ before.resources ∧
    (row.2 = resourcetype ∨ row.2 = unversioned resourcetype)

/--
Nothing is gone that is to be left.  A history that is not left is there with
the rows of all its versions that are there, or they have gone with it.
-/
structure Holding (before : GraphStore) (kept : Bind → Prop)
    (store : GraphStore) : Prop where
  typed : ∀ row ∈ store.resources, TypedAs before row
  stays : ∀ id ∈ before.ids, Left before kept id → ¬ Taken before kept id →
    id ∈ store.ids
  binds : ∀ bind, bind ∈ store.binds.rows ↔
    bind ∈ before.binds.rows ∧ kept bind ∧
      bind.collectionId ∈ store.ids ∧ bind.resourceId ∈ store.ids
  versions : ∀ version ∈ store.versions, version ∈ before.versions
  versionRows : ∀ version ∈ before.versions,
    ¬ Left before kept version.vhrId → version.vhrId ∈ store.ids →
      version.resourceId ∈ store.ids → version ∈ store.versions
  vhrRows : ∀ vhr ∈ before.vhrs, ¬ Left before kept vhr.resourceId →
    vhr.resourceId ∈ store.ids → vhr ∈ store.vhrs
  together : ∀ version ∈ before.versions,
    ¬ Left before kept version.vhrId → version.vhrId ∈ store.ids ∨
      version.resourceId ∉ store.ids
  rootRows : ∀ vhr ∈ before.vhrs, ¬ Left before kept vhr.resourceId →
    vhr.resourceId ∈ store.ids → vhr.rootVersionId ∈ store.ids

/-- An item is no root version of a history that is not left. -/
structure Item (before : GraphStore) (kept : Bind → Prop)
    (iter : DavReposResource) : Prop where
  typed : TypedAs before (iter.serialno, iter.resourcetype)
  notRoot : ∀ vhr ∈ before.vhrs, ¬ Left before kept vhr.resourceId →
    vhr.rootVersionId ≠ iter.serialno

section Holding

variable {before store : GraphStore} {kept : Bind → Prop}
  {iter : DavReposResource} {id : Id} {gone : List Id}

theorem isCollection_unversioned (resourcetype : ResourceType) :
    (unversioned resourcetype).isCollection = resourcetype.isCollection := by
  cases resourcetype with
  | _ => rfl

theorem unversioned_eq_versionHistory {resourcetype : ResourceType} :
    unversioned resourcetype = .versionHistory ↔
      resourcetype = .versionHistory := by
  cases resourcetype with
  | _ => decide

/-- Two rows of one resource are the same. -/
theorem row_unique
    {resourcetype other : ResourceType}
    (listed : (id, resourcetype) ∈ before.resources)
    (otherListed : (id, other) ∈ before.resources) :
    resourcetype = other :=
  (Prod.mk.inj (List.inj_on_of_nodup_map before.resourcesPkey listed
    otherListed rfl)).2

theorem TypedAs.known
    {row : Id × ResourceType} (typed : TypedAs before row) :
    row.1 ∈ before.ids := by
  rcases typed with ⟨resourcetype, listed, -⟩
  exact List.mem_map.mpr ⟨_, listed, rfl⟩

/-- Whether a resource is a history does not change. -/
theorem TypedAs.versionHistory
    {row : Id × ResourceType} {resourcetype : ResourceType}
    (typed : TypedAs before row)
    (listed : (row.1, resourcetype) ∈ before.resources) :
    row.2 = .versionHistory ↔ resourcetype = .versionHistory := by
  rcases typed with ⟨other, otherListed, same | same⟩
  · rw [same, row_unique otherListed listed]
  · rw [same, row_unique otherListed listed, unversioned_eq_versionHistory]

/-- Whether a resource is listed as a collection does not change. -/
theorem TypedAs.isCollection
    {row : Id × ResourceType} {resourcetype : ResourceType}
    (typed : TypedAs before row)
    (listed : (row.1, resourcetype) ∈ before.resources) :
    row.2.isCollection = resourcetype.isCollection := by
  rcases typed with ⟨other, otherListed, same | same⟩
  · rw [same, row_unique otherListed listed]
  · rw [same, row_unique otherListed listed, isCollection_unversioned]

/-- A version is no history. -/
theorem Consistent.version_ne_vhr
    (consistent : Consistent before)
    {version : Version} {vhr : Vhr}
    (listed : version ∈ before.versions)
    (vhrListed : vhr ∈ before.vhrs) :
    version.resourceId ≠ vhr.resourceId := by
  intro same
  rcases List.mem_map.mp (consistent.fkVersionResource version listed) with
    ⟨row, rowListed, rowId⟩
  have history := consistent.vhrType vhr vhrListed row rowListed
    (rowId.trans same)
  rcases consistent.versionType version listed row rowListed rowId with
    plain | collection
  · rw [history] at plain
    cases plain
  · rw [history] at collection
    cases collection

/-- A version that is taken is no history of another one. -/
theorem Consistent.vhrId_ne
    (consistent : Consistent before)
    {version other : Version}
    (listed : version ∈ before.versions)
    (otherListed : other ∈ before.versions) :
    version.vhrId ≠ other.resourceId := by
  intro same
  rcases consistent.fkVersionVhr version listed with ⟨vhr, vhrListed, vhrId⟩
  exact consistent.version_ne_vhr otherListed vhrListed
    (same.symm.trans vhrId.symm)

theorem Holding.known
    (holding : Holding before kept store)
    (present : id ∈ store.ids) : id ∈ before.ids := by
  rcases List.mem_map.mp present with ⟨row, listed, rfl⟩
  exact (holding.typed row listed).known

/-- What has members that are left is no version that is taken. -/
theorem Holding.reaches
    (holding : Holding before kept store)
    (tidy : Tidy before kept) (notTaken : ¬ Taken before kept id)
    (left : Left before kept id) :
    (bindGraph store.binds.rows).Reaches rootCollectionId id := by
  have closed : Left before kept id ∧ (¬ Taken before kept id →
      (bindGraph store.binds.rows).Reaches rootCollectionId id) := by
    apply left.mem_of_closed (S := fun id => Left before kept id ∧
      (¬ Taken before kept id →
        (bindGraph store.binds.rows).Reaches rootCollectionId id))
    · exact ⟨Multigraph.Reaches.refl _ _,
        fun _ => Multigraph.Reaches.refl _ _⟩
    · rintro bind ⟨bound, keeps⟩ ⟨source, reached⟩
      have target : Left before kept bind.resourceId :=
        source.tail bound keeps
      refine ⟨target, fun targetStays => ?_⟩
      have sourceStays := tidy.childless bind bound
      have present : bind ∈ store.binds.rows :=
        (holding.binds bind).mpr ⟨bound, keeps,
          holding.stays _ (before.fkBindCollection bind bound) source
            sourceStays,
          holding.stays _ (before.fkBindResource bind bound) target
            targetStays⟩
      exact Multigraph.Reaches.tail (G := bindGraph store.binds.rows)
        (reached sourceStays) present
  exact closed.2 notTaken

theorem Holding.left
    (holding : Holding before kept store)
    (reached : (bindGraph store.binds.rows).Reaches rootCollectionId id) :
    Left before kept id := by
  apply reached.transfer
  · intro bind present
    have bound := (holding.binds bind).mp present
    exact ⟨bound.1, bound.2.1⟩
  · rfl
  · rfl

/-- The resources that may be deleted at once. -/
structure Deletable (before : GraphStore) (kept : Bind → Prop)
    (store : GraphStore) (gone : List Id) : Prop where
  lost : ∀ id ∈ gone, Left before kept id → Taken before kept id
  roots : ∀ vhr ∈ before.vhrs, ¬ Left before kept vhr.resourceId →
    vhr.rootVersionId ∈ gone → vhr.resourceId ∈ gone
  whole : ∀ version ∈ before.versions, ¬ Left before kept version.vhrId →
    version.vhrId ∈ gone →
      version.resourceId ∉ store.ids ∨ version.resourceId ∈ gone

theorem Holding.delete
    (holding : Holding before kept store)
    (consistent : Consistent before)
    (deletable : Deletable before kept store gone) :
    Holding before kept (deleteAll store gone) where
  typed := fun row member => holding.typed row (mem_resources_deleteAll member)
  stays := by
    intro id known left notTaken
    rw [mem_ids_deleteAll]
    refine ⟨holding.stays id known left notTaken, ?_⟩
    intro deleted
    exact notTaken (deletable.lost id deleted left)
  binds := by
    intro bind
    rw [mem_binds_deleteAll, holding.binds, mem_ids_deleteAll,
      mem_ids_deleteAll]
    constructor
    · rintro ⟨⟨bound, keeps, source, target⟩, otherSource, otherTarget⟩
      exact ⟨bound, keeps, ⟨source, otherSource⟩, target, otherTarget⟩
    · rintro ⟨bound, keeps, ⟨source, otherSource⟩, target, otherTarget⟩
      exact ⟨⟨bound, keeps, source, target⟩, otherSource, otherTarget⟩
  versions := fun version member =>
    holding.versions version (versions_deleteAll_subset member)
  versionRows := by
    intro version listed unreached history present
    rw [mem_ids_deleteAll] at history present
    rcases consistent.fkVersionVhr version listed with ⟨vhr, vhrListed, same⟩
    rw [← same] at unreached history
    have row := holding.vhrRows vhr vhrListed unreached history.1
    apply mem_versions_deleteAll _ row same present.2 history.2
    · intro rootGone
      exact history.2 (deletable.roots vhr vhrListed unreached rootGone)
    · rw [same] at unreached history
      exact holding.versionRows version listed unreached history.1 present.1
  vhrRows := by
    intro vhr listed unreached history
    rw [mem_ids_deleteAll] at history
    apply mem_vhrs_deleteAll
      (holding.vhrRows vhr listed unreached history.1) history.2
    intro rootGone
    exact history.2 (deletable.roots vhr listed unreached rootGone)
  together := by
    intro version listed unreached
    rw [mem_ids_deleteAll, mem_ids_deleteAll]
    by_cases deleted : version.vhrId ∈ gone
    · right
      rintro ⟨present, stays⟩
      rcases deletable.whole version listed unreached deleted with
        absent | versionGone
      · exact absent present
      · exact stays versionGone
    · rcases holding.together version listed unreached with
        history | absent
      · exact Or.inl ⟨history, deleted⟩
      · exact Or.inr fun present => absent present.1
  rootRows := by
    intro vhr listed unreached history
    rw [mem_ids_deleteAll] at history ⊢
    refine ⟨holding.rootRows vhr listed unreached history.1, ?_⟩
    intro rootGone
    exact history.2 (deletable.roots vhr listed unreached rootGone)

theorem unversioned_unversioned (resourcetype : ResourceType) :
    unversioned (unversioned resourcetype) = unversioned resourcetype := by
  cases resourcetype with
  | _ => rfl

theorem TypedAs.unversion
    {row : Id × ResourceType} {vhrId : Id} (typed : TypedAs before row) :
    TypedAs before (unversionedRow store vhrId row) := by
  unfold unversionedRow
  split
  next =>
      rcases typed with ⟨resourcetype, listed, same | same⟩
      · exact ⟨resourcetype, listed, Or.inr (congrArg unversioned same)⟩
      · refine ⟨resourcetype, listed, Or.inr ?_⟩
        rw [same]
        exact unversioned_unversioned resourcetype
  next => exact typed

theorem ids_dbmsUnversionVhrVcrs (store : GraphStore) (vhrId : Id) :
    (dbmsUnversionVhrVcrs store vhrId).ids = store.ids :=
  map_fst_unversionedRow store vhrId

theorem ids_unversionedFor (store : GraphStore) (dbR : DavReposResource) :
    (unversionedFor store dbR).ids = store.ids := by
  unfold unversionedFor
  split
  next => exact ids_dbmsUnversionVhrVcrs store dbR.serialno
  next => rfl

theorem binds_unversionedFor (store : GraphStore) (dbR : DavReposResource) :
    (unversionedFor store dbR).binds = store.binds := by
  unfold unversionedFor
  split
  next => rfl
  next => rfl

/-- Types change, and nothing else, when resources leave their history. -/
theorem Holding.unversion
    (holding : Holding before kept store) (dbR : DavReposResource) :
    Holding before kept (unversionedFor store dbR) := by
  unfold unversionedFor
  split
  next =>
      have ids := ids_dbmsUnversionVhrVcrs store dbR.serialno
      constructor
      case typed =>
        intro row member
        rcases List.mem_map.mp member with ⟨old, listed, rfl⟩
        exact (holding.typed old listed).unversion
      case stays =>
        rw [ids]
        exact holding.stays
      case binds =>
        rw [ids]
        exact holding.binds
      case versions => exact holding.versions
      case versionRows =>
        rw [ids]
        exact holding.versionRows
      case vhrRows =>
        rw [ids]
        exact holding.vhrRows
      case together =>
        rw [ids]
        exact holding.together
      case rootRows =>
        rw [ids]
        exact holding.rootRows
  next => exact holding

/-- The versions of a history that are there. -/
theorem mem_dbmsGetVhrVersions
    {vhrId : Id} :
    id ∈ dbmsGetVhrVersions (dbmsUnversionVhrVcrs store vhrId) vhrId ↔
      ∃ version ∈ store.versions, version.vhrId = vhrId ∧
        version.resourceId ∈ store.ids ∧ version.resourceId = id := by
  have ids : (dbmsUnversionVhrVcrs store vhrId).resources.map Prod.fst =
      store.ids :=
    map_fst_unversionedRow store vhrId
  unfold dbmsGetVhrVersions
  rw [List.mem_map, ids]
  constructor
  · rintro ⟨version, sorted, same⟩
    rw [List.mem_insertionSort, List.mem_filter, List.mem_filter,
      beq_iff_eq, decide_eq_true_eq] at sorted
    exact ⟨version, sorted.1.1, sorted.1.2, sorted.2, same⟩
  · rintro ⟨version, listed, ofHistory, present, same⟩
    refine ⟨version, ?_, same⟩
    rw [List.mem_insertionSort, List.mem_filter, List.mem_filter,
      beq_iff_eq, decide_eq_true_eq]
    exact ⟨⟨listed, ofHistory⟩, present⟩

/-- No version is a history. -/
theorem Consistent.not_taken_vhr
    (consistent : Consistent before)
    (listed : (id, ResourceType.versionHistory) ∈ before.resources) :
    ¬ Taken before kept id := by
  rintro ⟨version, versionListed, same, -⟩
  rcases consistent.versionType version versionListed _ listed same.symm with
    plain | collection
  · cases plain
  · cases collection

/-- The history of a version has the type of histories. -/
theorem Consistent.vhrId_type
    (consistent : Consistent before)
    {version : Version} {resourcetype : ResourceType}
    (listed : version ∈ before.versions)
    (row : (version.vhrId, resourcetype) ∈ before.resources) :
    resourcetype = .versionHistory := by
  rcases consistent.fkVersionVhr version listed with ⟨vhr, vhrListed, same⟩
  exact consistent.vhrType vhr vhrListed _ row same.symm

/-- A resource that no path leads to may be deleted. -/
theorem Holding.deletable
    (holding : Holding before kept store)
    (consistent : Consistent before) (tidy : Tidy before kept)
    (item : Item before kept iter)
    (unreached : ¬ (bindGraph store.binds.rows).Reaches rootCollectionId
      iter.serialno) :
    Deletable before kept (unversionedFor store iter)
      (deletedWith store iter) := by
  have lost : Left before kept iter.serialno →
      Taken before kept iter.serialno := by
    intro left
    by_contra notTaken
    exact unreached (holding.reaches tidy notTaken left)
  rcases item.typed with ⟨resourcetype, listed, changed⟩
  have isHistory := item.typed.versionHistory listed
  by_cases history : iter.resourcetype = .versionHistory
  · have unreachedVhr : ¬ Left before kept iter.serialno := by
      rw [isHistory.mp history] at listed
      exact fun left => consistent.not_taken_vhr listed (lost left)
    have gone : deletedWith store iter =
        dbmsGetVhrVersions (dbmsUnversionVhrVcrs store iter.serialno)
          iter.serialno ++ [iter.serialno] :=
      if_pos history
    have isVersion : ∀ id ∈ dbmsGetVhrVersions
        (dbmsUnversionVhrVcrs store iter.serialno) iter.serialno,
          ∃ version ∈ before.versions, version.resourceId = id ∧
            version.vhrId = iter.serialno := by
      intro id member
      rcases mem_dbmsGetVhrVersions.mp member with
        ⟨version, versionListed, ofHistory, -, same⟩
      exact ⟨version, holding.versions version versionListed, same,
        ofHistory⟩
    rw [gone]
    constructor
    case lost =>
      intro id member left
      rcases List.mem_append.mp member with version | last
      · rcases isVersion id version with
          ⟨version, versionListed, same, ofHistory⟩
        refine ⟨version, versionListed, same, ?_⟩
        rw [ofHistory]
        exact unreachedVhr
      · rw [List.mem_singleton.mp last] at left
        exact absurd left unreachedVhr
    case roots =>
      intro vhr vhrListed unreachedHere rootGone
      rcases consistent.fkVhrRootVersion vhr vhrListed with
        ⟨root, rootListed, isRoot, ofVhr⟩
      rcases List.mem_append.mp rootGone with version | last
      · rcases isVersion _ version with
          ⟨version, versionListed, same, ofHistory⟩
        have equal : version = root :=
          List.inj_on_of_nodup_map consistent.versionsResource versionListed
            rootListed (same.trans isRoot.symm)
        rw [equal, ofVhr] at ofHistory
        rw [ofHistory]
        exact List.mem_append_right _ (List.mem_singleton_self _)
      · exact absurd (List.mem_singleton.mp last)
          (item.notRoot vhr vhrListed unreachedHere)
    case whole =>
      intro version versionListed unreachedHere vhrGone
      rw [ids_unversionedFor]
      rcases List.mem_append.mp vhrGone with member | last
      · rcases isVersion _ member with ⟨other, otherListed, same, -⟩
        exact absurd same.symm (consistent.vhrId_ne versionListed otherListed)
      · have ofHistory := List.mem_singleton.mp last
        by_cases present : version.resourceId ∈ store.ids
        · right
          apply List.mem_append_left
          apply mem_dbmsGetVhrVersions.mpr
          refine ⟨version, ?_, ofHistory, present, rfl⟩
          rcases holding.together version versionListed unreachedHere with
            here | absent
          · exact holding.versionRows version versionListed unreachedHere
              here present
          · exact absurd present absent
        · exact Or.inl present
  · have gone : deletedWith store iter = [iter.serialno] := if_neg history
    rw [gone]
    constructor
    case lost =>
      intro id member
      rw [List.mem_singleton.mp member]
      exact lost
    case roots =>
      intro vhr vhrListed unreachedHere rootGone
      exact absurd (List.mem_singleton.mp rootGone)
        (item.notRoot vhr vhrListed unreachedHere)
    case whole =>
      intro version versionListed _ vhrGone
      have ofHistory := List.mem_singleton.mp vhrGone
      rw [← ofHistory] at listed
      exact absurd (isHistory.mpr (consistent.vhrId_type versionListed listed))
        history

end Holding

/-! ## One round -/

/-- A history that is not left. -/
def Goes (before : GraphStore) (kept : Bind → Prop) (id : Id) : Prop :=
  ∃ vhr ∈ before.vhrs, vhr.resourceId = id ∧ ¬ Left before kept id

/--
The histories of the list that are not left are there, each of them once, and
are members of resources that are not left.
-/
structure Single (before : GraphStore) (kept : Bind → Prop)
    (state : GraphStore × List DavReposResource) : Prop where
  held : ∀ iter ∈ state.2, ∃ bind ∈ before.binds.rows,
    bind.collectionId = iter.parentId ∧ bind.resourceId = iter.serialno ∧
      ¬ Left before kept bind.collectionId
  present : ∀ iter ∈ state.2, iter.hasBind = false →
    Goes before kept iter.serialno → iter.serialno ∈ state.1.ids
  once : state.2.Pairwise fun first second => first.hasBind = false →
    second.hasBind = false → first.serialno = second.serialno →
      ¬ Goes before kept first.serialno

/-- What holds before every round but the first. -/
structure Worked (before : GraphStore) (kept : Bind → Prop)
    (state : GraphStore × List DavReposResource) : Prop where
  holding : Holding before kept state.1
  items : ∀ iter ∈ state.2, Item before kept iter
  loose : Loose state.1 state.2
  covered : Covered before kept state.1 state.2
  single : Single before kept state

section Round

variable {orders : RowOrders} {before store : GraphStore}
  {kept : Bind → Prop} {iter : DavReposResource}
  {next : List DavReposResource} {id : Id}

theorem unbindRound_deletes
    (unmarked : iter.hasBind = false)
    (unreached : ¬ (bindGraph (deleteBindOf store iter).binds.rows).Reaches
      rootCollectionId iter.serialno)
    (reads : ¬ ReadsNone (deleteBindOf store iter) iter) :
    unbindRound orders (store, iter :: next) =
      .inr (afterDelete (deleteBindOf store iter) iter,
        next ++ listedMembers orders store iter) := by
  rw [unbindRound, unmarked, if_neg Bool.false_ne_true,
    sabridgeDeleteIfOrphaned, pathFromRoot_eq_none.mpr unreached,
    sabridgeDeleteResource_eq reads]
  rfl

/-- A history without versions ends the loop without a result. -/
theorem unbindRound_undefined
    (unmarked : iter.hasBind = false)
    (unreached : ¬ (bindGraph (deleteBindOf store iter).binds.rows).Reaches
      rootCollectionId iter.serialno)
    (reads : ReadsNone (deleteBindOf store iter) iter) :
    unbindRound orders (store, iter :: next) = .inl none := by
  rw [unbindRound, unmarked, if_neg Bool.false_ne_true,
    sabridgeDeleteIfOrphaned, pathFromRoot_eq_none.mpr unreached,
    sabridgeDeleteResource_eq_none reads]
  rfl

/-- The ways to go on from an item. -/
theorem unbindRound_cases (orders : RowOrders) (store : GraphStore)
    (iter : DavReposResource) (next : List DavReposResource) :
    unbindRound orders (store, iter :: next) = .inl none ∨
      unbindRound orders (store, iter :: next) = .inr (store, next) ∨
      unbindRound orders (store, iter :: next) =
        .inr (deleteBindOf store iter, next) ∨
      unbindRound orders (store, iter :: next) =
        .inr (afterDelete (deleteBindOf store iter) iter,
          next ++ listedMembers orders store iter) := by
  cases marked : iter.hasBind with
  | true => exact Or.inr (Or.inl (unbindRound_marked marked))
  | false =>
      by_cases reached : (bindGraph
          (deleteBindOf store iter).binds.rows).Reaches rootCollectionId
            iter.serialno
      · exact Or.inr (Or.inr (Or.inl (unbindRound_path marked reached)))
      · by_cases reads : ReadsNone (deleteBindOf store iter) iter
        · exact Or.inl (unbindRound_undefined marked reached reads)
        · exact Or.inr (Or.inr (Or.inr
            (unbindRound_deletes marked reached reads)))

theorem mem_ids_afterDelete :
    id ∈ (afterDelete store iter).ids ↔
      id ∈ store.ids ∧ id ∉ deletedWith store iter := by
  rw [afterDelete, mem_ids_deleteAll, ids_unversionedFor]

theorem serialno_mem_deletedWith (store : GraphStore)
    (iter : DavReposResource) : iter.serialno ∈ deletedWith store iter := by
  unfold deletedWith
  split
  next => exact List.mem_append_right _ (List.mem_singleton_self _)
  next => exact List.mem_singleton_self _

theorem mem_binds_afterDelete
    {bind : Bind} :
    bind ∈ (afterDelete store iter).binds.rows ↔
      bind ∈ store.binds.rows ∧
        bind.collectionId ∉ deletedWith store iter ∧
          bind.resourceId ∉ deletedWith store iter := by
  rw [afterDelete, mem_binds_deleteAll, binds_unversionedFor]

/-- What is deleted with a resource are versions that are taken. -/
theorem Holding.taken_of_mem
    (holding : Holding before kept store)
    (consistent : Consistent before) (tidy : Tidy before kept)
    (item : Item before kept iter)
    (unreached : ¬ (bindGraph store.binds.rows).Reaches rootCollectionId
      iter.serialno)
    (member : id ∈ deletedWith store iter) :
    id = iter.serialno ∨ Taken before kept id := by
  unfold deletedWith at member
  split at member
  next history =>
      rcases List.mem_append.mp member with version | last
      · right
        rcases mem_dbmsGetVhrVersions.mp version with
          ⟨version, versionListed, ofHistory, -, same⟩
        refine ⟨version, holding.versions version versionListed, same, ?_⟩
        rw [ofHistory]
        rcases item.typed with ⟨resourcetype, listed, changed⟩
        rw [(item.typed.versionHistory listed).mp history] at listed
        intro left
        exact unreached
          (holding.reaches tidy (consistent.not_taken_vhr listed) left)
      · exact Or.inl (List.mem_singleton.mp last)
  next => exact Or.inl (List.mem_singleton.mp member)

/-- The members of a collection that is deleted are put on the list. -/
theorem covered_delete
    (holding : Holding before kept (deleteBindOf store iter))
    (consistent : Consistent before) (tidy : Tidy before kept)
    (item : Item before kept iter)
    (unmarked : iter.hasBind = false)
    (unreached : ¬ (bindGraph (deleteBindOf store iter).binds.rows).Reaches
      rootCollectionId iter.serialno)
    (covered : Covered before kept (deleteBindOf store iter)
      (iter :: next)) :
    Covered before kept
      (afterDelete (deleteBindOf store iter) iter)
      (next ++ listedMembers orders store iter) := by
  have deletable := holding.deletable consistent tidy item unreached
  intro bind bound missing
  rw [mem_ids_afterDelete, not_and_or, not_not] at missing
  rw [mem_ids_afterDelete, not_and_or, not_not]
  by_cases old : ¬ kept bind ∨
      bind.collectionId ∉ (deleteBindOf store iter).ids
  · rcases covered bind bound old with
      left | gone | ⟨other, member, otherUnmarked, same⟩
    · exact Or.inl left
    · exact Or.inr (Or.inl (Or.inl gone))
    · rcases List.mem_cons.mp member with rfl | later
      · rw [← same]
        exact Or.inr (Or.inl (Or.inr (serialno_mem_deletedWith _ _)))
      · exact Or.inr (Or.inr
          ⟨other, List.mem_append_left _ later, otherUnmarked, same⟩)
  · -- the bind leaves what is deleted, which is no version that is taken
    rw [not_or, not_not, not_not] at old
    have deleted :
        bind.collectionId ∈ deletedWith (deleteBindOf store iter) iter := by
      rcases missing with lost | gone | deleted
      · exact absurd old.1 lost
      · exact absurd old.2 gone
      · exact deleted
    have collection : bind.collectionId = iter.serialno :=
      (holding.taken_of_mem consistent tidy item unreached
        deleted).resolve_right (tidy.childless bind bound)
    have unreachedHere : ¬ Left before kept bind.collectionId :=
      fun left => tidy.childless bind bound
        (deletable.lost _ deleted left)
    by_cases present : bind.resourceId ∈ (deleteBindOf store iter).ids
    · rcases List.mem_map.mp (before.fkBindCollection bind bound) with
        ⟨row, listed, same⟩
      rcases tidy.members bind bound row listed same with
        left | isCollection | ⟨version, versionListed, isTarget, ofHistory⟩
      · rw [same] at left
        exact absurd left unreachedHere
      · by_cases loop : bind.resourceId = iter.serialno
        · rw [loop]
          exact Or.inr (Or.inl (Or.inr (serialno_mem_deletedWith _ _)))
        · have isRow : (iter.serialno, row.2) ∈ before.resources := by
            rw [← collection, ← same]
            exact listed
          have isListed : iter.resourcetype.isCollection = true :=
            (item.typed.isCollection isRow).trans isCollection
          have here : bind ∈ (deleteBindOf store iter).binds.rows :=
            (holding.binds bind).mpr ⟨bound, old.1, old.2, present⟩
          rcases @exists_unmarked orders _ _ _ unmarked isListed
            ((binds_deleteBindOf_sublist store iter).subset here) collection
              loop with ⟨child, member, childUnmarked, childSame⟩
          right
          right
          refine ⟨child, List.mem_append_right _ ?_, childUnmarked,
            childSame⟩
          unfold listedMembers
          rw [if_pos isListed]
          exact member
      · rw [same] at ofHistory
        rw [← ofHistory] at unreachedHere deleted
        right
        left
        rw [← isTarget]
        have whole := deletable.whole version versionListed unreachedHere
          deleted
        rw [ids_unversionedFor] at whole
        exact whole
    · exact Or.inr (Or.inl (Or.inl present))

/-- The items that are put on the list. -/
theorem item_of_mem_listedMembers
    {child : DavReposResource}
    (holding : Holding before kept (deleteBindOf store iter))
    (consistent : Consistent before) (tidy : Tidy before kept)
    (item : Item before kept iter)
    (among : ∀ bind ∈ store.binds.rows, bind ∈ before.binds.rows)
    (unreached : ¬ (bindGraph (deleteBindOf store iter).binds.rows).Reaches
      rootCollectionId iter.serialno)
    (member : child ∈ listedMembers orders store iter) :
    Item before kept child := by
  have isListed : iter.resourcetype.isCollection = true := by
    unfold listedMembers at member
    split at member
    next isCollection => exact isCollection
    next => cases member
  rcases exists_memberBind_listed member with ⟨bind, memberBind⟩
  have bound := among bind memberBind.bound
  constructor
  case typed =>
    apply holding.typed
    rw [resources_deleteBindOf]
    exact memberBind.row
  case notRoot =>
    intro vhr vhrListed unreachedVhr same
    rcases tidy.rootVersions vhr vhrListed unreachedVhr bind bound
      (memberBind.resource.trans same.symm) with left | isVhr
    · -- what has members and is left is not deleted
      have notTaken := tidy.childless bind bound
      exact unreached (memberBind.collection ▸
        holding.reaches tidy notTaken left)
    · rcases item.typed with ⟨resourcetype, listed, -⟩
      have isHistory : resourcetype = .versionHistory :=
        consistent.vhrType vhr vhrListed _ listed
          (memberBind.collection.symm.trans isVhr)
      rw [item.typed.isCollection listed, isHistory] at isListed
      cases isListed

/-- What is left of the binds when a resource is deleted. -/
theorem remaining_delete :
    remaining (afterDelete (deleteBindOf store iter) iter,
        next ++ listedMembers orders store iter) <
      remaining (store, iter :: next) := by
  have among : (afterDelete (deleteBindOf store iter)
      iter).binds.rows ⊆ (dbmsDeleteResource (deleteBindOf store iter)
        iter.serialno).binds.rows := by
    intro bind member
    have kept := mem_binds_afterDelete.mp member
    have ends := serialno_mem_deletedWith (deleteBindOf store iter) iter
    apply List.mem_filter.mpr
    refine ⟨kept.1, ?_⟩
    rw [Bool.and_eq_true, bne_iff_ne, bne_iff_ne]
    constructor
    · intro same
      exact kept.2.1 (same ▸ ends)
    · intro same
      exact kept.2.2 (same ▸ ends)
  have fewer := (List.subperm_of_subset
    (afterDelete (deleteBindOf store iter) iter).binds.pkey.of_map
      among).length_le
  have orphan : remaining (dbmsDeleteResource (deleteBindOf store iter)
      iter.serialno, next ++ listedMembers orders store iter) <
        remaining (store, iter :: next) :=
    remaining_orphan
  exact Nat.lt_of_le_of_lt (Nat.add_le_add_right fewer _) orphan

/-- What is not left and is no version that is taken. -/
theorem Holding.not_left
    (holding : Holding before kept store) (tidy : Tidy before kept)
    (notTaken : ¬ Taken before kept iter.serialno)
    (unreached : ¬ (bindGraph store.binds.rows).Reaches rootCollectionId
      iter.serialno) : ¬ Left before kept iter.serialno :=
  fun left => unreached (holding.reaches tidy notTaken left)

theorem Consistent.not_taken_of_goes
    (consistent : Consistent before) (goes : Goes before kept id) :
    ¬ Taken before kept id := by
  rcases goes with ⟨vhr, listed, rfl, -⟩
  rintro ⟨version, versionListed, same, -⟩
  exact consistent.version_ne_vhr versionListed listed same

/-- A history that is there has its root version. -/
theorem Holding.reads
    (holding : Holding before kept store)
    (consistent : Consistent before) (tidy : Tidy before kept)
    (item : Item before kept iter)
    (present : Goes before kept iter.serialno → iter.serialno ∈ store.ids)
    (unreached : ¬ (bindGraph store.binds.rows).Reaches rootCollectionId
      iter.serialno) : ¬ ReadsNone store iter := by
  rintro ⟨history, none⟩
  rcases item.typed with ⟨resourcetype, listed, -⟩
  rw [(item.typed.versionHistory listed).mp history] at listed
  have notLeft := holding.not_left tidy (consistent.not_taken_vhr listed)
    unreached
  rcases (tidy.vhrs _ listed rfl).resolve_left notLeft with
    ⟨vhr, vhrListed, isVhr⟩
  have same : vhr.resourceId = iter.serialno := isVhr
  have here := present ⟨vhr, vhrListed, same, notLeft⟩
  rw [← same] at here notLeft
  have root := holding.rootRows vhr vhrListed notLeft here
  rcases consistent.fkVhrRootVersion vhr vhrListed with
    ⟨version, versionListed, isRoot, ofVhr⟩
  rw [← isRoot] at root
  rw [← ofVhr] at here notLeft
  have row := holding.versionRows version versionListed notLeft here root
  have read := mem_dbmsGetVhrVersions.mpr
    ⟨version, row, ofVhr.trans same, root, rfl⟩
  rw [none] at read
  exact List.not_mem_nil read

/-- A history that is deleted is taken from the list, and not put on it. -/
theorem Single.delete
    (orders : RowOrders)
    (holding : Holding before kept (deleteBindOf store iter))
    (consistent : Consistent before) (tidy : Tidy before kept)
    (item : Item before kept iter)
    (among : ∀ bind ∈ store.binds.rows, bind ∈ before.binds.rows)
    (loose : Loose store next)
    (single : Single before kept (store, next))
    (apart : ∀ other ∈ next, other.hasBind = false →
      iter.serialno = other.serialno → ¬ Goes before kept iter.serialno)
    (unreached : ¬ (bindGraph (deleteBindOf store iter).binds.rows).Reaches
      rootCollectionId iter.serialno) :
    Single before kept (afterDelete (deleteBindOf store iter) iter,
      next ++ listedMembers orders store iter) where
  held := by
    intro other member
    rcases List.mem_append.mp member with later | child
    · exact single.held other later
    · rcases exists_memberBind_listed child with ⟨bind, memberBind⟩
      have bound := among bind memberBind.bound
      refine ⟨bind, bound, ?_, memberBind.resource, ?_⟩
      · rw [memberBind.collection, memberBind.parent]
      · have notTaken := tidy.childless bind bound
        rw [memberBind.collection] at notTaken ⊢
        exact holding.not_left tidy notTaken unreached
  present := by
    intro other member unmarked goes
    have different : other.serialno ≠ iter.serialno ∧
        other.serialno ∈ store.ids := by
      rcases List.mem_append.mp member with later | child
      · refine ⟨fun same => ?_, single.present other later unmarked goes⟩
        exact apart other later unmarked same.symm (same ▸ goes)
      · rcases exists_memberBind_listed child with ⟨bind, memberBind⟩
        exact ⟨(pairwise_listedMembers orders store iter).1 other child
          unmarked, List.mem_map_of_mem memberBind.row⟩
    rw [mem_ids_afterDelete, ids_deleteBindOf]
    refine ⟨different.2, fun gone => ?_⟩
    rcases holding.taken_of_mem consistent tidy item unreached gone with
      same | isTaken
    · exact different.1 same
    · exact consistent.not_taken_of_goes goes isTaken
  once := by
    have members := pairwise_listedMembers orders store iter
    rw [List.pairwise_append]
    refine ⟨single.once, ?_, ?_⟩
    · exact members.2.imp fun differ _ unmarked same =>
        (differ unmarked same).elim
    · intro first later second child firstUnmarked _ same goes
      rcases goes with ⟨vhr, listed, isVhr, notLeft⟩
      rcases single.held first later with
        ⟨bind, bound, parent, resource, sourceGone⟩
      rcases exists_memberBind_listed child with ⟨other, memberBind⟩
      have otherBound := among other memberBind.bound
      have otherGone : ¬ Left before kept other.collectionId := by
        have notTaken := tidy.childless other otherBound
        rw [memberBind.collection] at notTaken ⊢
        exact holding.not_left tidy notTaken unreached
      rw [← isVhr] at notLeft
      have one := tidy.once vhr listed notLeft bind bound other otherBound
        (resource.trans isVhr.symm)
        (memberBind.resource.trans (same.symm.trans isVhr.symm)) sourceGone
        otherGone
      exact loose first later other memberBind.bound (one.symm.trans parent)

/-- One round, when the bind of its item has been dealt with. -/
theorem Holding.round
    (orders : RowOrders)
    (holding : Holding before kept (deleteBindOf store iter))
    (consistent : Consistent before) (tidy : Tidy before kept)
    (items : ∀ other ∈ iter :: next, Item before kept other)
    (loose : Loose store next)
    (among : ∀ bind ∈ store.binds.rows, bind ∈ before.binds.rows)
    (covered : Covered before kept (deleteBindOf store iter) (iter :: next))
    (single : Single before kept (store, next))
    (present : Goes before kept iter.serialno → iter.serialno ∈ store.ids)
    (apart : ∀ other ∈ next, other.hasBind = false →
      iter.serialno = other.serialno → ¬ Goes before kept iter.serialno)
    (unmarked : iter.hasBind = false) :
    ∃ state, unbindRound orders (store, iter :: next) = .inr state ∧
      Worked before kept state ∧
      remaining state < remaining (store, iter :: next) := by
  have item := items iter List.mem_cons_self
  have rest : ∀ other ∈ next, Item before kept other := fun other member =>
    items other (List.mem_cons_of_mem _ member)
  have dealt : Loose (deleteBindOf store iter) next :=
    fun other member bind bound => loose other member bind
      ((binds_deleteBindOf_sublist store iter).subset bound)
  by_cases reached : (bindGraph (deleteBindOf store iter).binds.rows).Reaches
      rootCollectionId iter.serialno
  · refine ⟨_, unbindRound_path unmarked reached, ⟨holding, rest, dealt,
      covered.skip (Or.inr (holding.left reached)), single.held, ?_,
      single.once⟩, remaining_path⟩
    rw [ids_deleteBindOf]
    exact single.present
  · have reads : ¬ ReadsNone (deleteBindOf store iter) iter := by
      apply holding.reads consistent tidy item _ reached
      rw [ids_deleteBindOf]
      exact present
    refine ⟨_, unbindRound_deletes unmarked reached reads, ?_,
      remaining_delete⟩
    constructor
    case holding =>
      exact (holding.unversion iter).delete consistent
        (holding.deletable consistent tidy item reached)
    case items =>
      intro other member
      rcases List.mem_append.mp member with later | child
      · exact rest other later
      · exact item_of_mem_listedMembers holding consistent tidy item among
          reached child
    case loose =>
      intro other member bind bound
      have kept := mem_binds_afterDelete.mp bound
      rcases List.mem_append.mp member with later | child
      · exact dealt other later bind kept.1
      · rcases exists_memberBind_listed child with ⟨childBind, memberBind⟩
        rw [memberBind.parent]
        intro same
        exact kept.2.1 (same ▸ serialno_mem_deletedWith _ _)
    case covered =>
      exact covered_delete holding consistent tidy item unmarked reached
        covered
    case single =>
      exact Single.delete orders holding consistent tidy item among loose
        single apart reached

end Round

/-! ## The loop -/

section Loop

variable {orders : RowOrders} {before after : GraphStore}
  {kept : Bind → Prop} {dbR : DavReposResource} {fuel : Nat}

theorem Single.tail
    {store : GraphStore} {iter : DavReposResource}
    {list : List DavReposResource}
    (single : Single before kept (store, iter :: list)) :
    Single before kept (store, list) where
  held := fun other member => single.held other (List.mem_cons_of_mem _ member)
  present := fun other member =>
    single.present other (List.mem_cons_of_mem _ member)
  once := (List.pairwise_cons.mp single.once).2

/-- A round is defined, keeps what holds and leaves less to do. -/
theorem Worked.round
    {store : GraphStore} {iter : DavReposResource}
    {list : List DavReposResource}
    (orders : RowOrders) (consistent : Consistent before)
    (tidy : Tidy before kept)
    (worked : Worked before kept (store, iter :: list)) :
    ∃ next, unbindRound orders (store, iter :: list) = .inr next ∧
      Worked before kept next ∧
      remaining next < remaining (store, iter :: list) := by
  rcases worked with ⟨holding, items, loose, covered, single⟩
  have rest : Loose store list := fun other member =>
    loose other (List.mem_cons_of_mem _ member)
  cases marked : iter.hasBind with
  | true =>
      refine ⟨_, unbindRound_marked marked,
        ⟨holding, ?_, rest, ?_, single.tail⟩, ?_⟩
      · exact fun other member =>
          items other (List.mem_cons_of_mem _ member)
      · exact covered.skip (Or.inl marked)
      · exact Nat.add_lt_add_left (Nat.lt_succ_self list.length) _
  | false =>
      -- the bind of the item has gone with its collection
      have dealt := loose.deleteBindOf_eq
      have settled : Holding before kept (deleteBindOf store iter) := by
        rw [dealt]
        exact holding
      have among : ∀ bind ∈ store.binds.rows, bind ∈ before.binds.rows :=
        fun bind bound => ((holding.binds bind).mp bound).1
      have all : Covered before kept (deleteBindOf store iter)
          (iter :: list) := by
        rw [dealt]
        exact covered
      exact settled.round orders consistent tidy items rest among all
        single.tail (single.present iter List.mem_cons_self marked)
        (fun other member =>
          (List.pairwise_cons.mp single.once).1 other member marked) marked

theorem Worked.continues
    {state next : GraphStore × List DavReposResource}
    (consistent : Consistent before) (tidy : Tidy before kept)
    (worked : Worked before kept state)
    (passed : unbindRound orders state = .inr next) :
    Worked before kept next ∧ remaining next < remaining state := by
  rcases state with ⟨store, list⟩
  cases list with
  | nil => cases passed
  | cons iter list =>
      rcases worked.round orders consistent tidy with ⟨state, round, keeps⟩
      rcases Sum.inr.inj (round.symm.trans passed) with rfl
      exact keeps

/-- With nothing left to do, what is not left has gone. -/
theorem Worked.leaves
    (worked : Worked before kept (after, []))
    (reachable : ∀ id ∈ before.ids,
      (bindGraph before.binds.rows).Reaches rootCollectionId id) :
    Leaves before kept after := by
  have gone : ∀ id ∈ after.ids, Left before kept id := by
    intro id present
    have known := worked.holding.known present
    have settled : Left before kept id ∨ id ∉ after.ids := by
      apply (reachable id known).reached_or_gone
        (D := fun id => id ∉ after.ids)
      intro bind bound missing
      rcases worked.covered bind bound missing with left | gone | pending
      · exact Or.inl left
      · exact Or.inr gone
      · rcases pending with ⟨iter, member, -⟩
        cases member
    exact settled.resolve_right (not_not_intro present)
  constructor
  case ids =>
    intro id
    constructor
    · intro present
      refine ⟨worked.holding.known present, gone id present, ?_⟩
      rintro ⟨version, listed, rfl, unreached⟩
      rcases worked.holding.together version listed unreached with
        history | absent
      · exact unreached (gone _ history)
      · exact absent present
    · rintro ⟨known, left, notTaken⟩
      exact worked.holding.stays id known left notTaken
  case binds => exact worked.holding.binds

/-- The root version of a history that is not left has another bind. -/
theorem notRoot_of_target
    (consistent : Consistent before) (tidy : Tidy before kept)
    (reachable : ∀ id ∈ before.ids,
      (bindGraph before.binds.rows).Reaches rootCollectionId id)
    (target : ∀ bind ∈ before.binds.rows, ¬ kept bind →
      bind.resourceId = dbR.serialno)
    {vhr : Vhr} (listed : vhr ∈ before.vhrs)
    (unreached : ¬ Left before kept vhr.resourceId) :
    vhr.rootVersionId ≠ dbR.serialno := by
  intro same
  rcases consistent.fkVhrRootVersion vhr listed with
    ⟨version, versionListed, isRoot, ofVhr⟩
  have isTaken : Taken before kept dbR.serialno := by
    refine ⟨version, versionListed, isRoot.trans same, ?_⟩
    rw [ofVhr]
    exact unreached
  have passed : Left before kept vhr.resourceId ∨
      vhr.resourceId = dbR.serialno := by
    apply (reachable _ (consistent.fkVhrResource vhr listed)).reached_or_gone
      (D := fun id => id = dbR.serialno)
    rintro bind bound (lost | source)
    · exact Or.inr (target bind bound lost)
    · change bind.collectionId = dbR.serialno at source
      rw [← source] at isTaken
      exact absurd isTaken (tidy.childless bind bound)
  rcases passed with left | isRootVersion
  · exact unreached left
  · exact consistent.version_ne_vhr versionListed listed
      (isRoot.trans (same.trans isRootVersion.symm))

theorem vhrs_deleteBindOf (store : GraphStore) (dbR : DavReposResource) :
    (deleteBindOf store dbR).vhrs = store.vhrs := by
  unfold deleteBindOf
  split
  · rfl
  · rfl

theorem versions_deleteBindOf (store : GraphStore) (dbR : DavReposResource) :
    (deleteBindOf store dbR).versions = store.versions := by
  unfold deleteBindOf
  split
  · rfl
  · rfl

/-- The tables when the bind of the resource has been deleted. -/
theorem holding_start
    (consistent : Consistent before)
    (binds : ∀ bind, bind ∈ (deleteBindOf before dbR).binds.rows ↔
      bind ∈ before.binds.rows ∧ kept bind) :
    Holding before kept (deleteBindOf before dbR) where
  typed := by
    intro row member
    rw [resources_deleteBindOf] at member
    exact ⟨row.2, member, Or.inl rfl⟩
  stays := by
    intro id known _ _
    rw [ids_deleteBindOf]
    exact known
  binds := by
    intro bind
    rw [binds, ids_deleteBindOf]
    constructor
    · rintro ⟨bound, keeps⟩
      exact ⟨bound, keeps, before.fkBindCollection bind bound,
        before.fkBindResource bind bound⟩
    · rintro ⟨bound, keeps, -⟩
      exact ⟨bound, keeps⟩
  versions := by
    intro version member
    rw [versions_deleteBindOf] at member
    exact member
  versionRows := by
    intro version listed _ _ _
    rw [versions_deleteBindOf]
    exact listed
  vhrRows := by
    intro vhr listed _ _
    rw [vhrs_deleteBindOf]
    exact listed
  together := by
    intro version listed _
    left
    rw [ids_deleteBindOf]
    rcases consistent.fkVersionVhr version listed with ⟨vhr, vhrListed, same⟩
    rw [← same]
    exact consistent.fkVhrResource vhr vhrListed
  rootRows := by
    intro vhr listed _ _
    rw [ids_deleteBindOf]
    rcases consistent.fkVhrRootVersion vhr listed with
      ⟨version, versionListed, isRoot, -⟩
    rw [← isRoot]
    exact consistent.fkVersionResource version versionListed

/-- What `sabridge_unbind_resource` leaves when `kept` binds are left. -/
theorem sabridgeUnbindResource_leaves
    (orders : RowOrders) (consistent : Consistent before)
    (tidy : Tidy before kept)
    (reachable : ∀ id ∈ before.ids,
      (bindGraph before.binds.rows).Reaches rootCollectionId id)
    (binds : ∀ bind, bind ∈ (deleteBindOf before dbR).binds.rows ↔
      bind ∈ before.binds.rows ∧ kept bind)
    (target : ∀ bind ∈ before.binds.rows, ¬ kept bind →
      bind.resourceId = dbR.serialno)
    (row : (dbR.serialno, dbR.resourcetype) ∈ before.resources)
    (unmarked : dbR.hasBind = false)
    (enough : before.binds.rows.length + 1 < fuel) :
    ∃ after, sabridgeUnbindResource fuel orders before dbR = some after ∧
      Leaves before kept after := by
  have item : Item before kept dbR :=
    ⟨⟨dbR.resourcetype, row, Or.inl rfl⟩, fun vhr listed unreached =>
      notRoot_of_target consistent tidy reachable target listed unreached⟩
  have items : ∀ other ∈ [dbR], Item before kept other := by
    intro other member
    rw [List.mem_singleton.mp member]
    exact item
  have none : Loose before [] := fun iter member =>
    (List.not_mem_nil member).elim
  have single : Single before kept (before, []) :=
    ⟨fun _ member => (List.not_mem_nil member).elim,
      fun _ member => (List.not_mem_nil member).elim, List.Pairwise.nil⟩
  rcases (holding_start consistent binds).round orders consistent tidy items
    none (fun _ bound => bound) (covered_start unmarked target) single
    (fun _ => List.mem_map_of_mem row)
    (fun _ member => (List.not_mem_nil member).elim) unmarked with
      ⟨state, round, worked, less⟩
  cases fuel with
  | zero => exact (Nat.not_lt_zero _ enough).elim
  | succ fuel =>
      have unfolded : sabridgeUnbindResource (fuel + 1) orders before dbR =
          (Loop.run (unbindRound orders) fuel state).join := by
        rw [sabridgeUnbindResource, Loop.run, round]
      have leaves : ∀ state result, Worked before kept state →
          unbindRound orders state = .inl result →
            ∃ after, result = some after ∧ Leaves before kept after := by
        intro state result worked stopped
        rcases state with ⟨store, list⟩
        cases list with
        | nil =>
            rcases Sum.inl.inj stopped with rfl
            exact ⟨store, rfl, worked.leaves reachable⟩
        | cons iter next =>
            rcases worked.round orders consistent tidy with
              ⟨state, round, -⟩
            cases round.symm.trans stopped
      rcases Loop.run_spec leaves
        (fun _ _ => Worked.continues consistent tidy)
        (Nat.lt_of_lt_of_le less (Nat.le_of_lt_succ enough)) worked with
        ⟨result, stops, after, rfl, left⟩
      rw [unfolded, stops]
      exact ⟨after, rfl, left⟩

end Loop

/-! ## The bind of a request -/

/--
Unbinding a bind leaves what is reached without it, less the versions of the
histories that are not, with the binds between these resources.
-/
theorem unbindResource_leaves
    (orders : RowOrders) (store : GraphStore) (rootPath : Text)
    (bind : Bind) (dbR : DavReposResource) (fuel : Nat)
    (consistent : Consistent store)
    (reachable : ∀ id ∈ store.ids,
      (bindGraph store.binds.rows).Reaches rootCollectionId id)
    (bound : bind ∈ store.binds.rows)
    (addresses : Addresses store rootPath dbR bind)
    (tidy : Tidy store fun other => other ≠ bind)
    (enough : store.binds.rows.length + 1 < fuel) :
    ∃ after, unbindResource fuel orders rootPath store dbR = some after ∧
      Leaves store (fun other => other ≠ bind) after := by
  rcases addresses.uri with ⟨uri, located, named, parent⟩
  let found : DavReposResource :=
    { dbR with
      parentId :=
        if dbR.parentId = 0 then
          IndirectLocks.parentSerialno store.binds.rows
            (uri.drop rootPath.length)
        else dbR.parentId }
  have collection : found.parentId = bind.collectionId := by
    rcases parent with ⟨known, notZero⟩ | ⟨isZero, retrieved⟩
    · exact (if_neg notZero).trans known
    · exact (if_pos isZero).trans retrieved
  have same : unbindResource fuel orders rootPath store dbR =
      sabridgeUnbindResource fuel orders store found := by
    unfold unbindResource
    split
    next missing =>
        rw [located] at missing
        cases missing
    next other isUri =>
        rw [located] at isUri
        cases isUri
        rfl
  rw [same]
  apply sabridgeUnbindResource_leaves orders consistent tidy reachable
  · intro other
    have unique : ∀ other ∈ store.binds.rows, other.key = bind.key →
        other = bind := fun other present key =>
      List.inj_on_of_nodup_map store.binds.collectionIdKey present bound key
    have isLocated : found.uri = some uri := located
    exact mem_deleteBindOf_named isLocated named collection
      addresses.serialno unique
  · intro other _ isBind
    rw [not_not.mp isBind]
    exact addresses.serialno.symm
  · exact addresses.row
  · exact addresses.unmarked
  · exact enough

/-! ## A version with a bind of its own -/

/-- Exactly what is still reached, with the binds of these resources. -/
structure LeavesReached (before : GraphStore) (kept : Bind → Prop)
    (after : GraphStore) : Prop where
  ids : ∀ id, id ∈ after.ids ↔ id ∈ before.ids ∧ Left before kept id
  binds : ∀ bind, bind ∈ after.binds.rows ↔
    bind ∈ before.binds.rows ∧ kept bind ∧ bind.collectionId ∈ after.ids

/-- The bind of the history in the root collection. -/
def historyBind : Bind :=
  ⟨1, "h".toList, 2, 10, none⟩

/-- The history 10 with one version, and further binds of the version. -/
def oneHistory (others : List Bind)
    (pkey : ((historyBind :: ⟨2, "v".toList, 10, 11, none⟩ ::
      others).map Bind.id).Nodup)
    (collectionIdKey : ((historyBind :: ⟨2, "v".toList, 10, 11, none⟩ ::
      others).map Bind.key).Nodup)
    (further : ∀ bind ∈ others,
      0 < bind.id ∧ bind.collectionId = 2 ∧ bind.resourceId = 11) :
    GraphStore where
  resources := [(2, .collection), (10, .versionHistory), (11, .version)]
  binds :=
    { rows := historyBind :: ⟨2, "v".toList, 10, 11, none⟩ :: others
      pkey := pkey
      collectionIdKey := collectionIdKey
      positive := by
        simp only [List.forall_mem_cons]
        refine ⟨by decide, by decide, ?_⟩
        intro bind member
        have here := further bind member
        rw [here.2.2]
        exact ⟨here.1, by decide⟩ }
  vhrs := [⟨10, 11⟩]
  versions := [⟨11, 1, 10⟩]
  vcrs := []
  resourcesPkey := by decide
  fkBindCollection := by
    simp only [List.forall_mem_cons]
    refine ⟨by decide, by decide, ?_⟩
    intro bind member
    rw [(further bind member).2.1]
    decide
  fkBindResource := by
    simp only [List.forall_mem_cons]
    refine ⟨by decide, by decide, ?_⟩
    intro bind member
    rw [(further bind member).2.2]
    decide

/-- The version is bound in its history only. -/
def unsharedVersion : GraphStore :=
  oneHistory [] (by decide) (by decide) (by decide)

/-- The version is bound in the root collection as well. -/
def sharedVersion : GraphStore :=
  oneHistory [⟨3, "v".toList, 2, 11, none⟩] (by decide) (by decide) (by decide)

/-- The history, with the URI of its bind. -/
def historyRecord : DavReposResource where
  serialno := 10
  resourcetype := .versionHistory
  uri := some "/h".toList
  parentId := 0
  bindId := 1
  hasBind := false

def storedOrders : RowOrders :=
  ⟨Sql.RowOrder.stored _, Sql.RowOrder.stored _⟩

theorem consistent_unsharedVersion : Consistent unsharedVersion where
  versionsResource := by decide
  fkVersionVhr := by decide
  fkVhrRootVersion := by decide
  fkVersionResource := by decide
  fkVhrResource := by decide
  versionType := by decide
  vhrType := by decide

theorem consistent_sharedVersion : Consistent sharedVersion where
  versionsResource := by decide
  fkVersionVhr := by decide
  fkVhrRootVersion := by decide
  fkVersionResource := by decide
  fkVhrResource := by decide
  versionType := by decide
  vhrType := by decide

theorem addresses_unsharedVersion :
    Addresses unsharedVersion [] historyRecord historyBind where
  row := by decide
  unmarked := rfl
  serialno := rfl
  uri := ⟨"/h".toList, rfl, by decide, Or.inr ⟨rfl, by decide⟩⟩

theorem addresses_sharedVersion :
    Addresses sharedVersion [] historyRecord historyBind where
  row := by decide
  unmarked := rfl
  serialno := rfl
  uri := ⟨"/h".toList, rfl, by decide, Or.inr ⟨rfl, by decide⟩⟩

/-- Every resource is reached through the history. -/
theorem reachable_oneHistory
    {store : GraphStore} (ids : store.ids = [2, 10, 11])
    (history : historyBind ∈ store.binds.rows)
    (version : (⟨2, "v".toList, 10, 11, none⟩ : Bind) ∈ store.binds.rows) :
    ∀ id ∈ store.ids,
      (bindGraph store.binds.rows).Reaches rootCollectionId id := by
  intro id member
  rw [ids] at member
  have toHistory : (bindGraph store.binds.rows).Reaches 2 10 :=
    ⟨[historyBind], history, rfl, rfl⟩
  have toVersion : (bindGraph store.binds.rows).Reaches 10 11 :=
    ⟨[⟨2, "v".toList, 10, 11, none⟩], version, rfl, rfl⟩
  rcases List.mem_cons.mp member with rfl | member
  · exact Multigraph.Reaches.refl _ _
  · rcases List.mem_cons.mp member with rfl | member
    · exact toHistory
    · rw [List.mem_singleton.mp member]
      exact toHistory.trans toVersion

/-- Only the version is the resource of a version. -/
theorem taken_unsharedVersion
    {kept : Bind → Prop} {id : Id} (taken : Taken unsharedVersion kept id) :
    id = 11 := by
  rcases taken with ⟨version, listed, same, -⟩
  rw [← same, List.mem_singleton.mp listed]

theorem tidy_unsharedVersion :
    Tidy unsharedVersion fun other => other ≠ historyBind where
  members := by
    intro bind bound row listed same
    rcases List.mem_cons.mp bound with rfl | later
    · left
      rw [same]
      exact Multigraph.Reaches.refl _ _
    · rw [List.mem_singleton.mp later] at same ⊢
      exact Or.inr (Or.inr ⟨⟨11, 1, 10⟩, by decide, rfl, same.symm⟩)
  childless := by
    intro bind bound isTaken
    have other : ∀ bind ∈ unsharedVersion.binds.rows,
        bind.collectionId ≠ 11 := by
      decide
    exact other bind bound (taken_unsharedVersion isTaken)
  rootVersions := by
    intro vhr listed _ bind bound same
    right
    rw [List.mem_singleton.mp listed] at same ⊢
    rcases List.mem_cons.mp bound with rfl | later
    · cases same
    · rw [List.mem_singleton.mp later]
  vhrs := by
    intro row listed history
    have isVhr : ∀ row ∈ unsharedVersion.resources,
        row.2 = .versionHistory → row.1 = 10 := by
      decide
    exact Or.inr ⟨⟨10, 11⟩, by decide, (isVhr row listed history).symm⟩
  once := by
    intro vhr listed _ bind bound other otherBound same otherSame _ _
    rw [List.mem_singleton.mp listed] at same otherSame
    have only : ∀ bind ∈ unsharedVersion.binds.rows,
        bind.resourceId = 10 → bind.collectionId = 2 := by
      decide
    rw [only bind bound same, only other otherBound otherSame]

/-- The history and its version have gone. -/
theorem unbindResource_leaves_unsharedVersion :
    ∃ after, unbindResource 4 storedOrders [] unsharedVersion historyRecord =
        some after ∧
      Leaves unsharedVersion (fun other => other ≠ historyBind) after :=
  unbindResource_leaves storedOrders unsharedVersion [] historyBind
    historyRecord 4 consistent_unsharedVersion
    (reachable_oneHistory rfl (by decide) (by decide)) (by decide)
    addresses_unsharedVersion tidy_unsharedVersion (by decide)

/-- The version goes with its history although it is still reached. -/
theorem not_unbindResource_leavesReached :
    ¬ ∀ (orders : RowOrders) (store : GraphStore) (rootPath : Text)
        (bind : Bind) (dbR : DavReposResource) (fuel : Nat),
      Consistent store →
      (∀ id ∈ store.ids,
        (bindGraph store.binds.rows).Reaches rootCollectionId id) →
      bind ∈ store.binds.rows → bind.resourceId ≠ rootCollectionId →
      Addresses store rootPath dbR bind →
      store.binds.rows.length + 1 < fuel →
      ∃ after, unbindResource fuel orders rootPath store dbR = some after ∧
        LeavesReached store (fun other => other ≠ bind) after := by
  intro always
  rcases always storedOrders sharedVersion [] historyBind historyRecord 5
    consistent_sharedVersion
    (reachable_oneHistory rfl (by decide) (by decide)) (by decide) (by decide)
    addresses_sharedVersion (by decide) with ⟨after, returns, leaves⟩
  have ids : (unbindResource 5 storedOrders [] sharedVersion
      historyRecord).map GraphStore.ids = some [2] := by
    decide
  rw [returns] at ids
  have left : Left sharedVersion (fun other => other ≠ historyBind) 11 :=
    ⟨[⟨3, "v".toList, 2, 11, none⟩],
      ⟨List.mem_of_getElem? (show sharedVersion.binds.rows[2]? = _ from rfl),
        by decide⟩, rfl, rfl⟩
  have stays := (leaves.ids 11).mpr ⟨by decide, left⟩
  rw [Option.some.inj ids] at stays
  revert stays
  decide

end Limestone.UnbindHistories
