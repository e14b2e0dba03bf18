import Limestone.InsertResource
import Limestone.Library.SharedFiles
import Limestone.UnbindCollects

/-!
# The bodies of the resources that are deleted

A body is a file that is named by its hash, and resources with one content
share it.  When a resource is deleted, the rows of `media` with the hash of its
record are counted, and the file is removed if there is one.  The record has
been read when the resource was listed, which may be long before: one resource
can be listed for two collections that go.
-/

namespace Limestone.UnbindBodies

open Library
open BridgeProperty (MediaRow)
open BridgeUnbind hiding dbmsDeleteResource dbmsGetVhrVersions
  sabridgeRemoveVhr sabridgeDeleteResource sabridgeDeleteIfOrphaned
  unbindRound sabridgeUnbindResource
open DbmsBind
open DbmsCollection
open InsertResource (hasBody)

/-! ## Tables -/

/-- The tables of the graph, the rows of `media`, and the files. -/
structure BodyStore extends GraphStore where
  media : List MediaRow
  /-- No key of the schema, but a row is written for a resource without one. -/
  mediaKey : (media.map MediaRow.resourceId).Nodup
  fkMediaResource : ∀ row ∈ media, row.resourceId ∈ resources.map Prod.fst
  /-- The hashes of the bodies that have a file. -/
  files : List Text

/-- An item of a list, with the hash that has been read with it. -/
structure BodyItem extends DavReposResource where
  sha1str : Option Text
deriving DecidableEq, Repr

/-- The hash that a join with `media` gives for a resource. -/
def BodyStore.sha1Of (store : BodyStore) (id : Id) : Option Text :=
  (store.media.find? fun row => row.resourceId == id).map MediaRow.sha1

/-- The hash is read for the resources that have a body. -/
def withBody (store : BodyStore) (dbR : DavReposResource) : BodyItem where
  toDavReposResource := dbR
  sha1str :=
    if hasBody dbR.resourcetype then store.sha1Of dbR.serialno else none

/-! ## Deleting -/

/-- `dbms_num_sha1_resources`. -/
def dbmsNumSha1Resources (store : BodyStore) (sha1str : Text) : Nat :=
  (store.media.filter fun row => row.sha1 == sha1str).length

/-- `sabridge_remove_body_from_disk`; no row has NULL for its hash. -/
def sabridgeRemoveBodyFromDisk (keepFiles : Bool) (store : BodyStore)
    (sha1str : Option Text) : BodyStore :=
  match sha1str with
  | none => store
  | some sha1str =>
      if !keepFiles ∧ dbmsNumSha1Resources store sha1str = 1 then
        { store with files := store.files.filter fun file => file != sha1str }
      else store

/-- `dbms_delete_resource`; the row of `media` goes with the resource. -/
def dbmsDeleteResource (store : BodyStore) (serialno : Id) : BodyStore where
  toGraphStore := BridgeUnbind.dbmsDeleteResource store.toGraphStore serialno
  media := store.media.filter fun row => row.resourceId != serialno
  mediaKey :=
    store.mediaKey.sublist (List.filter_sublist.map MediaRow.resourceId)
  fkMediaResource := by
    intro row member
    rcases List.mem_filter.mp member with ⟨listed, other⟩
    exact mem_ids_filter (store.fkMediaResource row listed)
      (bne_iff_ne.mp other)
  files := store.files

/-- The tables after a statement that leaves the resources and `media`. -/
def BodyStore.withGraph (store : BodyStore) (graph : GraphStore)
    (same : graph.ids = store.ids) : BodyStore where
  toGraphStore := graph
  media := store.media
  mediaKey := store.mediaKey
  fkMediaResource := by
    intro row member
    have present : row.resourceId ∈ store.ids :=
      store.fkMediaResource row member
    rw [← same] at present
    exact present
  files := store.files

/-- `dbms_unversion_vhr_vcrs`. -/
def dbmsUnversionVhrVcrs (store : BodyStore) (vhrId : Id) : BodyStore :=
  store.withGraph (BridgeUnbind.dbmsUnversionVhrVcrs store.toGraphStore vhrId)
    (map_fst_unversionedRow store.toGraphStore vhrId)

/-- The hash that `dbms_get_vhr_versions` reads for a version. -/
def versionSha1 (store : BodyStore) (id : Id) : Option Text :=
  if (id, ResourceType.version) ∈ store.resources then store.sha1Of id
  else none

/-- `dbms_get_vhr_versions`: the ids and the hashes. -/
def dbmsGetVhrVersions (store : BodyStore) (vhrId : Id) :
    List (Id × Option Text) :=
  (BridgeUnbind.dbmsGetVhrVersions store.toGraphStore vhrId).map fun id =>
    (id, versionSha1 store id)

/-- The loop of `sabridge_remove_vhr_vrs` for one version. -/
def removeVersion (keepFiles : Bool) (store : BodyStore)
    (version : Id × Option Text) : BodyStore :=
  dbmsDeleteResource
    (sabridgeRemoveBodyFromDisk keepFiles store version.2) version.1

/-- `sabridge_remove_vhr`; without a version what happens is undefined. -/
def sabridgeRemoveVhr (keepFiles : Bool) (store : BodyStore) (vhrId : Id) :
    Option BodyStore :=
  let unversioned := dbmsUnversionVhrVcrs store vhrId
  match dbmsGetVhrVersions unversioned vhrId with
  | [] => none
  | versions => some (versions.foldl (removeVersion keepFiles) unversioned)

/-- `sabridge_delete_resource`. -/
def sabridgeDeleteResource (keepFiles : Bool) (store : BodyStore)
    (dbR : BodyItem) : Option BodyStore :=
  let removed :=
    if dbR.resourcetype = .versionHistory then
      sabridgeRemoveVhr keepFiles store dbR.serialno
    else if hasBody dbR.resourcetype then
      some (sabridgeRemoveBodyFromDisk keepFiles store dbR.sha1str)
    else some store
  removed.map fun store => dbmsDeleteResource store dbR.serialno

/-- `sabridge_delete_if_orphaned`: the tables and `deleted`. -/
def sabridgeDeleteIfOrphaned (keepFiles : Bool) (orders : RowOrders)
    (store : BodyStore) (dbR : BodyItem) : Option (BodyStore × Bool) :=
  match pathFromRoot orders store.toGraphStore dbR.serialno with
  | some _ => some (store, false)
  | none => (sabridgeDeleteResource keepFiles store dbR).map fun store =>
      (store, true)

/-- `dbms_delete_bind` for a resource with a URI. -/
def deleteBind (store : BodyStore) (dbR : BodyItem) : BodyStore :=
  store.withGraph (deleteBindOf store.toGraphStore dbR.toDavReposResource)
    (UnbindCollects.ids_deleteBindOf _ _)

/-- The members of an item, with their hashes. -/
def listedBodies (orders : RowOrders) (store : BodyStore) (iter : BodyItem) :
    List BodyItem :=
  if iter.resourcetype.isCollection then
    (sabridgeGetCollectionChildren orders store.toGraphStore
      iter.toDavReposResource).map (withBody store)
  else []

/-- The loop of `sabridge_unbind_resource`: the tables and the list. -/
def unbindRound (keepFiles : Bool) (orders : RowOrders) :
    BodyStore × List BodyItem →
      Option BodyStore ⊕ (BodyStore × List BodyItem)
  | (store, []) => .inl (some store)
  | (store, iter :: next) =>
      if iter.hasBind then .inr (store, next)
      else
        let children := listedBodies orders store iter
        match sabridgeDeleteIfOrphaned keepFiles orders
          (deleteBind store iter) iter with
        | none => .inl none
        | some (store, deleted) =>
            .inr (store, if deleted then next ++ children else next)

/-- `sabridge_unbind_resource` without garbage collection, with the bodies. -/
def sabridgeUnbindResource (keepFiles : Bool) (fuel : Nat)
    (orders : RowOrders) (store : BodyStore) (dbR : BodyItem) :
    Option BodyStore :=
  (Loop.run (unbindRound keepFiles orders) fuel (store, [dbR])).join

/-! ## The graph -/

section Graph

variable {keepFiles : Bool} {orders : RowOrders} {store : BodyStore}
  {dbR : BodyItem}

@[simp]
theorem toGraphStore_sabridgeRemoveBodyFromDisk (sha1str : Option Text) :
    (sabridgeRemoveBodyFromDisk keepFiles store sha1str).toGraphStore =
      store.toGraphStore := by
  cases sha1str with
  | none => rfl
  | some sha1str =>
      unfold sabridgeRemoveBodyFromDisk
      simp only
      split
      · rfl
      · rfl

@[simp]
theorem media_sabridgeRemoveBodyFromDisk (sha1str : Option Text) :
    (sabridgeRemoveBodyFromDisk keepFiles store sha1str).media =
      store.media := by
  cases sha1str with
  | none => rfl
  | some sha1str =>
      unfold sabridgeRemoveBodyFromDisk
      simp only
      split
      · rfl
      · rfl

theorem toGraphStore_removeVersion (version : Id × Option Text) :
    (removeVersion keepFiles store version).toGraphStore =
      BridgeUnbind.dbmsDeleteResource store.toGraphStore version.1 := by
  have removed : (removeVersion keepFiles store version).toGraphStore =
      BridgeUnbind.dbmsDeleteResource
        (sabridgeRemoveBodyFromDisk keepFiles store
          version.2).toGraphStore version.1 := rfl
  rw [removed, toGraphStore_sabridgeRemoveBodyFromDisk]

theorem map_fst_dbmsGetVhrVersions (vhrId : Id) :
    (dbmsGetVhrVersions store vhrId).map Prod.fst =
      BridgeUnbind.dbmsGetVhrVersions store.toGraphStore vhrId := by
  simp [dbmsGetVhrVersions, Function.comp_def]

/-- The tables after a resource has been deleted. -/
def afterDelete (keepFiles : Bool) (store : BodyStore) (dbR : BodyItem) :
    BodyStore :=
  dbmsDeleteResource
    (if dbR.resourcetype = .versionHistory then
      (dbmsGetVhrVersions (dbmsUnversionVhrVcrs store dbR.serialno)
        dbR.serialno).foldl (removeVersion keepFiles)
          (dbmsUnversionVhrVcrs store dbR.serialno)
    else if hasBody dbR.resourcetype then
      sabridgeRemoveBodyFromDisk keepFiles store dbR.sha1str
    else store) dbR.serialno

theorem eq_afterDelete
    {after : BodyStore}
    (deleted : sabridgeDeleteResource keepFiles store dbR = some after) :
    after = afterDelete keepFiles store dbR := by
  unfold sabridgeDeleteResource at deleted
  rcases Option.map_eq_some_iff.mp deleted with ⟨removed, removes, rfl⟩
  unfold afterDelete
  congr 1
  split at removes
  next history =>
      rw [if_pos history]
      unfold sabridgeRemoveVhr at removes
      simp only at removes
      split at removes
      · cases removes
      · exact (Option.some.inj removes).symm
  next plain =>
      rw [if_neg plain]
      split at removes
      next body =>
          rw [if_pos body]
          exact (Option.some.inj removes).symm
      next noBody =>
          rw [if_neg noBody]
          exact (Option.some.inj removes).symm

theorem map_listedBodies (iter : BodyItem) :
    (listedBodies orders store iter).map BodyItem.toDavReposResource =
      UnbindCollects.listedMembers orders store.toGraphStore
        iter.toDavReposResource := by
  unfold listedBodies UnbindCollects.listedMembers
  split
  · simp [withBody, Function.comp_def]
  · rfl

end Graph

/-! ## Stored bodies -/

/-- Every row has its file, and where it is `exact` every file has a row. -/
structure IsStored (exact : Prop) (store : BodyStore) : Prop where
  backed : SharedFiles.Backed MediaRow.sha1 store.media store.files
  used : exact → SharedFiles.Used MediaRow.sha1 store.media store.files

/--
The hash of a record is the one of the row that goes; where there is no row,
it is the hash of no other row either.
-/
def IsCurrent (store : BodyStore) (id : Id) (sha1str : Option Text) : Prop :=
  (∃ row ∈ store.media, row.resourceId = id ∧ sha1str = some row.sha1) ∨
    ∀ row ∈ store.media, row.resourceId ≠ id ∧ sha1str ≠ some row.sha1

section Stored

variable {keepFiles : Bool} {exact : Prop} {store : BodyStore}
  {row other : MediaRow}
  {id gone : Id} {sha1str : Option Text} {sha1 : Text}

/-- A resource has one row. -/
theorem eq_of_resourceId
    (listed : row ∈ store.media)
    (otherListed : other ∈ store.media)
    (same : row.resourceId = other.resourceId) : row = other :=
  List.inj_on_of_nodup_map store.mediaKey listed otherListed same

theorem sha1Of_eq_some
    (listed : row ∈ store.media) :
    store.sha1Of row.resourceId = some row.sha1 := by
  unfold BodyStore.sha1Of
  cases found : store.media.find? fun other =>
      other.resourceId == row.resourceId with
  | none =>
      exact absurd (beq_self_eq_true _) (List.find?_eq_none.mp found row listed)
  | some other =>
      have same : other.resourceId = row.resourceId := by
        simpa using List.find?_some found
      have only := eq_of_resourceId (List.mem_of_find?_eq_some found) listed same
      rw [only]
      rfl

theorem exists_row_of_sha1Of
    (read : store.sha1Of id = some sha1) :
    ∃ row ∈ store.media, row.resourceId = id ∧ row.sha1 = sha1 := by
  rcases Option.map_eq_some_iff.mp read with ⟨row, found, isHash⟩
  exact ⟨row, List.mem_of_find?_eq_some found,
    by simpa using List.find?_some found, isHash⟩

/-- The files after the count. -/
theorem files_sabridgeRemoveBodyFromDisk (store : BodyStore) (sha1 : Text) :
    (sabridgeRemoveBodyFromDisk keepFiles store (some sha1)).files =
      if keepFiles then store.files
      else SharedFiles.reap MediaRow.sha1 store.media store.files sha1 := by
  cases keepFiles with
  | true => rfl
  | false =>
      have counted : dbmsNumSha1Resources store sha1 =
          SharedFiles.count MediaRow.sha1 store.media sha1 := rfl
      unfold sabridgeRemoveBodyFromDisk SharedFiles.reap
      simp only [Bool.not_false, true_and, Bool.false_eq_true, if_false,
        counted]
      split
      · rfl
      · rfl

theorem mem_media_dbmsDeleteResource :
    row ∈ (dbmsDeleteResource store gone).media ↔
      row ∈ store.media ∧ row.resourceId ≠ gone := by
  simp [dbmsDeleteResource]

/-- At most one row goes with a resource. -/
theorem length_rows_le_one (store : BodyStore) (id : Id) :
    (store.media.filter fun row => !(row.resourceId != id)).length ≤ 1 := by
  have counted : (store.media.filter fun row =>
      !(row.resourceId != id)).length =
      (store.media.map MediaRow.resourceId).count id := by
    rw [List.count_eq_countP, List.countP_map, List.countP_eq_length_filter]
    congr 2
    funext row
    simp [bne]
  rw [counted]
  exact List.nodup_iff_count_le_one.mp store.mediaKey id

theorem mem_media_removeVersion :
    row ∈ (removeVersion keepFiles store (id, sha1str)).media ↔
      row ∈ store.media ∧ row.resourceId ≠ id := by
  rw [removeVersion, mem_media_dbmsDeleteResource,
    media_sabridgeRemoveBodyFromDisk]

/-- Deleting a resource whose record is current. -/
theorem IsStored.removeVersion
    (off : exact → keepFiles = false)
    (stored : IsStored exact store)
    (current : IsCurrent store id sha1str) :
    IsStored exact (removeVersion keepFiles store (id, sha1str)) := by
  have among : (UnbindBodies.removeVersion keepFiles store
      (id, sha1str)).media ⊆ store.media := fun row member =>
    (mem_media_removeVersion.mp member).1
  rcases current with ⟨row, listed, isId, isHash⟩ | absent
  · rcases isHash with rfl
    have files : (UnbindBodies.removeVersion keepFiles store
        (id, some row.sha1)).files = if keepFiles then store.files
          else SharedFiles.reap MediaRow.sha1 store.media store.files
            row.sha1 :=
      files_sabridgeRemoveBodyFromDisk store row.sha1
    constructor
    case backed =>
      rw [files]
      split
      · exact stored.backed.mono among
      · apply (SharedFiles.backed_reap_iff stored.backed among).mpr
        rintro ⟨single, other, left, sameHash⟩
        have same : other = row := SharedFiles.eq_of_count_eq_one single
          (among left) sameHash listed rfl
        exact (mem_media_removeVersion.mp left).2 (same ▸ isId)
    case used =>
      intro isExact
      have noFlag := off isExact
      rw [files, noFlag]
      have rows : (UnbindBodies.removeVersion keepFiles store
          (id, some row.sha1)).media =
          store.media.filter fun row => row.resourceId != id := by
        simp [UnbindBodies.removeVersion, dbmsDeleteResource]
      rw [noFlag] at rows
      rw [rows]
      apply (stored.used isExact).reap
      · intro other member goes
        have same : other = row := eq_of_resourceId member listed (by
          rw [isId]
          simpa using goes)
        rw [same]
      · exact length_rows_le_one store id
  · -- Neither a row nor a file goes.
    have rows : (UnbindBodies.removeVersion keepFiles store
        (id, sha1str)).media = store.media := by
      unfold UnbindBodies.removeVersion dbmsDeleteResource
      simp only [media_sabridgeRemoveBodyFromDisk]
      apply List.filter_eq_self.mpr
      intro row member
      exact bne_iff_ne.mpr (absent row member).1
    have files : (UnbindBodies.removeVersion keepFiles store
        (id, sha1str)).files = store.files := by
      cases sha1str with
      | none => rfl
      | some sha1 =>
          refine (files_sabridgeRemoveBodyFromDisk store sha1).trans ?_
          split
          · rfl
          · unfold SharedFiles.reap
            apply if_neg
            intro single
            have positive := Nat.lt_of_lt_of_eq Nat.zero_lt_one single.symm
            rcases SharedFiles.count_pos_iff.mp positive with
              ⟨row, member, isHash⟩
            exact (absent row member).2 (congrArg some isHash.symm)
    constructor
    case backed =>
      rw [rows, files]
      exact stored.backed
    case used =>
      rw [rows, files]
      exact stored.used

/-- What is current stays current while others are deleted. -/
theorem IsCurrent.removeVersion
    {version : Id × Option Text}
    (current : IsCurrent store id sha1str)
    (other : id ≠ version.1) :
    IsCurrent (removeVersion keepFiles store version) id sha1str := by
  rcases current with ⟨row, listed, isId, isHash⟩ | absent
  · left
    exact ⟨row, mem_media_removeVersion.mpr ⟨listed, isId ▸ other⟩, isId,
      isHash⟩
  · right
    exact fun row member => absent row (mem_media_removeVersion.mp member).1

end Stored

/-! ## Tables that shrink -/

/--
What is left of the tables: the types only lose their version control, and a
row of `media` stays with its resource.
-/
structure Shrinks (before store : BodyStore) : Prop where
  resources : ∀ row ∈ store.resources, ∃ type,
    (row.1, type) ∈ before.resources ∧ unversioned row.2 = unversioned type
  binds : store.binds.rows ⊆ before.binds.rows
  versions : store.versions.Sublist before.versions
  media : ∀ row, row ∈ store.media ↔
    row ∈ before.media ∧ row.resourceId ∈ store.ids

section Shrinking

variable {before middle store : BodyStore} {id serialno : Id}
  {keepFiles : Bool}

theorem Shrinks.refl (store : BodyStore) : Shrinks store store where
  resources := fun row listed => ⟨row.2, listed, rfl⟩
  binds := List.Subset.refl _
  versions := List.Sublist.refl _
  media := fun row => ⟨fun listed =>
    ⟨listed, store.fkMediaResource row listed⟩, And.left⟩

theorem Shrinks.trans
    (first : Shrinks before middle)
    (second : Shrinks middle store) : Shrinks before store where
  resources := by
    intro row listed
    rcases second.resources row listed with ⟨type, between, same⟩
    rcases first.resources _ between with ⟨original, old, alike⟩
    exact ⟨original, old, same.trans alike⟩
  binds := List.Subset.trans second.binds first.binds
  versions := second.versions.trans first.versions
  media := by
    intro row
    rw [second.media, first.media]
    constructor
    · rintro ⟨⟨listed, -⟩, present⟩
      exact ⟨listed, present⟩
    · rintro ⟨listed, present⟩
      refine ⟨⟨listed, ?_⟩, present⟩
      rcases List.mem_map.mp present with ⟨kept, member, isRow⟩
      rcases second.resources kept member with ⟨type, between, -⟩
      exact isRow ▸ List.mem_map.mpr ⟨_, between, rfl⟩

theorem Shrinks.media_subset
    (shrinks : Shrinks before store) : store.media ⊆ before.media :=
  fun row member => ((shrinks.media row).mp member).1

/-- The ids after a deletion. -/
@[simp]
theorem mem_ids_dbmsDeleteResource :
    id ∈ (dbmsDeleteResource store serialno).ids ↔
      id ∈ store.ids ∧ id ≠ serialno :=
  UnbindCollects.mem_ids_dbmsDeleteResource

theorem shrinks_dbmsDeleteResource (store : BodyStore) (serialno : Id) :
    Shrinks store (dbmsDeleteResource store serialno) where
  resources := fun row member =>
    ⟨row.2, List.mem_of_mem_filter member, rfl⟩
  binds := fun bind member => List.mem_of_mem_filter member
  versions := List.filter_sublist
  media := by
    intro row
    rw [mem_media_dbmsDeleteResource]
    exact and_congr_right fun listed =>
      ⟨fun other => mem_ids_dbmsDeleteResource.mpr
          ⟨store.fkMediaResource row listed, other⟩,
        fun present => (mem_ids_dbmsDeleteResource.mp present).2⟩

theorem shrinks_sabridgeRemoveBodyFromDisk
    (store : BodyStore) (sha1str : Option Text) :
    Shrinks store (sabridgeRemoveBodyFromDisk keepFiles store sha1str) := by
  have refl := Shrinks.refl store
  constructor
  all_goals
    simp only [toGraphStore_sabridgeRemoveBodyFromDisk,
      media_sabridgeRemoveBodyFromDisk]
  · exact refl.resources
  · exact refl.binds
  · exact refl.versions
  · exact refl.media

theorem shrinks_removeVersion
    (store : BodyStore) (version : Id × Option Text) :
    Shrinks store (removeVersion keepFiles store version) :=
  (shrinks_sabridgeRemoveBodyFromDisk store version.2).trans
    (shrinks_dbmsDeleteResource _ version.1)

theorem shrinks_deleteBind (store : BodyStore) (dbR : BodyItem) :
    Shrinks store (deleteBind store dbR) where
  resources := by
    intro row member
    have same : (deleteBind store dbR).resources = store.resources :=
      UnbindCollects.resources_deleteBindOf _ _
    rw [same] at member
    exact ⟨row.2, member, rfl⟩
  binds := (UnbindCollects.binds_deleteBindOf_sublist _ _).subset
  versions := by
    have same : (deleteBind store dbR).versions = store.versions := by
      unfold deleteBind BodyStore.withGraph deleteBindOf
      simp only
      split
      · rfl
      · rfl
    rw [same]
  media := by
    intro row
    have same : (deleteBind store dbR).ids = store.ids :=
      UnbindCollects.ids_deleteBindOf _ _
    rw [same]
    exact (Shrinks.refl store).media row

theorem unversioned_unversioned (type : ResourceType) :
    unversioned (unversioned type) = unversioned type := by
  cases type <;> rfl

theorem shrinks_dbmsUnversionVhrVcrs (store : BodyStore) (vhrId : Id) :
    Shrinks store (dbmsUnversionVhrVcrs store vhrId) where
  resources := by
    intro row member
    rcases List.mem_map.mp member with ⟨old, listed, rfl⟩
    refine ⟨old.2, ?_, ?_⟩
    · unfold unversionedRow
      split
      · exact listed
      · exact listed
    · unfold unversionedRow
      split
      · exact unversioned_unversioned old.2
      · rfl
  binds := List.Subset.refl _
  versions := List.Sublist.refl _
  media := by
    intro row
    have same : (dbmsUnversionVhrVcrs store vhrId).ids = store.ids :=
      map_fst_unversionedRow store.toGraphStore vhrId
    rw [same]
    exact (Shrinks.refl store).media row

theorem shrinks_foldl_removeVersion
    (versions : List (Id × Option Text)) (store : BodyStore) :
    Shrinks store (versions.foldl (removeVersion keepFiles) store) := by
  induction versions generalizing store with
  | nil => exact Shrinks.refl store
  | cons version versions induction =>
      exact (shrinks_removeVersion store version).trans (induction _)

theorem shrinks_afterDelete (store : BodyStore) (dbR : BodyItem) :
    Shrinks store (afterDelete keepFiles store dbR) := by
  unfold afterDelete
  apply Shrinks.trans _ (shrinks_dbmsDeleteResource _ dbR.serialno)
  split
  · exact (shrinks_dbmsUnversionVhrVcrs store dbR.serialno).trans
      (shrinks_foldl_removeVersion _ _)
  · split
    · exact shrinks_sabridgeRemoveBodyFromDisk store dbR.sha1str
    · exact Shrinks.refl store

/-! ## What is left of the ids -/

theorem mem_ids_foldl_removeVersion
    (versions : List (Id × Option Text)) (store : BodyStore) :
    id ∈ (versions.foldl (removeVersion keepFiles) store).ids ↔
      id ∈ store.ids ∧ id ∉ versions.map Prod.fst := by
  induction versions generalizing store with
  | nil => simp
  | cons version versions induction =>
      have first : id ∈ (removeVersion keepFiles store version).ids ↔
          id ∈ store.ids ∧ id ≠ version.1 := by
        rw [GraphStore.ids, toGraphStore_removeVersion]
        exact UnbindCollects.mem_ids_dbmsDeleteResource
      rw [List.foldl_cons, induction, first, List.map_cons, List.mem_cons,
        not_or, and_assoc]

/-- A resource that is no version of a history is left. -/
theorem mem_ids_afterDelete
    {dbR : BodyItem}
    (present : id ∈ store.ids)
    (other : id ≠ dbR.serialno)
    (noVersion : dbR.resourcetype = .versionHistory →
      ∀ version ∈ store.versions, version.vhrId = dbR.serialno →
        version.resourceId ≠ id) :
    id ∈ (afterDelete keepFiles store dbR).ids := by
  unfold afterDelete
  rw [mem_ids_dbmsDeleteResource]
  refine ⟨?_, other⟩
  split
  next history =>
    rw [mem_ids_foldl_removeVersion, map_fst_dbmsGetVhrVersions]
    constructor
    · have same : (dbmsUnversionVhrVcrs store dbR.serialno).ids =
          store.ids := map_fst_unversionedRow store.toGraphStore dbR.serialno
      rw [same]
      exact present
    · intro isVersion
      rcases List.mem_map.mp isVersion with ⟨version, sorted, isId⟩
      rw [List.mem_insertionSort] at sorted
      rcases List.mem_filter.mp (List.mem_of_mem_filter sorted) with
        ⟨listed, isVhr⟩
      exact noVersion history version listed (beq_iff_eq.mp isVhr) isId
  · split
    · rw [GraphStore.ids, toGraphStore_sabridgeRemoveBodyFromDisk]
      exact present
    · exact present

end Shrinking

/-! ## The items of the list -/

/-- Another resource has a body with the same content. -/
def SharesBody (store : BodyStore) (id : Id) : Prop :=
  ∃ row ∈ store.media, row.resourceId = id ∧
    ∃ other ∈ store.media, other.resourceId ≠ id ∧ other.sha1 = row.sha1

/-- A collection has a bind to the resource, or a history has it as version. -/
def Holds (store : GraphStore) (holder id : Id) : Prop :=
  (∃ bind ∈ store.binds.rows,
      bind.collectionId = holder ∧ bind.resourceId = id) ∨
    ∃ version ∈ store.versions,
      version.vhrId = holder ∧ version.resourceId = id

/-- Of what holds a resource, one collection or history goes at most. -/
def HangsOnce (store : GraphStore) (left : List Id) (id : Id) : Prop :=
  ∀ holder other, Holds store holder id → Holds store other id →
    holder ∉ left → other ∉ left → holder = other

/-- The keys of `versions`, and which resources are versions or have bodies. -/
structure IsTyped (store : BodyStore) : Prop where
  versionsPkey : (store.versions.map Version.resourceId).Nodup
  versions : ∀ version ∈ store.versions, ∀ resource ∈ store.resources,
    resource.1 = version.resourceId →
      resource.2 = .version ∨ resource.2 = .collectionVersion
  media : ∀ row ∈ store.media, ∀ resource ∈ store.resources,
    resource.1 = row.resourceId → hasBody resource.2 = true

/-- An item as it has been read while the tables became what they are. -/
structure IsItem (before store : BodyStore) (item : BodyItem) : Prop where
  type : ∃ type, (item.serialno, type) ∈ before.resources ∧
    unversioned item.resourcetype = unversioned type
  hash : ∀ sha1, item.sha1str = some sha1 →
    ∃ row ∈ before.media, row.resourceId = item.serialno ∧ row.sha1 = sha1
  read : ∀ row ∈ store.media, row.resourceId = item.serialno →
    hasBody item.resourcetype = true → item.sha1str = some row.sha1

/-- What holds before every round. -/
structure Working (exact : Prop) (before : BodyStore) (left : List Id)
    (state : BodyStore × List BodyItem) : Prop where
  stored : IsStored exact state.1
  shrinks : Shrinks before state.1
  items : ∀ item ∈ state.2, IsItem before state.1 item
  /-- An item with a shared body is there, and what holds it is left. -/
  loose : ∀ item ∈ state.2, item.hasBind = false →
    SharesBody before item.serialno →
      item.serialno ∈ state.1.ids ∧
        ∀ holder, Holds state.1.toGraphStore holder item.serialno →
          holder ∈ left
  /-- It is on the list once. -/
  once : state.2.Pairwise fun first second =>
    first.hasBind = false → second.hasBind = false →
      first.serialno = second.serialno → ¬ SharesBody before first.serialno

section Items

variable {keepFiles : Bool} {exact : Prop} {orders : RowOrders}
  {before store after : BodyStore} {item iter : BodyItem}
  {next : List BodyItem} {holder id : Id} {type : ResourceType}
  {left : List Id}

theorem hasBody_unversioned (type : ResourceType) :
    hasBody (unversioned type) = hasBody type := by
  cases type <;> rfl

theorem hasBody_congr
    {other : ResourceType}
    (same : unversioned type = unversioned other) :
    hasBody type = hasBody other := by
  rw [← hasBody_unversioned, same, hasBody_unversioned]

theorem Holds.mono
    (shrinks : Shrinks before store)
    (holds : Holds store.toGraphStore holder id) :
    Holds before.toGraphStore holder id := by
  rcases holds with ⟨bind, bound, ends⟩ | ⟨version, listed, ends⟩
  · exact Or.inl ⟨bind, shrinks.binds bound, ends⟩
  · exact Or.inr ⟨version, shrinks.versions.subset listed, ends⟩

theorem IsItem.mono
    (isItem : IsItem before store item)
    (shrinks : Shrinks store after) : IsItem before after item where
  type := isItem.type
  hash := isItem.hash
  read := fun row member => isItem.read row (shrinks.media_subset member)

/-- Only a resource of a type with a body has a row. -/
theorem IsItem.hasBody
    {row : MediaRow}
    (isItem : IsItem before store item)
    (typed : IsTyped before)
    (shrinks : Shrinks before store)
    (listed : row ∈ store.media)
    (isId : row.resourceId = item.serialno) :
    hasBody item.resourcetype = true := by
  rcases isItem.type with ⟨type, old, same⟩
  rw [hasBody_congr same]
  exact typed.media row (shrinks.media_subset listed) _ old isId.symm

/-- The record of an item that is there if its body is shared. -/
theorem IsItem.isCurrent
    (isItem : IsItem before store item)
    (typed : IsTyped before)
    (shrinks : Shrinks before store)
    (present : SharesBody before item.serialno → item.serialno ∈ store.ids) :
    IsCurrent store item.serialno
      (if InsertResource.hasBody item.resourcetype then item.sha1str
      else none) := by
  by_cases hasRow : ∃ row ∈ store.media, row.resourceId = item.serialno
  · rcases hasRow with ⟨row, listed, isId⟩
    have body := isItem.hasBody typed shrinks listed isId
    left
    rw [if_pos body]
    exact ⟨row, listed, isId, isItem.read row listed isId body⟩
  · right
    intro row listed
    refine ⟨fun isId => hasRow ⟨row, listed, isId⟩, fun isHash => ?_⟩
    split at isHash
    · -- The body is shared with the row that is left.
      rcases isItem.hash row.sha1 isHash with ⟨mine, old, isMine, sameHash⟩
      have other : row.resourceId ≠ item.serialno := fun isId =>
        hasRow ⟨row, listed, isId⟩
      have there := present ⟨mine, old, isMine, row,
        shrinks.media_subset listed, other, sameHash.symm⟩
      exact hasRow ⟨mine, (shrinks.media mine).mpr ⟨old, isMine ▸ there⟩,
        isMine⟩
    · cases isHash

/-! ## Version histories -/

/-- The versions of a history are read before the first of them goes. -/
theorem isCurrent_of_mem_versions
    {version : Id × Option Text}
    (typed : IsTyped before)
    (shrinks : Shrinks before store)
    (member : version ∈ dbmsGetVhrVersions store id) :
    IsCurrent store version.1 version.2 := by
  rcases List.mem_map.mp member with ⟨versionId, listed, rfl⟩
  rcases List.mem_map.mp listed with ⟨row, sorted, isId⟩
  rw [List.mem_insertionSort] at sorted
  rcases List.mem_filter.mp sorted with ⟨ofVhr, known⟩
  have isVersion := shrinks.versions.subset (List.mem_of_mem_filter ofVhr)
  rw [decide_eq_true_eq] at known
  rcases List.mem_map.mp known with ⟨⟨resourceId, type⟩, resource, same⟩
  have isResource : resourceId = versionId := same.trans isId
  rcases isResource with rfl
  rcases shrinks.resources _ resource with ⟨original, old, alike⟩
  have types := typed.versions row isVersion _ old isId.symm
  by_cases medium : (resourceId, ResourceType.version) ∈ store.resources
  · unfold versionSha1
    rw [if_pos medium]
    cases read : store.sha1Of resourceId with
    | some sha1 =>
        rcases exists_row_of_sha1Of read with ⟨media, there, isMedia, rfl⟩
        exact Or.inl ⟨media, there, isMedia, rfl⟩
    | none =>
        right
        refine fun media there => ⟨?_, nofun⟩
        rintro rfl
        rw [sha1Of_eq_some there] at read
        cases read
  · unfold versionSha1
    rw [if_neg medium]
    right
    refine fun media there => ⟨?_, nofun⟩
    rintro rfl
    -- A collection version has no row of `media`.
    have body := typed.media media (shrinks.media_subset there) _ old rfl
    rcases types with rfl | rfl
    · apply medium
      have isType : type = .version := by
        cases type <;> first | rfl | cases alike
      exact isType ▸ resource
    · cases body

theorem nodup_dbmsGetVhrVersions
    (typed : IsTyped before)
    (shrinks : Shrinks before store) :
    ((dbmsGetVhrVersions store id).map Prod.fst).Nodup := by
  rw [map_fst_dbmsGetVhrVersions]
  unfold BridgeUnbind.dbmsGetVhrVersions
  have sorted := (List.perm_insertionSort
    (fun first second : Version => first.number ≤ second.number)
    ((store.versions.filter fun version => version.vhrId == id).filter
      fun version => decide (version.resourceId ∈
        store.resources.map Prod.fst))).map Version.resourceId
  apply sorted.nodup_iff.mpr
  apply List.Nodup.sublist _ typed.versionsPkey
  apply List.Sublist.map
  exact (List.filter_sublist.trans List.filter_sublist).trans shrinks.versions

theorem isStored_foldl_removeVersion
    {versions : List (Id × Option Text)}
    (off : exact → keepFiles = false)
    (stored : IsStored exact store)
    (distinct : (versions.map Prod.fst).Nodup)
    (current : ∀ version ∈ versions,
      IsCurrent store version.1 version.2) :
    IsStored exact (versions.foldl (removeVersion keepFiles) store) := by
  induction versions generalizing store with
  | nil => exact stored
  | cons version versions induction =>
      rw [List.map_cons, List.nodup_cons] at distinct
      rw [List.forall_mem_cons] at current
      apply induction (IsStored.removeVersion off stored current.1) distinct.2
      intro later member
      apply (current.2 later member).removeVersion
      rintro same
      exact distinct.1 (same ▸ List.mem_map_of_mem member)

/-- Deleting what an item is for. -/
theorem IsStored.delete
    (off : exact → keepFiles = false)
    (stored : IsStored exact store)
    (typed : IsTyped before)
    (shrinks : Shrinks before store)
    (isItem : IsItem before store item)
    (present : SharesBody before item.serialno → item.serialno ∈ store.ids) :
    IsStored exact (afterDelete keepFiles store item) := by
  have current := isItem.isCurrent typed shrinks present
  unfold afterDelete
  split
  next history =>
    have plain : InsertResource.hasBody item.resourcetype = false := by
      rw [history]
      rfl
    rw [if_neg (Bool.eq_false_iff.mp plain)] at current
    have smaller := shrinks.trans
      (shrinks_dbmsUnversionVhrVcrs store item.serialno)
    have unversioned : IsStored exact
        (dbmsUnversionVhrVcrs store item.serialno) :=
      ⟨stored.backed, stored.used⟩
    have left := isStored_foldl_removeVersion off unversioned
      (@nodup_dbmsGetVhrVersions before _ item.serialno typed smaller)
      fun version member => isCurrent_of_mem_versions typed smaller member
    apply @IsStored.removeVersion keepFiles exact _ _ none off left
    -- A version history has no row of its own.
    have absent : ∀ row ∈ store.media, row.resourceId ≠ item.serialno := by
      intro row listed isId
      have body := isItem.hasBody typed shrinks listed isId
      rw [plain] at body
      cases body
    right
    intro row listed
    have old : row ∈ (dbmsUnversionVhrVcrs store item.serialno).media :=
      (shrinks_foldl_removeVersion _ _).media_subset listed
    exact ⟨absent row old, nofun⟩
  · split
    next body =>
      rw [if_pos body] at current
      exact IsStored.removeVersion off stored current
    next plain =>
      rw [if_neg plain] at current
      exact IsStored.removeVersion off stored current

/-! ## Members -/

/-- A member of a collection, as it is listed. -/
structure IsMember (store : BodyStore) (iter child : BodyItem) : Prop where
  isCollection : iter.resourcetype.isCollection = true
  record : child = withBody store child.toDavReposResource
  bind : ∃ bind, UnbindCollects.MemberBind store.toGraphStore
    iter.toDavReposResource child.toDavReposResource bind

theorem isMember_of_mem
    {child : BodyItem}
    (member : child ∈ listedBodies orders store iter) :
    IsMember store iter child := by
  unfold listedBodies at member
  split at member
  next isCollection =>
    rcases List.mem_map.mp member with ⟨dbR, listed, rfl⟩
    exact ⟨isCollection, rfl, UnbindCollects.exists_memberBind listed⟩
  next => cases member

/-- The members that are new differ from each other and from the collection. -/
theorem pairwise_listedBodies (orders : RowOrders) (store : BodyStore)
    (iter : BodyItem) :
    (∀ child ∈ listedBodies orders store iter, child.hasBind = false →
      child.serialno ≠ iter.serialno) ∧
      (listedBodies orders store iter).Pairwise fun first second =>
        second.hasBind = false → first.serialno ≠ second.serialno := by
  have members := UnbindCollects.pairwise_listedMembers orders
    store.toGraphStore iter.toDavReposResource
  rw [← map_listedBodies, List.pairwise_map] at members
  exact ⟨fun child listed => members.1 _ (List.mem_map_of_mem listed),
    members.2⟩

theorem IsMember.holds
    {child : BodyItem}
    (member : IsMember store iter child) :
    Holds store.toGraphStore iter.serialno child.serialno := by
  rcases member.bind with ⟨bind, memberBind⟩
  exact Or.inl ⟨bind, memberBind.bound, memberBind.collection,
    memberBind.resource⟩

theorem IsMember.present
    {child : BodyItem}
    (member : IsMember store iter child) : child.serialno ∈ store.ids := by
  rcases member.bind with ⟨bind, memberBind⟩
  exact List.mem_map_of_mem memberBind.row

theorem IsMember.isItem
    {child : BodyItem}
    (member : IsMember store iter child)
    (shrinks : Shrinks before store) : IsItem before store child where
  type := by
    rcases member.bind with ⟨bind, memberBind⟩
    exact shrinks.resources _ memberBind.row
  hash := by
    intro sha1 isHash
    rw [member.record] at isHash
    unfold withBody at isHash
    simp only at isHash
    split at isHash
    · rcases exists_row_of_sha1Of isHash with ⟨row, listed, isId, isSha1⟩
      exact ⟨row, shrinks.media_subset listed, isId, isSha1⟩
    · cases isHash
  read := by
    intro row listed isId body
    rw [member.record]
    unfold withBody
    simp only
    rw [if_pos body, ← isId]
    exact sha1Of_eq_some listed

/-! ## The rounds -/

/-- A collection that has gone holds nothing. -/
theorem not_holds_of_gone (dbR : BodyItem) :
    ¬ Holds (afterDelete keepFiles store dbR).toGraphStore
      dbR.serialno id := by
  unfold afterDelete dbmsDeleteResource
    BridgeUnbind.dbmsDeleteResource
  rintro (⟨bind, bound, isHolder, -⟩ | ⟨version, listed, isHolder, -⟩)
  · have ends := (List.mem_filter.mp bound).2
    simp [isHolder] at ends
  · have ends := (List.mem_filter.mp listed).2
    rw [Bool.and_eq_true, decide_eq_true_eq] at ends
    rcases List.mem_map.mp ends.2 with ⟨vhr, kept, isVhr⟩
    have other := (List.mem_filter.mp kept).2
    simp [isVhr, isHolder] at other

theorem Working.bound
    (working : Working exact before left (store, next))
    (iter : BodyItem) :
    Working exact before left (deleteBind store iter, next) where
  stored := ⟨working.stored.backed, working.stored.used⟩
  shrinks := working.shrinks.trans (shrinks_deleteBind store iter)
  items := fun item member =>
    (working.items item member).mono (shrinks_deleteBind store iter)
  loose := by
    intro item member unmarked shares
    rcases working.loose item member unmarked shares with ⟨present, free⟩
    have same : (deleteBind store iter).ids = store.ids :=
      UnbindCollects.ids_deleteBindOf _ _
    exact ⟨same ▸ present, fun holder holds =>
      free holder (holds.mono (shrinks_deleteBind store iter))⟩
  once := working.once

/-- The items that are left when the first of the list goes. -/
theorem Working.delete
    (off : exact → keepFiles = false)
    (goes : iter.serialno ∉ left)
    (working : Working exact before left (store, next))
    (typed : IsTyped before)
    (isItem : IsItem before store iter)
    (present : SharesBody before iter.serialno → iter.serialno ∈ store.ids)
    (apart : ∀ other ∈ next, other.hasBind = false →
      iter.serialno = other.serialno → ¬ SharesBody before iter.serialno) :
    Working exact before left
      (afterDelete keepFiles store iter, next) where
  stored :=
    IsStored.delete off working.stored typed working.shrinks isItem present
  shrinks := working.shrinks.trans (shrinks_afterDelete store iter)
  items := fun item member =>
    (working.items item member).mono (shrinks_afterDelete store iter)
  loose := by
    intro item member unmarked shares
    rcases working.loose item member unmarked shares with ⟨there, free⟩
    have other : item.serialno ≠ iter.serialno := fun same =>
      apart item member unmarked same.symm (same ▸ shares)
    refine ⟨mem_ids_afterDelete there other ?_, ?_⟩
    · intro _ version listed isVhr isVersion
      exact goes (free iter.serialno
        (Or.inr ⟨version, listed, isVhr, isVersion⟩))
    · intro holder holds
      exact free holder (holds.mono (shrinks_afterDelete store iter))
  once := working.once

/-- The members of a collection that goes. -/
theorem Working.children
    (working : Working exact before left
      (afterDelete keepFiles (deleteBind store iter) iter, next))
    (listing : Working exact before left (store, next))
    (goes : iter.serialno ∉ left)
    (hang : ∀ id, SharesBody before id →
      HangsOnce before.toGraphStore left id) :
    Working exact before left
      (afterDelete keepFiles (deleteBind store iter) iter,
        next ++ listedBodies orders store iter) where
  stored := working.stored
  shrinks := working.shrinks
  items := by
    have smaller : Shrinks store
        (afterDelete keepFiles (deleteBind store iter) iter) :=
      (shrinks_deleteBind store iter).trans
        (shrinks_afterDelete _ iter)
    intro item member
    rcases List.mem_append.mp member with later | child
    · exact working.items item later
    · exact ((isMember_of_mem child).isItem listing.shrinks).mono smaller
  loose := by
    intro item member unmarked shares
    rcases List.mem_append.mp member with later | child
    · exact working.loose item later unmarked shares
    · have isMember := isMember_of_mem child
      have other := (pairwise_listedBodies orders store iter).1 item child
        unmarked
      have same : (deleteBind store iter).ids = store.ids :=
        UnbindCollects.ids_deleteBindOf _ _
      have only : ∀ holder, Holds before.toGraphStore holder item.serialno →
          holder ∉ left → holder = iter.serialno := fun holder holds other =>
        hang _ shares holder iter.serialno holds
          (isMember.holds.mono listing.shrinks) other goes
      refine ⟨mem_ids_afterDelete (same ▸ isMember.present) other
        ?_, ?_⟩
      · intro history
        have isCollection := isMember.isCollection
        rw [history] at isCollection
        cases isCollection
      · intro holder holds
        by_contra unleft
        rcases only holder (holds.mono working.shrinks) unleft with rfl
        exact not_holds_of_gone iter holds
  once := by
    rw [List.pairwise_append]
    refine ⟨working.once, ?_, ?_⟩
    · apply (pairwise_listedBodies orders store iter).2.imp
      intro first second differ _ unmarked same
      exact (differ unmarked same).elim
    · intro first later second child firstUnmarked secondUnmarked same shares
      have isMember := isMember_of_mem child
      have free := (listing.loose first later firstUnmarked shares).2
      exact goes (free iter.serialno (same ▸ isMember.holds))

theorem Working.tail
    (working : Working exact before left (store, iter :: next)) :
    Working exact before left (store, next) where
  stored := working.stored
  shrinks := working.shrinks
  items := fun item member => working.items item (List.mem_cons_of_mem _ member)
  loose := fun item member => working.loose item (List.mem_cons_of_mem _ member)
  once := (List.pairwise_cons.mp working.once).2

/-- What a round does that goes on. -/
theorem unbindRound_cases
    {state : BodyStore × List BodyItem}
    (round : unbindRound keepFiles orders (store, iter :: next) =
      .inr state) :
    iter.hasBind = true ∧ state = (store, next) ∨
      iter.hasBind = false ∧
        (state = (deleteBind store iter, next) ∨
          state = (afterDelete keepFiles (deleteBind store iter) iter,
            next ++ listedBodies orders store iter)) := by
  rw [unbindRound] at round
  cases marked : iter.hasBind with
  | true =>
      rw [if_pos marked] at round
      exact Or.inl ⟨rfl, (Sum.inr.inj round).symm⟩
  | false =>
      rw [if_neg (Bool.eq_false_iff.mp marked)] at round
      unfold sabridgeDeleteIfOrphaned at round
      right
      refine ⟨rfl, ?_⟩
      cases path : pathFromRoot orders (deleteBind store iter).toGraphStore
          iter.serialno with
      | some way =>
          simp only [path] at round
          exact Or.inl (Sum.inr.inj round).symm
      | none =>
          simp only [path] at round
          cases deleted : sabridgeDeleteResource keepFiles
              (deleteBind store iter) iter with
          | none =>
              rw [deleted] at round
              cases round
          | some after =>
              rw [deleted] at round
              right
              rw [← eq_afterDelete deleted]
              exact (Sum.inr.inj round).symm

/-- One round; its item is there if its body is shared, and listed once. -/
theorem Working.round
    {state : BodyStore × List BodyItem}
    (off : exact → keepFiles = false)
    (working : Working exact before left (store, next))
    (typed : IsTyped before)
    (hang : ∀ id, SharesBody before id →
      HangsOnce before.toGraphStore left id)
    (isItem : IsItem before store iter)
    (present : iter.hasBind = false → SharesBody before iter.serialno →
      iter.serialno ∈ store.ids)
    (apart : ∀ other ∈ next, iter.hasBind = false → other.hasBind = false →
      iter.serialno = other.serialno → ¬ SharesBody before iter.serialno)
    (round : unbindRound keepFiles orders (store, iter :: next) =
      .inr state)
    (ends : ∀ id ∈ left, id ∈ state.1.ids) :
    Working exact before left state := by
  rcases unbindRound_cases round with ⟨-, rfl⟩ | ⟨unmarked, rfl | rfl⟩
  · exact working
  · exact working.bound iter
  · have same : (deleteBind store iter).ids = store.ids :=
      UnbindCollects.ids_deleteBindOf _ _
    have goes : iter.serialno ∉ left := fun stays =>
      (mem_ids_dbmsDeleteResource.mp (ends _ stays)).2 rfl
    apply Working.children _ working goes hang
    apply Working.delete off goes (working.bound iter) typed
      (isItem.mono (shrinks_deleteBind store iter))
    · exact fun shares => same ▸ present unmarked shares
    · exact fun other member => apart other member unmarked

/-- The loop goes on while there are items, or is undefined. -/
theorem unbindRound_cons_ne
    {result : BodyStore} :
    unbindRound keepFiles orders (store, iter :: next) ≠
      .inl (some result) := by
  rw [unbindRound]
  intro leaves
  split at leaves
  · cases leaves
  · simp only at leaves
    split at leaves
    · cases leaves
    · cases leaves

/-- A record as it is read before the loop. -/
theorem isItem_withBody
    {dbR : DavReposResource}
    (row : (dbR.serialno, dbR.resourcetype) ∈ store.resources) :
    IsItem store store (withBody store dbR) where
  type := ⟨dbR.resourcetype, row, rfl⟩
  hash := by
    intro sha1 isHash
    unfold withBody at isHash
    simp only at isHash
    split at isHash
    · exact exists_row_of_sha1Of isHash
    · cases isHash
  read := by
    intro row listed isId body
    unfold withBody at isId body ⊢
    simp only at isId body ⊢
    rw [if_pos body, ← isId]
    exact sha1Of_eq_some listed

theorem shrinks_unbindRound
    {state next : BodyStore × List BodyItem}
    (round : unbindRound keepFiles orders state = .inr next) :
    Shrinks state.1 next.1 := by
  rcases state with ⟨store, items⟩
  cases items with
  | nil => cases round
  | cons iter rest =>
      rcases unbindRound_cases round with ⟨-, rfl⟩ | ⟨-, rfl | rfl⟩
      · exact Shrinks.refl store
      · exact shrinks_deleteBind store iter
      · exact (shrinks_deleteBind store iter).trans
          (shrinks_afterDelete _ iter)

theorem shrinks_run
    {fuel : Nat} {state : BodyStore × List BodyItem}
    (stopped : Loop.run (unbindRound keepFiles orders) fuel state =
      some (some after)) :
    Shrinks state.1 after := by
  refine Loop.run_induct (I := fun next => Shrinks state.1 next.1)
    (P := fun result => ∀ after, result = some after →
      Shrinks state.1 after) ?_ ?_ (Shrinks.refl state.1) stopped after rfl
  · rintro ⟨store, items⟩ result shrinks leaves after rfl
    cases items with
    | nil =>
        rcases Option.some.inj (Sum.inl.inj leaves) with rfl
        exact shrinks
    | cons iter next => exact (unbindRound_cons_ne leaves).elim
  · exact fun _ _ shrinks continues =>
      shrinks.trans (shrinks_unbindRound continues)

theorem Shrinks.ids
    (shrinks : Shrinks store after) : ∀ id ∈ after.ids, id ∈ store.ids := by
  intro id present
  rcases List.mem_map.mp present with ⟨row, listed, rfl⟩
  rcases shrinks.resources row listed with ⟨type, old, -⟩
  exact List.mem_map.mpr ⟨_, old, rfl⟩

/-- The rounds that are left, from one that is working. -/
theorem Working.run
    {fuel : Nat} {state : BodyStore × List BodyItem}
    (off : exact → keepFiles = false)
    (typed : IsTyped before)
    (hang : ∀ id, SharesBody before id →
      HangsOnce before.toGraphStore after.ids id)
    (working : Working exact before after.ids state)
    (stopped : Loop.run (unbindRound keepFiles orders) fuel state =
      some (some after)) :
    IsStored exact after := by
  induction fuel generalizing state with
  | zero => cases stopped
  | succ fuel induction =>
      rcases state with ⟨store, items⟩
      rw [Loop.run] at stopped
      cases items with
      | nil =>
          rcases Option.some.inj (Option.some.inj stopped) with rfl
          exact working.stored
      | cons iter rest =>
          cases round : unbindRound keepFiles orders (store, iter :: rest) with
          | inl result =>
              rw [round] at stopped
              rcases Option.some.inj stopped with rfl
              exact (unbindRound_cons_ne round).elim
          | inr next =>
              rw [round] at stopped
              refine induction ?_ stopped
              have apart := (List.pairwise_cons.mp working.once).1
              exact Working.round off working.tail typed hang
                (working.items iter List.mem_cons_self)
                (fun unmarked shares =>
                  (working.loose iter List.mem_cons_self unmarked shares).1)
                apart round (shrinks_run stopped).ids

/-- Before anything is listed. -/
theorem Working.nil
    (stored : IsStored exact before) :
    Working exact before left (before, []) where
  stored := stored
  shrinks := Shrinks.refl before
  items := fun _ listed => (List.not_mem_nil listed).elim
  loose := fun _ listed => (List.not_mem_nil listed).elim
  once := List.Pairwise.nil

/-- The whole loop, for a record as it is read. -/
theorem isStored_sabridgeUnbindResource
    {fuel : Nat} {dbR : DavReposResource}
    (off : exact → keepFiles = false)
    (stored : IsStored exact before)
    (typed : IsTyped before)
    (hang : ∀ id, SharesBody before id →
      HangsOnce before.toGraphStore after.ids id)
    (row : (dbR.serialno, dbR.resourcetype) ∈ before.resources)
    (stopped : sabridgeUnbindResource keepFiles fuel orders before
      (withBody before dbR) = some after) :
    IsStored exact after := by
  have stopped := Option.join_eq_some_iff.mp stopped
  cases fuel with
  | zero => cases stopped
  | succ fuel =>
      rw [Loop.run] at stopped
      cases first : unbindRound keepFiles orders
          (before, [withBody before dbR]) with
      | inl result =>
          rw [first] at stopped
          rcases Option.some.inj stopped with rfl
          exact (unbindRound_cons_ne first).elim
      | inr state =>
          rw [first] at stopped
          have working := Working.round off (Working.nil stored) typed hang
            (isItem_withBody row) (fun _ _ => List.mem_map_of_mem row)
            (fun _ listed => (List.not_mem_nil listed).elim)
            first (shrinks_run stopped).ids
          exact working.run off typed hang stopped

end Items

/-! ## Two media with one body -/

section Examples

theorem hangsOnce_of_binds
    {store : GraphStore}
    (noVersions : store.versions = [])
    (single : ∀ first ∈ store.binds.rows, ∀ second ∈ store.binds.rows,
      first.resourceId = second.resourceId →
        first.collectionId = second.collectionId)
    (left : List Id) (id : Id) : HangsOnce store left id := by
  have bound : ∀ holder, Holds store holder id → ∃ bind ∈ store.binds.rows,
      bind.collectionId = holder ∧ bind.resourceId = id := by
    rintro holder (held | ⟨version, listed, -⟩)
    · exact held
    · rw [noVersions] at listed
      cases listed
  intro holder other first second _ _
  rcases bound holder first with ⟨bind, listed, rfl, isId⟩
  rcases bound other second with ⟨otherBind, otherListed, rfl, otherId⟩
  exact single bind listed otherBind otherListed (isId.trans otherId.symm)

def storedOrders : RowOrders where
  parents := Sql.RowOrder.stored _
  children := Sql.RowOrder.stored _

/-- The binds `/a/b`, `/a/c`, `/a/b/m` and `/n`. -/
def hangingBinds : BindTable where
  rows := [⟨1, "a".toList, 2, 10, none⟩, ⟨2, "b".toList, 10, 11, none⟩,
    ⟨3, "c".toList, 10, 12, none⟩, ⟨4, "m".toList, 11, 13, none⟩,
    ⟨5, "n".toList, 2, 14, none⟩]
  pkey := by decide
  collectionIdKey := by decide
  positive := by decide

/-- The medium is a member of `/a/c`, too. -/
def sharedBinds : BindTable where
  rows := hangingBinds.rows ++ [⟨6, "m".toList, 12, 13, none⟩]
  pkey := by decide
  collectionIdKey := by decide
  positive := by decide

/-- The collections, and two media with one content. -/
def twoMedia (binds : BindTable)
    (collections : ∀ bind ∈ binds.rows, bind.collectionId ∈ [2, 10, 11, 12])
    (resources : ∀ bind ∈ binds.rows, bind.resourceId ∈ [10, 11, 12, 13, 14]) :
    BodyStore where
  resources := [(2, .collection), (10, .collection), (11, .collection),
    (12, .collection), (13, .resource), (14, .resource)]
  binds := binds
  vhrs := []
  versions := []
  vcrs := []
  resourcesPkey := by decide
  fkBindCollection := fun bind listed =>
    List.subset_append_left [2, 10, 11, 12] [13, 14] (collections bind listed)
  fkBindResource := fun bind listed =>
    List.mem_cons_of_mem 2 (resources bind listed)
  media := [⟨13, 3, none, "x".toList⟩, ⟨14, 3, none, "x".toList⟩]
  mediaKey := by decide
  fkMediaResource := by decide
  files := ["x".toList]

def hanging : BodyStore :=
  twoMedia hangingBinds (by decide) (by decide)

def shared : BodyStore :=
  twoMedia sharedBinds (by decide) (by decide)

/-- The record of `/a`. -/
def folder : DavReposResource where
  serialno := 10
  resourcetype := .collection
  uri := some "/a".toList
  parentId := 2
  bindId := 1
  hasBind := false

theorem isTyped_hanging : IsTyped hanging :=
  ⟨by decide, by decide, by decide⟩

theorem hangsOnce_hanging (left : List Id) (id : Id) :
    HangsOnce hanging.toGraphStore left id :=
  hangsOnce_of_binds rfl (by decide) left id

end Examples

end Limestone.UnbindBodies
