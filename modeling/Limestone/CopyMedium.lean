import Limestone.BridgeMkcol
import Limestone.BridgeProperty
import Limestone.DeadProperties

/-!
# The content of a resource: `sabridge_copy_medium`

What a resource holds is in three tables: its `displayname` is a column of
`resources`, size, type and hash of its body are a row of `media`, and its dead
properties are rows of `properties`.  The bodies are files named by their hash.

The texts that are written come from rows or from URIs and fit their columns,
and the database executes every statement that breaks no constraint.
-/

namespace Limestone.CopyMedium

open Library
open DbmsBind
open BridgeMkcol (Stop)
open BridgeProperty hiding sabridgeGetProperty

/-! ## Tables -/

/-- The tables of the properties, their sequences, and the files. -/
structure ContentStore extends PropertyTables where
  /-- What `resources_id_seq` gives next. -/
  nextId : Id
  nextIdPos : 0 < nextId
  ids : ∀ row ∈ resources, 0 < row.id ∧ row.id < nextId
  pkey : (resources.map ResourceRow.id).Nodup
  /-- What `binds_id_seq` gives next. -/
  nextBindId : Id
  nextBindIdPos : 0 < nextBindId
  bindIds : ∀ bind ∈ binds.rows, bind.id < nextBindId
  dead : DbmsProperties.PropertyTables
  deadResources : dead.resources = resources.map ResourceRow.id
  /-- The hashes of the bodies that have a file. -/
  files : List Text

/-- What a request brings with it. -/
structure Request where
  now : Text
  /-- The next new UUID. -/
  uuid : Text
  principalId : Id
  /-- `keep_files`. -/
  keepFiles : Bool

/-- An UPDATE of `resources` that leaves the ids as they are. -/
def ContentStore.updateResources (store : ContentStore)
    (change : ResourceRow → ResourceRow)
    (keepsId : ∀ row, (change row).id = row.id) : ContentStore :=
  have same : (store.resources.map change).map ResourceRow.id =
      store.resources.map ResourceRow.id := by
    rw [List.map_map]
    exact List.map_congr_left fun row _ => keepsId row
  { store with
    resources := store.resources.map change
    ids := by
      intro row member
      rcases List.mem_map.mp member with ⟨old, listed, rfl⟩
      rw [keepsId]
      exact store.ids old listed
    pkey := same ▸ store.pkey
    deadResources := store.deadResources.trans same.symm }

/-! ## Statements -/

/-- A call that returns an error or goes on. -/
def returned {α : Type} (err : Option DavError) (value : α) : Except Stop α :=
  match err with
  | some err => .error (.davError err)
  | none => .ok value

/-- `sabridge_get_property`. -/
def sabridgeGetProperty (store : ContentStore) (r : DavReposResource) :
    Except Stop DavReposResource :=
  match BridgeProperty.sabridgeGetProperty false store.toPropertyTables r with
  | .undefined => .error .nullDereference
  | .returned r err => returned err r

/-- `HOME_COLLECTION_ID`. -/
def homeCollectionId : Id := 8

/-- The recursive query, with a number of rounds that reaches all. -/
def ancestors (binds : List Bind) : Nat → List Id → List Id
  | 0, found => found
  | rounds + 1, found =>
      ancestors binds rounds (Sql.union found
        ((binds.filter fun bind => decide (bind.resourceId ∈ found) &&
          decide (homeCollectionId < bind.collectionId)).map
            Bind.collectionId))

/-- A row of `resources` after `dbms_notify_resource_updated`. -/
def notified (touched : List Id) (updatedAt : Option Text)
    (row : ResourceRow) : ResourceRow :=
  if row.id ∈ touched then { row with lastmodified := updatedAt } else row

theorem id_notified
    (touched : List Id)
    (updatedAt : Option Text)
    (row : ResourceRow) :
    (notified touched updatedAt row).id = row.id := by
  unfold notified
  split
  · rfl
  · rfl

/-- `dbms_notify_resource_updated`. -/
def dbmsNotifyResourceUpdated (store : ContentStore) (r : DavReposResource) :
    ContentStore :=
  let touched := ancestors store.binds.rows store.binds.rows.length
    [r.serialno]
  store.updateResources (notified touched r.updatedAt)
    (id_notified touched r.updatedAt)

/-- `dbms_update_displayname`. -/
def dbmsUpdateDisplayname (store : ContentStore) (r : DavReposResource) :
    ContentStore :=
  store.updateResources
    (fun row =>
      if row.id = r.serialno then { row with displayname := r.displayname }
      else row)
    (fun row => by split <;> rfl)

/-- `dbms_insert_media`; the column `sha1` is not NULL. -/
def dbmsInsertMedia (request : Request) (store : ContentStore)
    (r : DavReposResource) : Except Stop (ContentStore × DavReposResource) :=
  match r.sha1str with
  | none =>
      .error (.davError ⟨httpInternalServerError,
        "DBMS error while inserting into 'media'"⟩)
  | some sha1 =>
      let r := { r with updatedAt := some request.now }
      let inserted := { store with
        media := store.media ++
          [{ resourceId := r.serialno
             size := r.getcontentlength
             mimetype := r.getcontenttype
             sha1 := sha1 }] }
      .ok (dbmsNotifyResourceUpdated inserted r, r)

/-- A row of `media` after the UPDATE of `dbms_update_media_props`. -/
def updatedMedia (r : DavReposResource) (sha1 : Text) (row : MediaRow) :
    MediaRow :=
  if row.resourceId = r.serialno then
    { row with
      size := r.getcontentlength
      mimetype := r.getcontenttype
      sha1 := sha1 }
  else row

/-- `dbms_update_media_props`, of a type that fits into its column. -/
def dbmsUpdateMediaProps (request : Request) (store : ContentStore)
    (r : DavReposResource) : Except Stop (ContentStore × DavReposResource) :=
  match r.sha1str with
  | none =>
      .error (.davError ⟨httpInternalServerError,
        "Couldn't update media entry"⟩)
  | some sha1 =>
      let r := { r with updatedAt := some request.now }
      let updated := { store with
        media := store.media.map (updatedMedia r sha1) }
      .ok (dbmsNotifyResourceUpdated updated r, r)

/-- The rows of `media` after the DELETE and the INSERT of a copy. -/
def copiedMedia (media : List MediaRow) (srcId destId : Id) : List MediaRow :=
  let kept := media.filter fun row => row.resourceId != destId
  kept ++ (kept.filter fun row => row.resourceId == srcId).map fun row =>
    { row with resourceId := destId }

/-- `dbms_copy_media_props`; the error of the DELETE is not looked at. -/
def dbmsCopyMediaProps (request : Request) (store : ContentStore)
    (src dest : DavReposResource) : ContentStore × DavReposResource :=
  let copied := { store with
    media := copiedMedia store.media src.serialno dest.serialno }
  let dest := { dest with
    updatedAt := some request.now
    getcontentlength := src.getcontentlength
    getcontenttype := src.getcontenttype
    sha1str := src.sha1str }
  (dbmsNotifyResourceUpdated copied dest, dest)

/-- `dbms_num_sha1_resources`. -/
def dbmsNumSha1Resources (store : ContentStore) (sha1str : Text) : Nat :=
  (store.media.filter fun row => row.sha1 == sha1str).length

/-- The rows of `resources` are not touched by a copy of dead properties. -/
theorem resources_sabridgeCopyDeadProps
    (tables : DbmsProperties.PropertyTables) (srcId destId : Id) :
    (DbmsProperties.sabridgeCopyDeadProps (fun _ => false) tables srcId
      destId).1.resources = tables.resources := by
  unfold DbmsProperties.sabridgeCopyDeadProps
    DbmsProperties.dbmsDeleteDeadProps
  rw [if_neg Bool.false_ne_true]
  unfold DbmsProperties.dbmsCopyDeadProps
  simp only
  split <;> rfl

/-- `sabridge_copy_dead_props`. -/
def sabridgeCopyDeadProps (store : ContentStore) (srcId destId : Id) :
    Except Stop ContentStore :=
  let copied := DbmsProperties.sabridgeCopyDeadProps (fun _ => false)
    store.dead srcId destId
  returned copied.2 { store with
    dead := copied.1
    deadResources := (resources_sabridgeCopyDeadProps ..).trans
      store.deadResources }

/-! ## The bridge -/

/-- `sabridge_remove_body_from_disk`. -/
def sabridgeRemoveBodyFromDisk (request : Request) (store : ContentStore)
    (sha1str : Text) : ContentStore :=
  if !request.keepFiles ∧ dbmsNumSha1Resources store sha1str = 1 then
    { store with files := store.files.filter fun file => file != sha1str }
  else store

/-- The SHA1 of an empty file. -/
def emptySha1 : Text :=
  "da39a3ee5e6b4b0d3255bfef95601890afd80709".toList

/-- `sabridge_create_empty_body`. -/
def sabridgeCreateEmptyBody (request : Request) (store : ContentStore)
    (r : DavReposResource) : Except Stop (ContentStore × DavReposResource) := do
  let (store, r) ← dbmsInsertMedia request store
    { r with sha1str := some emptySha1 }
  return ({ store with files := store.files.insert emptySha1 }, r)

/-- The comparison of the names, and the UPDATE if they differ. -/
def copyDisplayname (store : ContentStore) (src dest : DavReposResource) :
    Except Stop (ContentStore × DavReposResource) :=
  match src.displayname, dest.displayname with
  | some name, some destName =>
      if name = destName then .ok (store, dest)
      else
        let dest := { dest with displayname := some name }
        .ok (dbmsUpdateDisplayname store dest, dest)
  -- `strcmp` is given NULL
  | _, _ => .error .nullDereference

/-- `sabridge_copy_medium`. -/
def sabridgeCopyMedium (request : Request) (store : ContentStore)
    (src dest : DavReposResource) :
    Except Stop (ContentStore × DavReposResource) := do
  let cleared :=
    match dest.sha1str with
    | some sha1str => sabridgeRemoveBodyFromDisk request store sha1str
    | none => store
  let (named, dest) ← copyDisplayname cleared src dest
  let (copied, dest) := dbmsCopyMediaProps request named src dest
  let store ← sabridgeCopyDeadProps copied src.serialno dest.serialno
  return (store, dest)

/-- `sabridge_copy_collection`. -/
def sabridgeCopyCollection (store : ContentStore)
    (src dest : DavReposResource) :
    Except Stop (ContentStore × DavReposResource) := do
  let (named, dest) ← copyDisplayname store src dest
  let store ← sabridgeCopyDeadProps named src.serialno dest.serialno
  return (store, dest)

/-! ## What a resource holds -/

/-- The content of a resource. -/
@[ext]
structure Content where
  displayname : Option Text
  /-- Size, MIME type and hash of the rows in `media`. -/
  media : List (Nat × Option Text × Text)
  /-- Namespace, name and texts of the dead properties. -/
  properties : List (Id × Text × Text × Text)
deriving DecidableEq, Repr

def ContentStore.displayname (store : ContentStore) (id : Id) : Option Text :=
  (store.resources.find? fun row => row.id == id).bind ResourceRow.displayname

def ContentStore.mediaOf (store : ContentStore) (id : Id) :
    List (Nat × Option Text × Text) :=
  (store.media.filter fun row => row.resourceId == id).map fun row =>
    (row.size, row.mimetype, row.sha1)

def ContentStore.propertiesOf (store : ContentStore) (id : Id) :
    List (Id × Text × Text × Text) :=
  (store.dead.properties.filter fun row => row.resourceId == id).map fun row =>
    (row.namespaceId, row.name, row.xmlinfo, row.value)

def ContentStore.content (store : ContentStore) (id : Id) : Content where
  displayname := store.displayname id
  media := store.mediaOf id
  properties := store.propertiesOf id

/-! ## Updates of `resources` -/

section Updates

variable {store : ContentStore} {change : ResourceRow → ResourceRow}
  {keepsId : ∀ row, (change row).id = row.id} {id : Id}
  {r : DavReposResource}

theorem find?_updateResources :
    ((store.updateResources change keepsId).resources.find? fun row =>
        row.id == id) =
      (store.resources.find? fun row => row.id == id).map change := by
  show (store.resources.map change).find? _ = _
  rw [List.find?_map]
  congr 1
  apply congrArg (store.resources.find? ·)
  funext row
  rw [Function.comp_apply, keepsId]

/-- Only the names may be others. -/
theorem content_updateResources
    (keepsName : ∀ row ∈ store.resources, row.id = id →
      (change row).displayname = row.displayname) :
    (store.updateResources change keepsId).content id = store.content id := by
  have name : (store.updateResources change keepsId).displayname id =
      store.displayname id := by
    unfold ContentStore.displayname
    rw [find?_updateResources]
    cases found : store.resources.find? fun row => row.id == id with
    | none => rfl
    | some row =>
        have same := List.find?_some found
        rw [beq_iff_eq] at same
        exact keepsName row (List.mem_of_find?_eq_some found) same
  exact Content.ext name rfl rfl

@[simp]
theorem content_dbmsNotifyResourceUpdated :
    (dbmsNotifyResourceUpdated store r).content id = store.content id := by
  unfold dbmsNotifyResourceUpdated
  apply content_updateResources
  intro row _ _
  unfold notified
  split <;> rfl

theorem content_dbmsUpdateDisplayname_of_ne (other : id ≠ r.serialno) :
    (dbmsUpdateDisplayname store r).content id = store.content id := by
  unfold dbmsUpdateDisplayname
  apply content_updateResources
  intro row _ same
  rw [if_neg (same ▸ other)]

/-- The name of a resource that is there. -/
theorem displayname_dbmsUpdateDisplayname
    (present : r.serialno ∈ store.resources.map ResourceRow.id) :
    (dbmsUpdateDisplayname store r).displayname r.serialno =
      r.displayname := by
  unfold ContentStore.displayname dbmsUpdateDisplayname
  rw [find?_updateResources]
  cases found : store.resources.find? fun row => row.id == r.serialno with
  | none =>
      rcases List.mem_map.mp present with ⟨row, listed, same⟩
      exact absurd (beq_iff_eq.mpr same) (List.find?_eq_none.mp found row listed)
  | some row =>
      have same := List.find?_some found
      rw [beq_iff_eq] at same
      show (if row.id = r.serialno then _ else row).displayname = _
      rw [if_pos same]

end Updates

/-! ## What stays as it is -/

/-- The graph, the types and the version histories are the same. -/
structure SameGraph (before after : ContentStore) : Prop where
  binds : after.binds = before.binds
  types : after.resources.map (fun row => (row.id, row.type)) =
    before.resources.map fun row => (row.id, row.type)
  redirectrefs : after.redirectrefs = before.redirectrefs
  collections : after.collections = before.collections
  principals : after.principals = before.principals
  versions : after.versions = before.versions
  vhrs : after.vhrs = before.vhrs
  vcrs : after.vcrs = before.vcrs

section Same

variable {store middle after : ContentStore} {id : Id}
  {change : ResourceRow → ResourceRow}
  {keepsId : ∀ row, (change row).id = row.id}

theorem SameGraph.refl (store : ContentStore) : SameGraph store store :=
  ⟨rfl, rfl, rfl, rfl, rfl, rfl, rfl, rfl⟩

theorem SameGraph.trans
    (first : SameGraph store middle)
    (second : SameGraph middle after) :
    SameGraph store after where
  binds := second.binds.trans first.binds
  types := second.types.trans first.types
  redirectrefs := second.redirectrefs.trans first.redirectrefs
  collections := second.collections.trans first.collections
  principals := second.principals.trans first.principals
  versions := second.versions.trans first.versions
  vhrs := second.vhrs.trans first.vhrs
  vcrs := second.vcrs.trans first.vcrs

/-- Bodies, media and dead properties are not part of the graph. -/
theorem sameGraph_contents
    (store : ContentStore) (media : List MediaRow) (dead : DbmsProperties.PropertyTables)
    (deadResources : dead.resources = store.resources.map ResourceRow.id)
    (files : List Text) :
    SameGraph store { store with
      media := media
      dead := dead
      deadResources := deadResources
      files := files } :=
  ⟨rfl, rfl, rfl, rfl, rfl, rfl, rfl, rfl⟩

theorem sameGraph_updateResources
    (keepsType : ∀ row ∈ store.resources, (change row).type = row.type) :
    SameGraph store (store.updateResources change keepsId) where
  binds := rfl
  types := by
    show (store.resources.map change).map _ = _
    rw [List.map_map]
    apply List.map_congr_left
    intro row listed
    exact Prod.ext (keepsId row) (keepsType row listed)
  redirectrefs := rfl
  collections := rfl
  principals := rfl
  versions := rfl
  vhrs := rfl
  vcrs := rfl

theorem SameGraph.ids (same : SameGraph store after) :
    after.resources.map ResourceRow.id =
      store.resources.map ResourceRow.id := by
  have ids := congrArg (List.map Prod.fst) same.types
  rw [List.map_map, List.map_map] at ids
  exact ids

theorem sameGraph_dbmsNotifyResourceUpdated (r : DavReposResource) :
    SameGraph store (dbmsNotifyResourceUpdated store r) := by
  unfold dbmsNotifyResourceUpdated
  apply sameGraph_updateResources
  intro row _
  unfold notified
  split <;> rfl

theorem sameGraph_dbmsUpdateDisplayname (r : DavReposResource) :
    SameGraph store (dbmsUpdateDisplayname store r) := by
  unfold dbmsUpdateDisplayname
  apply sameGraph_updateResources
  intro row _
  split <;> rfl

/-- Only the content of one resource is touched, and no body is lost. -/
structure Touches (before after : ContentStore) (id : Id) : Prop where
  sameGraph : SameGraph before after
  others : ∀ other, other ≠ id → after.content other = before.content other
  files : ∀ file ∈ before.files, file ∈ after.files
  named : (∀ row ∈ before.resources, row.displayname ≠ none) →
    ∀ row ∈ after.resources, row.displayname ≠ none

theorem Touches.refl (store : ContentStore) (id : Id) :
    Touches store store id where
  sameGraph := SameGraph.refl store
  others := fun _ _ => rfl
  files := fun _ listed => listed
  named := fun named => named

theorem Touches.trans
    (first : Touches store middle id)
    (second : Touches middle after id) : Touches store after id where
  sameGraph := first.sameGraph.trans second.sameGraph
  others := fun other isOther =>
    (second.others other isOther).trans (first.others other isOther)
  files := fun file listed => second.files file (first.files file listed)
  named := fun named => second.named (first.named named)

theorem touches_dbmsNotifyResourceUpdated (r : DavReposResource) :
    Touches store (dbmsNotifyResourceUpdated store r) id where
  sameGraph := sameGraph_dbmsNotifyResourceUpdated r
  others := fun _ _ => content_dbmsNotifyResourceUpdated
  files := fun _ listed => listed
  named := by
    intro named row member
    rcases List.mem_map.mp member with ⟨old, listed, rfl⟩
    unfold notified
    split
    · exact named old listed
    · exact named old listed

end Same

/-! ## Copies -/

section Copies

variable {request : Request} {store named after : ContentStore}
  {src dest newDest : DavReposResource} {srcId destId id : Id}

theorem sabridgeCopyDeadProps_eq_ok
    (copied : sabridgeCopyDeadProps store srcId destId = .ok after) :
    ∃ dead deadResources, after = { store with
        dead := dead, deadResources := deadResources } ∧
      DeadProperties.IsCopy store.dead dead srcId destId := by
  rcases DeadProperties.sabridgeCopyDeadProps_cases (fun _ => false)
    store.dead srcId destId with fails | fails | isCopy
  · unfold sabridgeCopyDeadProps returned at copied
    simp only at copied
    split at copied
    next => cases copied
    next none => exact (fails.1 none).elim
  · unfold sabridgeCopyDeadProps returned at copied
    simp only at copied
    split at copied
    next => cases copied
    next none => exact (fails.1 none).elim
  · unfold sabridgeCopyDeadProps at copied
    simp only [isCopy.1] at copied
    exact ⟨_, _, (Except.ok.inj copied).symm, isCopy.2⟩

theorem propertiesOf_sabridgeCopyDeadProps_of_ne
    (copied : sabridgeCopyDeadProps store srcId destId = .ok after)
    (other : id ≠ destId) :
    after.propertiesOf id = store.propertiesOf id := by
  rcases sabridgeCopyDeadProps_eq_ok copied with ⟨dead, _, rfl, isCopy⟩
  have none : (DbmsProperties.copiedRows (store.dead.delete fun row =>
      row.resourceId == destId) srcId destId).filter
        (fun row => row.resourceId == id) = [] := by
    apply List.filter_eq_nil_iff.mpr
    intro row member
    rw [(DeadProperties.mem_copiedRows member).1, beq_iff_eq]
    exact Ne.symm other
  have kept : (store.dead.delete fun row =>
      row.resourceId == destId).properties.filter
        (fun row => row.resourceId == id) =
      store.dead.properties.filter fun row => row.resourceId == id :=
    (Sql.filter_key_delete id destId).trans (if_neg other)
  unfold ContentStore.propertiesOf
  show (dead.properties.filter _).map _ = _
  rw [isCopy, List.filter_append, none, List.append_nil, kept]

/-- The rows of the source, unless the DELETE has deleted them. -/
theorem propertiesOf_sabridgeCopyDeadProps
    (copied : sabridgeCopyDeadProps store srcId destId = .ok after) :
    after.propertiesOf destId =
      if srcId = destId then [] else store.propertiesOf srcId := by
  rcases sabridgeCopyDeadProps_eq_ok copied with ⟨dead, _, rfl, isCopy⟩
  have left (id : Id) : (store.dead.delete fun row =>
      row.resourceId == destId).properties.filter
        (fun row => row.resourceId == id) =
      if id = destId then []
      else store.dead.properties.filter fun row => row.resourceId == id :=
    Sql.filter_key_delete id destId
  have all : (DbmsProperties.copiedRows (store.dead.delete fun row =>
      row.resourceId == destId) srcId destId).filter
        (fun row => row.resourceId == destId) =
      DbmsProperties.copiedRows (store.dead.delete fun row =>
        row.resourceId == destId) srcId destId := by
    apply List.filter_eq_self.mpr
    intro row member
    rw [(DeadProperties.mem_copiedRows member).1, beq_self_eq_true]
  have texts : (DbmsProperties.copiedRows (store.dead.delete fun row =>
      row.resourceId == destId) srcId destId).map
        (fun row => (row.namespaceId, row.name, row.xmlinfo, row.value)) =
      ((store.dead.delete fun row =>
        row.resourceId == destId).properties.filter
          fun row => row.resourceId == srcId).map
            fun row => (row.namespaceId, row.name, row.xmlinfo, row.value) := by
    apply List.ext_getElem
    · simp [DbmsProperties.copiedRows]
    · intro index _ _
      simp [DbmsProperties.copiedRows]
  unfold ContentStore.propertiesOf
  show (dead.properties.filter _).map _ = _
  rw [isCopy, List.filter_append, all, left, if_pos rfl, List.nil_append,
    texts, left]
  split <;> rfl

theorem filter_copiedMedia (media : List MediaRow) (srcId destId id : Id) :
    (copiedMedia media srcId destId).filter
        (fun row => row.resourceId == id) =
      if id = destId then
        if srcId = destId then []
        else (media.filter fun row => row.resourceId == srcId).map fun row =>
          { row with resourceId := destId }
      else media.filter fun row => row.resourceId == id := by
  have left (id : Id) : (media.filter fun row =>
      row.resourceId != destId).filter (fun row => row.resourceId == id) =
      if id = destId then []
      else media.filter fun row => row.resourceId == id :=
    Sql.filter_key_delete id destId
  rw [copiedMedia, List.filter_append, left, left, List.filter_map]
  by_cases isDest : id = destId
  · rw [if_pos isDest, if_pos isDest, List.nil_append]
    have all : ((fun row : MediaRow => row.resourceId == id) ∘
        fun row : MediaRow => { row with resourceId := destId }) =
          fun _ => true := by
      funext row
      exact beq_iff_eq.mpr isDest.symm
    rw [all, List.filter_true]
    split <;> rfl
  · rw [if_neg isDest, if_neg isDest]
    have none : ((fun row : MediaRow => row.resourceId == id) ∘
        fun row : MediaRow => { row with resourceId := destId }) =
          fun _ => false := by
      funext row
      exact beq_eq_false_iff_ne.mpr (Ne.symm isDest)
    rw [none, List.filter_false, List.map_nil, List.append_nil]

theorem media_dbmsCopyMediaProps :
    (dbmsCopyMediaProps request store src dest).1.media =
      copiedMedia store.media src.serialno dest.serialno :=
  rfl

theorem mediaOf_dbmsCopyMediaProps_of_ne (other : id ≠ dest.serialno) :
    (dbmsCopyMediaProps request store src dest).1.mediaOf id =
      store.mediaOf id := by
  unfold ContentStore.mediaOf
  rw [media_dbmsCopyMediaProps, filter_copiedMedia, if_neg other]

/-- The rows of the source, unless the DELETE has deleted them. -/
theorem mediaOf_dbmsCopyMediaProps :
    (dbmsCopyMediaProps request store src dest).1.mediaOf dest.serialno =
      if src.serialno = dest.serialno then []
      else store.mediaOf src.serialno := by
  unfold ContentStore.mediaOf
  rw [media_dbmsCopyMediaProps, filter_copiedMedia, if_pos rfl]
  split
  · rfl
  · rw [List.map_map]
    rfl

theorem sameGraph_dbmsCopyMediaProps :
    SameGraph store (dbmsCopyMediaProps request store src dest).1 := by
  apply SameGraph.trans _ (sameGraph_dbmsNotifyResourceUpdated _)
  exact sameGraph_contents _ _ _ _ _

theorem displayname_dbmsCopyMediaProps :
    (dbmsCopyMediaProps request store src dest).1.displayname id =
      store.displayname id := by
  show ((dbmsCopyMediaProps request store src dest).1.content id).displayname =
    (store.content id).displayname
  unfold dbmsCopyMediaProps
  simp only [content_dbmsNotifyResourceUpdated]
  rfl

theorem copyDisplayname_eq_ok
    (renamed : copyDisplayname store src dest = .ok (named, newDest)) :
    ∃ name destName, src.displayname = some name ∧
      dest.displayname = some destName ∧
      newDest = { dest with displayname := some name } ∧
      named = if name = destName then store
        else dbmsUpdateDisplayname store newDest := by
  unfold copyDisplayname at renamed
  split at renamed
  next name destName isName isDestName =>
    refine ⟨name, destName, isName, isDestName, ?_⟩
    by_cases same : name = destName
    · rw [if_pos same] at renamed ⊢
      rcases Prod.mk.inj (Except.ok.inj renamed) with ⟨rfl, rfl⟩
      rw [same, ← isDestName]
      exact ⟨rfl, rfl⟩
    · rw [if_neg same] at renamed ⊢
      rcases Prod.mk.inj (Except.ok.inj renamed) with ⟨rfl, rfl⟩
      exact ⟨rfl, rfl⟩
  next => cases renamed

/-- What the comparison of the names does. -/
structure Renamed (store named : ContentStore)
    (src dest newDest : DavReposResource) (name destName : Text) : Prop where
  isName : src.displayname = some name
  isDestName : dest.displayname = some destName
  newDest_eq : newDest = { dest with displayname := some name }
  sameGraph : SameGraph store named
  others : ∀ id, id ≠ dest.serialno → named.content id = store.content id
  media : named.media = store.media
  dead : named.dead = store.dead
  files : named.files = store.files
  displayname : dest.serialno ∈ store.resources.map ResourceRow.id →
    named.displayname dest.serialno =
      if name = destName then store.displayname dest.serialno else some name

theorem copyDisplayname_spec
    (renamed : copyDisplayname store src dest = .ok (named, newDest)) :
    ∃ name destName, Renamed store named src dest newDest name destName := by
  rcases copyDisplayname_eq_ok renamed with
    ⟨name, destName, isName, isDestName, rfl, rfl⟩
  refine ⟨name, destName, ?_⟩
  by_cases same : name = destName
  · rw [if_pos same]
    exact
      { isName := isName
        isDestName := isDestName
        newDest_eq := rfl
        sameGraph := SameGraph.refl store
        others := fun _ _ => rfl
        media := rfl
        dead := rfl
        files := rfl
        displayname := fun _ => (if_pos same).symm }
  · rw [if_neg same]
    exact
      { isName := isName
        isDestName := isDestName
        newDest_eq := rfl
        sameGraph := sameGraph_dbmsUpdateDisplayname _
        others := fun id other => content_dbmsUpdateDisplayname_of_ne other
        media := rfl
        dead := rfl
        files := rfl
        displayname := fun present =>
          (@displayname_dbmsUpdateDisplayname store
            { dest with displayname := some name } present).trans
              (if_neg same).symm }

/-- What a copy of a medium does. -/
structure CopiedMedium (store after : ContentStore)
    (src dest newDest : DavReposResource) (name destName : Text) : Prop where
  isName : src.displayname = some name
  isDestName : dest.displayname = some destName
  sameGraph : SameGraph store after
  others : ∀ id, id ≠ dest.serialno → after.content id = store.content id
  displayname : dest.serialno ∈ store.resources.map ResourceRow.id →
    after.displayname dest.serialno =
      if name = destName then store.displayname dest.serialno else some name
  mediaOf : after.mediaOf dest.serialno =
    if src.serialno = dest.serialno then [] else store.mediaOf src.serialno
  propertiesOf : after.propertiesOf dest.serialno =
    if src.serialno = dest.serialno then []
    else store.propertiesOf src.serialno
  files : ∀ file ∈ store.files, file ∉ after.files →
    dest.sha1str = some file ∧ dbmsNumSha1Resources store file = 1
  serialno : newDest.serialno = dest.serialno

/-- The part of `sabridge_copy_medium` that removes a body. -/
theorem removed_spec (request : Request) (store : ContentStore)
    (dest : DavReposResource) :
    ∃ cleared, cleared = (match dest.sha1str with
        | some sha1str => sabridgeRemoveBodyFromDisk request store sha1str
        | none => store) ∧
      (∃ files, cleared = { store with files := files }) ∧
      ∀ file ∈ store.files, file ∉ cleared.files →
        dest.sha1str = some file ∧ dbmsNumSha1Resources store file = 1 := by
  refine ⟨_, rfl, ?_⟩
  cases hash : dest.sha1str with
  | none => exact ⟨⟨store.files, rfl⟩, fun file listed gone => (gone listed).elim⟩
  | some sha1str =>
      by_cases last : !request.keepFiles ∧
          dbmsNumSha1Resources store sha1str = 1
      · simp only [sabridgeRemoveBodyFromDisk, if_pos last]
        refine ⟨⟨_, rfl⟩, ?_⟩
        intro file listed gone
        have same : file = sha1str := by
          by_contra other
          exact gone (List.mem_filter.mpr ⟨listed, bne_iff_ne.mpr other⟩)
        rw [same]
        exact ⟨rfl, last.2⟩
      · simp only [sabridgeRemoveBodyFromDisk, if_neg last]
        exact ⟨⟨store.files, rfl⟩, fun file listed gone => (gone listed).elim⟩

theorem sabridgeCopyMedium_spec
    (copied : sabridgeCopyMedium request store src dest =
      .ok (after, newDest)) :
    ∃ name destName, CopiedMedium store after src dest newDest name destName := by
  rcases removed_spec request store dest with
    ⟨cleared, isCleared, ⟨removed, rfl⟩, bodies⟩
  unfold sabridgeCopyMedium at copied
  rw [← isCleared] at copied
  rcases bind_eq_ok.mp copied with ⟨⟨named, dest'⟩, renamed, rest⟩
  rcases copyDisplayname_spec renamed with ⟨name, destName, spec⟩
  rcases bind_eq_ok.mp rest with ⟨last, copiedDead, ends⟩
  rcases Prod.mk.inj (Except.ok.inj ends) with ⟨rfl, rfl⟩
  have serialno : dest'.serialno = dest.serialno := by
    rw [spec.newDest_eq]
  have media : named.mediaOf = store.mediaOf := by
    unfold ContentStore.mediaOf
    rw [spec.media]
  have dead : named.propertiesOf = store.propertiesOf := by
    unfold ContentStore.propertiesOf
    rw [spec.dead]
  have names : ∀ id, (dbmsCopyMediaProps request named src dest').1.displayname
      id = named.displayname id :=
    fun id => displayname_dbmsCopyMediaProps
  have rows := @mediaOf_dbmsCopyMediaProps request named src dest'
  have properties := propertiesOf_sabridgeCopyDeadProps copiedDead
  have otherProperties := fun id =>
    @propertiesOf_sabridgeCopyDeadProps_of_ne _ _ _ _ id copiedDead
  rcases sabridgeCopyDeadProps_eq_ok copiedDead with ⟨_, _, rfl, -⟩
  refine ⟨name, destName, ?_⟩
  constructor
  case isName => exact spec.isName
  case isDestName => exact spec.isDestName
  case sameGraph =>
      have cleared := sameGraph_contents store store.media store.dead
        store.deadResources removed
      apply (cleared.trans spec.sameGraph).trans
      apply sameGraph_dbmsCopyMediaProps.trans
      exact sameGraph_contents _ _ _ _ _
  case others =>
      intro id other
      have different : id ≠ dest'.serialno := serialno ▸ other
      apply Content.ext
      · exact (names id).trans
          (congrArg Content.displayname (spec.others id other))
      · exact (mediaOf_dbmsCopyMediaProps_of_ne different).trans
          (congrFun media id)
      · exact (otherProperties id different).trans (congrFun dead id)
  case displayname =>
      intro present
      exact (names _).trans (spec.displayname present)
  case mediaOf =>
      rw [← media, ← serialno]
      exact rows
  case propertiesOf =>
      rw [← dead, ← serialno]
      exact properties
  case files =>
      intro file listed gone
      apply bodies file listed
      rw [← spec.files]
      exact gone
  case serialno => exact serialno

/-- What of the record of the destination is another. -/
theorem sabridgeCopyMedium_dest
    (copied : sabridgeCopyMedium request store src dest =
      .ok (after, newDest)) :
    after.nextId = store.nextId ∧
      newDest = { dest with
        displayname := src.displayname
        updatedAt := some request.now
        getcontentlength := src.getcontentlength
        getcontenttype := src.getcontenttype
        sha1str := src.sha1str } := by
  rcases removed_spec request store dest with
    ⟨cleared, isCleared, ⟨removed, rfl⟩, -⟩
  unfold sabridgeCopyMedium at copied
  rw [← isCleared] at copied
  rcases bind_eq_ok.mp copied with ⟨⟨named, dest'⟩, renamed, rest⟩
  rcases copyDisplayname_eq_ok renamed with
    ⟨name, destName, isName, -, rfl, isNamed⟩
  rcases bind_eq_ok.mp rest with ⟨last, copiedDead, ends⟩
  rcases sabridgeCopyDeadProps_eq_ok copiedDead with ⟨_, _, rfl, -⟩
  rcases Prod.mk.inj (Except.ok.inj ends) with ⟨rfl, rfl⟩
  have nextId : named.nextId = store.nextId := by
    rw [isNamed]
    split <;> rfl
  refine ⟨nextId, ?_⟩
  rw [isName]

/-! ## Copies that succeed -/

theorem sabridgeCopyDeadProps_isOk
    (srcId : Id)
    (present : destId ∈ store.resources.map ResourceRow.id) :
    ∃ copied, sabridgeCopyDeadProps store srcId destId = .ok copied := by
  have known : destId ∈ store.dead.resources := store.deadResources ▸ present
  have succeeds : (DbmsProperties.sabridgeCopyDeadProps (fun _ => false)
      store.dead srcId destId).2 = none := by
    unfold DbmsProperties.sabridgeCopyDeadProps
      DbmsProperties.dbmsDeleteDeadProps
    rw [if_neg Bool.false_ne_true]
    unfold DbmsProperties.dbmsCopyDeadProps
    simp only
    rw [if_neg]
    rintro (fails | ⟨-, unknown⟩)
    · cases fails
    · exact unknown known
  unfold sabridgeCopyDeadProps
  simp only [succeeds]
  exact ⟨_, rfl⟩

/-- A medium with a name is copied to another resource with a name. -/
theorem sabridgeCopyMedium_isOk
    {name destName : Text}
    (isName : src.displayname = some name)
    (isDestName : dest.displayname = some destName)
    (present : dest.serialno ∈ store.resources.map ResourceRow.id) :
    ∃ copied, sabridgeCopyMedium request store src dest = .ok copied := by
  rcases removed_spec request store dest with
    ⟨cleared, isCleared, ⟨removed, rfl⟩, -⟩
  unfold sabridgeCopyMedium
  rw [← isCleared]
  have renames : ∃ renamed, copyDisplayname { store with files := removed }
      src dest = .ok renamed := by
    unfold copyDisplayname
    rw [isName, isDestName]
    by_cases same : name = destName
    · exact ⟨_, if_pos same⟩
    · exact ⟨_, if_neg same⟩
  rcases renames with ⟨⟨named, dest'⟩, renamed⟩
  rcases copyDisplayname_spec renamed with ⟨_, _, spec⟩
  have serialno : dest'.serialno = dest.serialno := by
    rw [spec.newDest_eq]
  have still : dest'.serialno ∈
      (dbmsCopyMediaProps request named src dest').1.resources.map
        ResourceRow.id := by
    rw [sameGraph_dbmsCopyMediaProps.ids, spec.sameGraph.ids, serialno]
    exact present
  rcases sabridgeCopyDeadProps_isOk src.serialno still with
    ⟨copied, properties⟩
  refine ⟨(copied, (dbmsCopyMediaProps request named src dest').2), ?_⟩
  apply bind_eq_ok.mpr
  exact ⟨(named, dest'), renamed, bind_eq_ok.mpr ⟨copied, properties, rfl⟩⟩

end Copies

end Limestone.CopyMedium
