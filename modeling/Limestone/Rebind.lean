import Limestone.AclPaths
import Limestone.InsertResource

/-!
# A bind that is moved: `dav_repos_rebind_resource`

A MOVE deletes the bind of the target, gives the bind of the source the place
of it, collects what has been overwritten and reads both resources again.  The
record of the target is the one that was read before: where it had an id, the
resource with that id is read, and not the one that its URI leads to now.

Bodies, dead properties, quotas, locks and bookkeeping columns are left out.
Apart from the name of the moved bind, the texts that are written fit their
columns, and the database executes every statement that breaks no constraint.
-/

namespace Limestone.Rebind

open Library
open Library.Segments
open BridgeMkcol (Stop)
open BridgeProperty hiding sabridgeGetProperty
open CopyMedium (id_notified notified updatedMedia)
open DbmsBind
open DbmsLookup
open VersionLinks (Libraries)

/-! ## Tables -/

/-- The tables of the properties, of the inheritance of ACLs, and `cleanup`. -/
structure RebindStore extends PropertyTables where
  resourcesPkey : (resources.map ResourceRow.id).Nodup
  fkBindCollection : ∀ bind ∈ binds.rows,
    bind.collectionId ∈ resources.map ResourceRow.id
  fkBindResource : ∀ bind ∈ binds.rows,
    bind.resourceId ∈ resources.map ResourceRow.id
  nameLength : ∀ bind ∈ binds.rows,
    bind.name.length ≤ BridgeMkcol.maxNameLength
  acl : AclPaths.AclTable
  /-- `resource_id` of the rows of `cleanup`. -/
  cleanup : List Id

/-- The ids of the resources. -/
def RebindStore.ids (store : RebindStore) : List Id :=
  store.resources.map ResourceRow.id

/-- The type of a resource. -/
def RebindStore.typeOf (store : RebindStore) (id : Id) : Option ResourceType :=
  (store.resources.find? fun row => row.id == id).map ResourceRow.type

/-- What a request brings with it, and the functions of other modules. -/
structure Request where
  now : Text
  /-- `use_gc`. -/
  useGc : Bool
  orders : BridgeUnbind.RowOrders
  libraries : Libraries
  /-- `dav_repos_mime_type_ext_map`. -/
  mimeTypeExtMap : Text → Option Text
  /-- `guess_mime_type`. -/
  guessMimeType : Text → Option Text
  /-- `generate_path`, which makes a directory. -/
  generatePath : Text → Except DavError Text

/-- Why a call does not come to its end. -/
inductive Failure where
  | stopped (stop : Stop)
  /-- A loop goes on, or what happens is undefined. -/
  | running
deriving DecidableEq, Repr

/-- A call that returns an error or goes on. -/
def returned {α : Type} (err : Option DavError) (value : α) :
    Except Failure α :=
  match err with
  | some err => .error (.stopped (.davError err))
  | none => .ok value

/-- The error of a statement. -/
def failed {α : Type} (desc : String) : Except Failure α :=
  .error (.stopped (.davError ⟨httpInternalServerError, desc⟩))

/-! ## Records -/

/-- `sabridge_get_property`. -/
def sabridgeGetProperty (tables : PropertyTables) (r : DavReposResource) :
    Except Failure DavReposResource :=
  match BridgeProperty.sabridgeGetProperty false tables r with
  | .undefined => .error (.stopped .nullDereference)
  | .returned r err => returned err r

/-- The record for a URI, as `dav_repos_get_resource` reads it. -/
def getResource (tables : PropertyTables) (rootPath uri : Text) :
    Except Failure DavReposResource :=
  sabridgeGetProperty tables (newResource rootPath (rootPath ++ uri))

/-- `sabridge_retrieve_parent`. -/
def sabridgeRetrieveParent (libraries : Libraries) (tables : PropertyTables)
    (dbR : DavReposResource) : Except Failure DavReposResource :=
  InsertResource.retrieveParent libraries (sabridgeGetProperty tables)
    (.stopped .nullDereference) dbR

/-- `exists` of the `dav_resource` of a record that was read. -/
def existsResource (dbR : DavReposResource) : Bool :=
  dbR.serialno != 0 && dbR.resourcetype != some .lockNull

/-- The text behind the last dot, if there is one. -/
def extension (filename : Text) : Option Text :=
  if '.' ∈ filename then some ((filename.splitOn '.').getLastD []) else none

/-- `get_mime_type`. -/
def getMimeType (request : Request) (uri path : Text) : Option Text :=
  match (extension (basename uri)).bind request.mimeTypeExtMap with
  | some mimeType => some mimeType
  | none => request.guessMimeType path

/-! ## Binds -/

/-- `dbms_delete_bind`. -/
def dbmsDeleteBind (store : RebindStore) (collId resId : Id)
    (bindName : Text) : RebindStore :=
  { store with
    binds := store.binds.keep fun bind =>
      !(bind.collectionId == collId && bind.resourceId == resId &&
        bind.name == bindName)
    fkBindCollection := fun bind member =>
      store.fkBindCollection bind (List.mem_of_mem_filter member)
    fkBindResource := fun bind member =>
      store.fkBindResource bind (List.mem_of_mem_filter member)
    nameLength := fun bind member =>
      store.nameLength bind (List.mem_of_mem_filter member) }

/-- A row after the UPDATE of `dbms_rebind_resource`. -/
def rebound (srcParentId : Id) (srcBindName : Text) (dstParentId : Id)
    (name now : Text) (bind : Bind) : Bind :=
  if bind.key = (srcParentId, srcBindName) then
    { bind with
      collectionId := dstParentId
      name := name
      updatedAt := some now }
  else bind

theorem id_rebound
    (srcParentId : Id)
    (srcBindName : Text)
    (dstParentId : Id)
    (name now : Text)
    (bind : Bind) :
    (rebound srcParentId srcBindName dstParentId name now bind).id =
      bind.id := by
  unfold rebound
  split
  · rfl
  · rfl

theorem resourceId_rebound
    (srcParentId : Id)
    (srcBindName : Text)
    (dstParentId : Id)
    (name now : Text)
    (bind : Bind) :
    (rebound srcParentId srcBindName dstParentId name now bind).resourceId =
      bind.resourceId := by
  unfold rebound
  split
  · rfl
  · rfl

theorem length_name_rebound
    {srcParentId dstParentId : Id}
    {srcBindName name now : Text}
    {bind : Bind}
    (short : name.length ≤ BridgeMkcol.maxNameLength)
    (wasShort : bind.name.length ≤ BridgeMkcol.maxNameLength) :
    (rebound srcParentId srcBindName dstParentId name now bind).name.length ≤
      BridgeMkcol.maxNameLength := by
  unfold rebound
  split
  · exact short
  · exact wasShort

/-- `dbms_rebind_resource`; the column `name` may cut blanks off. -/
def dbmsRebindResource (request : Request) (store : RebindStore)
    (srcParentId : Id) (srcBindName : Text) (dstParentId : Id)
    (dstBindName : Text) : Except Failure RebindStore :=
  match taken : DbmsProperties.varchar BridgeMkcol.maxNameLength
      dstBindName with
  | none => failed "Could update binds to rebind"
  | some name =>
      let change := rebound srcParentId srcBindName dstParentId name request.now
      let rows := store.binds.rows.map change
      if valid : (rows.map Bind.key).Nodup ∧
          (rows.all fun bind =>
            decide (bind.collectionId ∈ store.ids)) = true then
        .ok
          { store with
            binds :=
              { rows := rows
                pkey := by
                  have same : rows.map Bind.id =
                      store.binds.rows.map Bind.id := by
                    rw [List.map_map]
                    exact List.map_congr_left fun bind _ => id_rebound ..
                  exact same ▸ store.binds.pkey
                collectionIdKey := valid.1
                positive := by
                  intro bind member
                  rcases List.mem_map.mp member with ⟨old, listed, rfl⟩
                  rw [id_rebound, resourceId_rebound]
                  exact store.binds.positive old listed }
            fkBindCollection := fun bind member =>
              of_decide_eq_true (List.all_eq_true.mp valid.2 bind member)
            fkBindResource := by
              intro bind member
              rcases List.mem_map.mp member with ⟨old, listed, rfl⟩
              rw [resourceId_rebound]
              exact store.fkBindResource old listed
            nameLength := by
              intro bind member
              rcases List.mem_map.mp member with ⟨old, listed, rfl⟩
              exact length_name_rebound (DbmsProperties.varchar_length taken)
                (store.nameLength old listed) }
      else failed "Could update binds to rebind"

/-! ## What has been overwritten -/

/-- The tables that the walk over orphans works on. -/
def graphOf (store : RebindStore) : BridgeUnbind.GraphStore where
  resources := store.resources.map fun row => (row.id, row.type)
  binds := store.binds
  vhrs := store.vhrs.map fun vhr => ⟨vhr.resourceId, vhr.rootVersionId⟩
  versions := store.versions.map fun version =>
    ⟨version.resourceId, version.number, version.vhrId⟩
  vcrs := store.vcrs.map fun vcr => ⟨vcr.resourceId, vcr.checkedId, vcr.vhrId⟩
  resourcesPkey := by
    rw [List.map_map]
    exact store.resourcesPkey
  fkBindCollection := by
    rw [List.map_map]
    exact store.fkBindCollection
  fkBindResource := by
    rw [List.map_map]
    exact store.fkBindResource

/-- The row of a resource that the walk has left, with its type then. -/
def leftRow (graph : BridgeUnbind.GraphStore) (row : ResourceRow) :
    Option ResourceRow :=
  (graph.resources.find? fun entry => entry.1 == row.id).map fun entry =>
    { row with type := entry.2 }

theorem id_of_leftRow
    {graph : BridgeUnbind.GraphStore} {row left : ResourceRow}
    (isLeft : leftRow graph row = some left) :
    left.id = row.id := by
  rcases Option.map_eq_some_iff.mp isLeft with ⟨entry, -, rfl⟩
  rfl

theorem filterMap_leftRow_sublist
    (graph : BridgeUnbind.GraphStore)
    (rows : List ResourceRow) :
    ((rows.filterMap (leftRow graph)).map ResourceRow.id).Sublist
      (rows.map ResourceRow.id) := by
  induction rows with
  | nil => exact List.Sublist.slnil
  | cons row rows induction =>
      cases left : leftRow graph row with
      | none =>
          rw [List.filterMap_cons_none left]
          exact induction.cons _
      | some kept =>
          rw [List.filterMap_cons_some left, List.map_cons, List.map_cons,
            id_of_leftRow left]
          exact induction.cons_cons _

/-- A row with such an id has not been deleted. -/
def RebindStore.keeps (store : RebindStore) (graph : BridgeUnbind.GraphStore)
    (id : Id) : Bool :=
  !decide (id ∈ store.ids) || decide (id ∈ graph.ids)

/-- The tables after the walk; the foreign keys of all tables cascade. -/
def RebindStore.restrict (store : RebindStore)
    (graph : BridgeUnbind.GraphStore) : RebindStore :=
  let resources := store.resources.filterMap (leftRow graph)
  let ids := resources.map ResourceRow.id
  { binds := store.binds.keep fun bind =>
      decide (bind ∈ graph.binds.rows) && decide (bind.collectionId ∈ ids) &&
        decide (bind.resourceId ∈ ids)
    resources := resources
    redirectrefs := store.redirectrefs.filter fun row =>
      store.keeps graph row.resourceId
    collections := store.collections.filter fun row =>
      store.keeps graph row.resourceId
    media := store.media.filter fun row => store.keeps graph row.resourceId
    principals := store.principals.filter fun row =>
      store.keeps graph row.resourceId
    versions := store.versions.filter fun version =>
      decide (⟨version.resourceId, version.number, version.vhrId⟩ ∈
        graph.versions)
    vhrs := store.vhrs.filter fun vhr =>
      decide (⟨vhr.resourceId, vhr.rootVersionId⟩ ∈ graph.vhrs)
    vcrs := store.vcrs.filter fun vcr =>
      decide (⟨vcr.resourceId, vcr.checkedId, vcr.vhrId⟩ ∈ graph.vcrs)
    resourcesPkey :=
      store.resourcesPkey.sublist (filterMap_leftRow_sublist graph _)
    fkBindCollection := by
      intro bind member
      have kept := (List.mem_filter.mp member).2
      simp only [Bool.and_eq_true, decide_eq_true_eq] at kept
      exact kept.1.2
    fkBindResource := by
      intro bind member
      have kept := (List.mem_filter.mp member).2
      simp only [Bool.and_eq_true, decide_eq_true_eq] at kept
      exact kept.2
    nameLength := fun bind member =>
      store.nameLength bind (List.mem_of_mem_filter member)
    acl :=
      { rows := store.acl.rows.filter fun row =>
          store.keeps graph row.resourceId
        pkey := store.acl.pkey.sublist
          (List.filter_sublist.map AclPaths.AclRow.resourceId) }
    cleanup := store.cleanup.filter (store.keeps graph) }

/-- The text of the query of `dbms_insert_cleanup_reqs`. -/
def cleanupQuery : List Id → String
  | [] => ""
  | id :: ids =>
      "INSERT INTO cleanup(resource_id)  SELECT id FROM (SELECT " ++
        toString id ++ " AS id " ++
        String.join (ids.map fun other =>
          " UNION SELECT " ++ toString other ++ " ") ++
        ")t "

/-- `dbms_insert_cleanup_reqs`; a row of `cleanup` is for a resource. -/
def dbmsInsertCleanupReqs (order : Sql.RowOrder Id) (store : RebindStore)
    (ids : List Id) : Except Failure RebindStore :=
  if ids.all fun id => decide (id ∈ store.ids) then
    .ok { store with cleanup := store.cleanup ++ order.arrange 0 ids.dedup }
  else failed (cleanupQuery ids)

/--
`sabridge_unbind_resource` for a record without a URI.  With garbage
collection the resource is only listed in `cleanup`.
-/
def sabridgeUnbindResource (request : Request) (fuel : Nat)
    (store : RebindStore) (dbR : DavReposResource) :
    Except Failure RebindStore :=
  if request.useGc then
    dbmsInsertCleanupReqs (Sql.RowOrder.stored Id) store [dbR.serialno]
  else
    match BridgeUnbind.sabridgeUnbindResource fuel request.orders
        (graphOf store)
        { serialno := dbR.serialno
          -- a record that has been read has a type
          resourcetype := dbR.resourcetype.getD .lockNull
          uri := none
          parentId := 0
          bindId := dbR.bindId
          hasBind := false } with
    | none => .error .running
    | some graph => .ok (store.restrict graph)

/-! ## The properties of the body -/

theorem map_id_notified
    (touched : List Id)
    (updatedAt : Option Text)
    (rows : List ResourceRow) :
    (rows.map (notified touched updatedAt)).map ResourceRow.id =
      rows.map ResourceRow.id := by
  rw [List.map_map]
  exact List.map_congr_left fun row _ => id_notified ..

/-- `dbms_notify_resource_updated`. -/
def dbmsNotifyResourceUpdated (store : RebindStore) (r : DavReposResource) :
    RebindStore :=
  let touched := CopyMedium.ancestors store.binds.rows
    store.binds.rows.length [r.serialno]
  { store with
    resources := store.resources.map (notified touched r.updatedAt)
    resourcesPkey := by
      rw [map_id_notified]
      exact store.resourcesPkey
    fkBindCollection := by
      rw [map_id_notified]
      exact store.fkBindCollection
    fkBindResource := by
      rw [map_id_notified]
      exact store.fkBindResource }

/-- `dbms_update_media_props` for a record with a hash. -/
def dbmsUpdateMediaProps (request : Request) (store : RebindStore)
    (r : DavReposResource) (sha1 : Text) : RebindStore × DavReposResource :=
  let r := { r with updatedAt := some request.now }
  let updated := { store with media := store.media.map (updatedMedia r sha1) }
  (dbmsNotifyResourceUpdated updated r, r)

/-- The MIME type of a plain resource that has been moved. -/
def updateMimeType (request : Request) (store : RebindStore)
    (newBind : DavReposResource) :
    Except Failure (RebindStore × DavReposResource) :=
  if newBind.resourcetype = some .resource then
    match newBind.sha1str with
    | none => .error (.stopped .nullDereference)
    | some sha1 =>
        match request.generatePath sha1 with
        | .error err => .error (.stopped (.davError err))
        | .ok path =>
            .ok (dbmsUpdateMediaProps request store
              { newBind with
                getcontenttype :=
                  getMimeType request (newBind.uri.getD []) path }
              sha1)
  else .ok (store, newBind)

/-- `dbms_change_acl_parent`. -/
def dbmsChangeAclParent (store : RebindStore) (serialno newParentId : Id) :
    Except Failure RebindStore :=
  match AclPaths.dbmsChangeAclParent store.acl serialno newParentId with
  | .error err => .error (.stopped (.davError err))
  | .ok acl => .ok { store with acl := acl }

/-! ## The function -/

/-- The tables and the records that are left. -/
structure Rebound where
  store : RebindStore
  href : DavReposResource
  newBind : DavReposResource

/-- The statements that change `binds`, up to the collection of orphans. -/
def moveBind (request : Request) (fuel : Nat) (store : RebindStore)
    (parentId coll : Id) (name segment : Text) (newBind : DavReposResource) :
    Except Failure RebindStore :=
  if existsResource newBind then do
    let store ← dbmsRebindResource request
      (dbmsDeleteBind store coll newBind.serialno segment) parentId name coll
      segment
    sabridgeUnbindResource request fuel store newBind
  else dbmsRebindResource request store parentId name coll segment

/-- `dav_repos_rebind_resource`, where `coll` is the id of the collection. -/
def davReposRebindResource (request : Request) (fuel : Nat)
    (store : RebindStore) (coll : Id) (segment : Text)
    (href newBind : DavReposResource) : Except Failure Rebound := do
  let parent ← sabridgeRetrieveParent request.libraries
    store.toPropertyTables href
  let store ← moveBind request fuel store parent.serialno coll
    (basename (href.uri.getD [])) segment newBind
  let href ← sabridgeGetProperty store.toPropertyTables href
  let newBind ← sabridgeGetProperty store.toPropertyTables newBind
  let (store, newBind) ← updateMimeType request store newBind
  let store ← dbmsChangeAclParent store href.serialno coll
  return ⟨store, href, newBind⟩

end Limestone.Rebind
