import Limestone.BulkBinds
import Limestone.CopyIfCompatible
import Limestone.ListingOrder
import Limestone.MoveAsRebind

/-!
# COPY: `dav_repos_copy_resource`

The members that can be read below a collection are listed, and each of them
is copied when it is met for the first time; a hash from URIs to copies says
where the binds of the copies lead.  All binds are inserted by one statement,
and the copy of the collection is bound last.

What the database refuses makes its transaction fail, so that an error that
the code does not look at is the error of the copy.  The calls of
`dav_repos_vsn_control` and `sabridge_unbind_resource` are left out: a copy
that comes to one of them ends there.
-/

namespace Limestone.CopyTree

open Library
open BindInsert (BindEntry TimeText)
open BridgeProperty (DavReposResource columnText)
open CollectionChildren
open CopyMedium
open DbmsAcl
open DbmsBind
open DbmsDeltav (AutoversionType)
open InsertResource
open RestoreVcc
open VersionLinks (Libraries)

/-! ## Errors -/

/-- Why a copy has no result. -/
inductive Stop where
  | davError (err : DavError)
  | nullDereference
  /-- `sprintf` wrote past the end of its buffer. -/
  | overflow
  /-- A list is walked that a query has failed to write. -/
  | undefined
  /-- A function is called that is left out. -/
  | leftOut
deriving DecidableEq, Repr

def ofBridge {α : Type} (call : Except BridgeMkcol.Stop α) : Except Stop α :=
  call.mapError fun
    | .davError err => .davError err
    | .nullDereference => .nullDereference

def ofBindList {α : Type} (call : Except BindInsert.Stop α) : Except Stop α :=
  call.mapError fun
    | .davError err => .davError err
    | .overflow => .overflow

def httpMultiStatus : Nat := 207

def httpMethodNotAllowed : Nat := 405

/-- An element of the multi-status response. -/
structure DavResponse where
  href : Option Text
  status : Nat
  desc : String
deriving DecidableEq, Repr

/-- What a copy leaves. -/
structure Copied where
  store : ContentStore
  /-- `*p_response`. -/
  response : List DavResponse

/-- What a copy is made with. -/
structure Setting where
  libraries : Libraries
  request : Request
  /-- The new UUID for the resource that gets an id. -/
  newUuid : Id → Text
  updatedAt : TimeText
  acl : AclTables
  principal : DavPrincipal
  order : Sql.RowOrder DbmsCollection.MemberRow

/-- The request when the next resource is inserted. -/
def Setting.nextRequest (setting : Setting) (store : ContentStore) : Request :=
  { setting.request with uuid := setting.newUuid store.nextId }

/-! ## The tables of the listing -/

/-- The constraints of the schema that the listing rests on. -/
def Constraints (store : ContentStore) : Prop :=
  (∀ bind ∈ store.binds.rows,
    bind.collectionId ∈ store.resources.map BridgeProperty.ResourceRow.id ∧
    bind.resourceId ∈ store.resources.map BridgeProperty.ResourceRow.id) ∧
  (store.vhrs.map DbmsDeltav.Vhr.resourceId).Nodup ∧
  (∀ version ∈ store.versions,
    version.vhrId ∈ store.vhrs.map DbmsDeltav.Vhr.resourceId) ∧
  (∀ vhr ∈ store.vhrs, ∃ version ∈ store.versions,
    version.resourceId = vhr.rootVersionId ∧
      version.vhrId = vhr.resourceId) ∧
  (∀ version ∈ store.versions, ∀ row ∈ store.resources,
    row.id = version.resourceId →
      row.type = .version ∨ row.type = .collectionVersion) ∧
  (store.versions.map DbmsDeltav.Version.resourceId).Nodup ∧
  (store.vcrs.map DbmsDeltav.Vcr.checkedId).Nodup ∧
  ∀ version ∈ store.versions,
    version.resourceId ∈ store.resources.map BridgeProperty.ResourceRow.id

instance (store : ContentStore) : Decidable (Constraints store) :=
  inferInstanceAs (Decidable (_ ∧ _ ∧ _ ∧ _ ∧ _ ∧ _ ∧ _ ∧ _))

def listedResource (row : BridgeProperty.ResourceRow) :
    DbmsCollection.Resource where
  id := row.id
  resourcetype := row.type
  ownerId := row.ownerId
  creatorId := row.creatorId

def listedVersion (version : DbmsDeltav.Version) : DbmsCollection.Version where
  resourceId := version.resourceId
  number := version.number
  vhrId := version.vhrId

def listedVhr (vhr : DbmsDeltav.Vhr) : DbmsCollection.Vhr where
  resourceId := vhr.resourceId
  rootVersionId := vhr.rootVersionId

def listedVcr (vcr : DbmsDeltav.Vcr) : DbmsCollection.Vcr where
  resourceId := vcr.resourceId
  checkedId := vcr.checkedId
  vhrId := vcr.vhrId

/-- The tables as the listing reads them. -/
def listedTables (store : ContentStore) (constraints : Constraints store) :
    ListedTables where
  resources := store.resources.map listedResource
  binds := store.binds
  versions := store.versions.map listedVersion
  vhrs := store.vhrs.map listedVhr
  vcrs := store.vcrs.map listedVcr
  resourcesPkey := by
    rw [List.map_map]
    exact store.pkey
  vhrsResource := by
    rw [List.map_map]
    exact constraints.2.1
  fkBindCollection := by
    intro bind bound
    rw [List.map_map]
    exact (constraints.1 bind bound).1
  fkBindResource := by
    intro bind bound
    rw [List.map_map]
    exact (constraints.1 bind bound).2
  fkVersionVhr := by
    simp only [List.mem_map, forall_exists_index, and_imp,
      forall_apply_eq_imp_iff₂]
    intro version member
    rcases List.mem_map.mp (constraints.2.2.1 version member) with
      ⟨vhr, listed, same⟩
    exact ⟨listedVhr vhr, ⟨vhr, listed, rfl⟩, same⟩
  fkVhrRootVersion := by
    simp only [List.mem_map, forall_exists_index, and_imp,
      forall_apply_eq_imp_iff₂]
    intro vhr member
    rcases constraints.2.2.2.1 vhr member with ⟨version, listed, same⟩
    exact ⟨listedVersion version, ⟨version, listed, rfl⟩, same⟩
  versionType := by
    simp only [List.mem_map, forall_exists_index, and_imp,
      forall_apply_eq_imp_iff₂]
    exact constraints.2.2.2.2.1
  versionsResource := by
    rw [List.map_map]
    exact constraints.2.2.2.2.2.1
  vcrsChecked := by
    rw [List.map_map]
    exact constraints.2.2.2.2.2.2.1

/-- A record as it is passed to the listing. -/
def listedRoot (r : DavReposResource) (type : ResourceType) :
    DbmsCollection.DavReposResource where
  serialno := r.serialno
  resourcetype := type
  uri := r.uri
  parentId := 0
  bindId := r.bindId
  hasBind := false

/-- What `dbms_get_collection_resource` reads of a member. -/
def memberRecord (store : ContentStore) (root : DavReposResource)
    (item : DbmsCollection.DavReposResource) : DavReposResource :=
  let row := store.resources.find? fun row => row.id == item.serialno
  let media := store.media.find? fun row => row.resourceId == item.serialno
  let ofMedia {α : Type} (column empty : α) : α :=
    if hasBody item.resourcetype then column else empty
  { rootPath := root.rootPath
    serialno := item.serialno
    uri := item.uri
    bindId := item.bindId
    resourcetype := some item.resourcetype
    displayname := columnText (row.bind BridgeProperty.ResourceRow.displayname)
    getcontentlength :=
      ofMedia ((media.map BridgeProperty.MediaRow.size).getD 0) 0
    getcontenttype :=
      if item.resourcetype.isCollection then some BridgeProperty.dirMagicType
      else
        ofMedia (columnText (media.bind BridgeProperty.MediaRow.mimetype)) none
    sha1str :=
      ofMedia (columnText (media.map BridgeProperty.MediaRow.sha1)) none }

/-- A member of the list and its `bind`. -/
abbrev Member :=
  DavReposResource × Option Pointer

/--
`sabridge_get_collection_children`, where the number of rounds is one that
ends the listing; an empty result is that of a query that fails.
-/
def sabridgeGetCollectionChildren (setting : Setting) (store : ContentStore)
    (aclPriv : Option Text) (depth : Depth) (r : DavReposResource)
    (type : ResourceType) : Option (List Member) :=
  if constraints : Constraints store then
    (CollectionChildren.sabridgeGetCollectionChildren
      (2 * store.resources.length + 2) setting.order
      (listedTables store constraints).toRepoTables
      (privFilter setting.acl setting.principal aclPriv)
      (listedRoot r type) depth).map fun children =>
        children.linkHead.map fun entry =>
          (memberRecord store r entry.1, entry.2)
  else none

/-! ## New resources -/

/--
`sabridge_insert_resource` for a resource with a `parent`, whose bind is
delayed.
-/
def sabridgeInsertResource (request : Request) (store : ContentStore)
    (parent : DavReposResource) (type : ResourceType) (r : DavReposResource) :
    Except BridgeMkcol.Stop (ContentStore × DavReposResource) := do
  let (store, r) := dbmsInsertResource request store type
    (prepared request (some parent) r)
  let (store, r) ←
    (if hasBody type then sabridgeCreateEmptyBody request store r
    else .ok (store, r))
  if type = .collection ∨ type = .versionedCollection then
    return ({ store with
        collections := store.collections ++
          [⟨r.serialno, parent.avNewChildren⟩] },
      { r with avNewChildren := parent.avNewChildren })
  else return (store, r)

/-- The auto-versioning of a collection puts its new members under control. -/
def controlsChildren : Option AutoversionType → Bool
  | none | some .none => false
  | some _ => true

/-- The types that `sabridge_create_copy` copies to a plain resource. -/
def isMedium (type : Option ResourceType) : Bool :=
  type == some .resource || type == some .versioned || type == some .version

def isCollection (type : Option ResourceType) : Bool :=
  type == some .collection || type == some .versionedCollection

/-- `sabridge_create_copy`; for any other type nothing is created. -/
def sabridgeCreateCopy (setting : Setting) (store : ContentStore)
    (dbR copyParent : DavReposResource) :
    Except Stop (ContentStore × DavReposResource) :=
  let request := setting.nextRequest store
  let copy : DavReposResource :=
    { rootPath := dbR.rootPath
      displayname := dbR.displayname }
  if isMedium dbR.resourcetype then do
    let (store, copy) ← ofBridge
      (sabridgeInsertResource request store copyParent .resource copy)
    let (store, copy) ← ofBridge (sabridgeCopyMedium request store dbR copy)
    if controlsChildren copyParent.avNewChildren then
      -- `dav_repos_vsn_control`
      .error .leftOut
    else return (store, copy)
  else if isCollection dbR.resourcetype then do
    let (store, copy) ← ofBridge
      (sabridgeInsertResource request store copyParent .collection copy)
    ofBridge (sabridgeCopyCollection store dbR copy)
  else .ok (store, copy)

/-! ## The members of a collection -/

/-- `get_parent_uri`. -/
def getParentUri (libraries : Libraries) (uri : Text) : Text :=
  Search.chompSlash (libraries.makeDirstrParent uri)

/-- What the loop over the members keeps. -/
structure CopyState where
  store : ContentStore
  /-- `copy_map`, what was set last first. -/
  copyMap : List (Text × DavReposResource)
  dstInUse : List Id
  copyBindsList : List BindEntry
  response : List DavResponse

/-- What a pointer points to. -/
def pointedUri (rSrc : DavReposResource) (members : List Member) :
    Pointer → Option Text
  | .start => rSrc.uri
  | .item index => (members[index]?).bind fun member => member.1.uri

/--
The member of the destination that corresponds to `iter`, if it is there and
not used yet, and the copy onto it.
-/
def reuseChild (setting : Setting) (rSrc rDst : DavReposResource)
    (state : CopyState) (iter : DavReposResource) :
    Except Stop (CopyState × Option DavReposResource) := do
  let corrChild ← ofBridge (CopyMedium.sabridgeGetProperty state.store
    { rootPath := rDst.rootPath
      uri := some (rDst.uri.getD [] ++
        (iter.uri.getD []).drop (rSrc.uri.getD []).length) })
  if corrChild.serialno = 0 ∨ corrChild.serialno ∈ state.dstInUse then
    return (state, none)
  match CopyIfCompatible.sabridgeCopyIfCompatible setting.libraries
      setting.request state.store iter corrChild with
  | .error .nullDereference => .error .nullDereference
  | .error (.davError err) =>
      return ({ state with
          dstInUse := corrChild.serialno :: state.dstInUse
          response :=
            ⟨corrChild.uri, err.status, err.desc⟩ :: state.response },
        some corrChild)
  | .ok (store, corrChild, true) =>
      return ({ state with
          store := store
          dstInUse := corrChild.serialno :: state.dstInUse },
        some corrChild)
  | .ok (store, _, false) => return ({ state with store := store }, none)

/-- The copy that a member has before one is created. -/
def findCopy (setting : Setting) (rSrc rDst : DavReposResource)
    (members : List Member) (state : CopyState) (member : Member)
    (parentCopy : DavReposResource) :
    Except Stop (CopyState × Option DavReposResource × Bool) :=
  match member.2 with
  | some pointer =>
      .ok (state,
        (pointedUri rSrc members pointer).bind (List.lookup · state.copyMap),
        false)
  | none =>
      if parentCopy.serialno ∈ state.dstInUse then do
        let (state, copyRes) ← reuseChild setting rSrc rDst state member.1
        return (state, copyRes, copyRes.isSome)
      else .ok (state, none, false)

/--
The body of the loop.  Without a copy of the parent, NULL is looked into on
every way.
-/
def copyMember (setting : Setting) (rSrc rDst : DavReposResource)
    (members : List Member) (state : CopyState) (member : Member) :
    Except Stop CopyState :=
  let uri := member.1.uri.getD []
  match state.copyMap.lookup (getParentUri setting.libraries uri) with
  | none => .error .nullDereference
  | some parentCopy => do
      let (state, found, dstReused) ←
        findCopy setting rSrc rDst members state member parentCopy
      let (store, copyRes) ←
        match found with
        | some copyRes => .ok (state.store, copyRes)
        | none => sabridgeCreateCopy setting state.store member.1 parentCopy
      return { state with
        store := store
        copyMap := (uri, copyRes) :: state.copyMap
        copyBindsList :=
          if dstReused then state.copyBindsList
          else state.copyBindsList ++
            [⟨parentCopy.serialno, copyRes.serialno,
              basename uri⟩] }

/-! ## What is not in use -/

/-- What `sabridge_clear_unused` keeps. -/
structure ClearState where
  store : ContentStore
  /-- The list from `iter` on. -/
  list : List Member
  /-- `link_tail` is NULL. -/
  tailIsNull : Bool
  cleared : List Id

/--
The body of the loop.  A collection without members leaves NULL as the tail,
and the members of the next one are written behind it; a query that fails
writes nothing.
-/
def clearRound (setting : Setting) (inUse : List Id) (state : ClearState) :
    Except Stop ContentStore ⊕ ClearState :=
  match state.list with
  | [] => .inl (.ok state.store)
  | iter :: next =>
      let id := iter.1.serialno
      if id ∈ state.cleared then .inr { state with list := next }
      else if id ∈ inUse then
        if isCollection iter.1.resourcetype then
          if state.tailIsNull then .inl (.error .nullDereference)
          else
            let children := sabridgeGetCollectionChildren setting
              state.store none .one iter.1
              (iter.1.resourcetype.getD .collection)
            .inr
              { state with
                list := next ++ children.getD []
                tailIsNull := children == some []
                cleared := id :: state.cleared }
        else .inr { state with list := next, cleared := id :: state.cleared }
      else
        -- `sabridge_unbind_resource`
        .inl (.error .leftOut)

/--
`sabridge_clear_unused`: every bind of a collection in use is met once, so
that there are enough rounds.
-/
def sabridgeClearUnused (setting : Setting) (store : ContentStore)
    (res : DavReposResource) (inUse : List Id) : Except Stop ContentStore :=
  (Loop.run (clearRound setting inUse) (store.binds.rows.length + 2)
    ⟨store, [(res, none)], false, []⟩).getD (.error .undefined)

/-! ## Collections -/

/-- `sabridge_depth_inf_copy_coll`. -/
def sabridgeDepthInfCopyColl (setting : Setting) (store : ContentStore)
    (rSrc rDst : DavReposResource) : Except Stop Copied := do
  let members ←
    match sabridgeGetCollectionChildren setting store
        (some "read".toList) .infinity rSrc
        (rSrc.resourcetype.getD .collection) with
    | none => .error .undefined
    | some members => .ok members
  let state ← members.foldlM (copyMember setting rSrc rDst members)
    { store := store
      copyMap := [(rSrc.uri.getD [], rDst)]
      dstInUse := [rDst.serialno]
      copyBindsList := []
      response := [] }
  let store ← sabridgeClearUnused setting state.store rDst state.dstInUse
  if state.copyBindsList = [] then return ⟨store, state.response⟩
  let binds ← ofBindList (BindInsert.dbmsInsertBindList
    (resourceTable store) (bindSequence store) setting.updatedAt
    state.copyBindsList)
  return ⟨withBinds store binds, state.response⟩

/-- The destination is a collection or nothing yet. -/
def holdsMembers (rDst : DavReposResource) : Bool :=
  isCollection rDst.resourcetype || rDst.resourcetype == some .lockNull

/-- The parent of a new collection, and the collection without its bind. -/
def createCollection (setting : Setting) (store : ContentStore)
    (rDst : DavReposResource) :
    Except Stop (DavReposResource × ContentStore × DavReposResource) := do
  let dstParent ← ofBridge
    (sabridgeRetrieveParent setting.libraries store rDst)
  match ← ofBridge (findParent setting.libraries store dstParent.serialno
      rDst) with
  | none => .error .nullDereference
  | some parent =>
      let (store, rDst) ← ofBridge (sabridgeInsertResource
        (setting.nextRequest store) store parent .collection rDst)
      return (dstParent, store, rDst)

/-- `sabridge_copy_coll_w_create`. -/
def sabridgeCopyCollWCreate (setting : Setting) (store : ContentStore)
    (rSrc rDst : DavReposResource) (infinity : Bool) : Except Stop Copied :=
  let copyContent (store : ContentStore) (rDst : DavReposResource) :
      Except Stop Copied := do
    let store ← ofBridge
      (sabridgeCopyDeadProps store rSrc.serialno rDst.serialno)
    if infinity then sabridgeDepthInfCopyColl setting store rSrc rDst
    else return ⟨store, []⟩
  if rDst.serialno ≠ 0 ∧ holdsMembers rDst = true then copyContent store rDst
  else do
    let destPrevId := rDst.serialno
    let (dstParent, store, rDst) ← createCollection setting store rDst
    let ⟨store, response⟩ ← copyContent store rDst
    if destPrevId ≠ 0 then
      -- `sabridge_unbind_resource`
      .error .leftOut
    else do
      let store ← ofBridge ((dbmsInsertBind setting.request store
        rDst.serialno dstParent.serialno
        (basename (rDst.uri.getD []))).mapError .davError)
      return ⟨store, response⟩

/-! ## Media -/

/-- A destination that a medium is copied onto. -/
def holdsContent (rDst : DavReposResource) : Bool :=
  rDst.resourcetype == some .resource ||
    rDst.resourcetype == some .versioned ||
    rDst.resourcetype == some .lockNull

/-- `sabridge_copy_medium_w_create`. -/
def sabridgeCopyMediumWCreate (setting : Setting) (store : ContentStore)
    (rSrc rDst : DavReposResource) (parentId : Id) : Except Stop Copied :=
  if rDst.serialno ≠ 0 ∧ holdsContent rDst = false then
    -- `sabridge_unbind_resource`
    .error .leftOut
  else do
    let (store, rDst) ←
      (if rDst.serialno = 0 then
        ofBridge (InsertResource.sabridgeInsertResource setting.libraries
          (setting.nextRequest store) store parentId .resource rDst)
      else .ok (store, rDst))
    let (store, rDst) ←
      (if rDst.resourcetype = some .lockNull then
        ofBridge (sabridgeCreateEmptyBody setting.request store rDst)
      else .ok (store, rDst))
    let (store, _) ← ofBridge
      (sabridgeCopyMedium setting.request store rSrc rDst)
    return ⟨store, []⟩

/-! ## The function -/

/-- The types that `dav_repos_update_dbr_resource` makes a collection. -/
def isDirectory (type : Option ResourceType) : Bool :=
  isCollection type || type == some .collectionVersion

/-- `dav_repos_check_dst_parent`. -/
def davReposCheckDstParent (libraries : Libraries) (store : ContentStore)
    (dst : DavReposResource) : Except Stop DavReposResource :=
  match dst.uri with
  | none =>
      .error (.davError ⟨httpInternalServerError,
        "Could not fetch parent resource information."⟩)
  | some uri =>
      if uri = ['/'] then .error .nullDereference
      else
        match CopyMedium.sabridgeGetProperty store
            { rootPath := dst.rootPath
              uri := some
                (chompTrailingSlash (libraries.makeDirstrParent uri)) } with
        | .error .nullDereference => .error .nullDereference
        | .error (.davError err) =>
            .error (.davError ⟨err.status,
              "Could not fetch parent resource information."⟩)
        | .ok parent =>
            if parent.serialno = 0 ∨ isDirectory parent.resourcetype = false
            then .error (.davError ⟨httpConflict, "No parent collection."⟩)
            else .ok parent

/-- The types of a version or of a version history. -/
def isVersion (type : Option ResourceType) : Bool :=
  type == some .version || type == some .collectionVersion

/-- A record whose URI has no slash at its end. -/
def chomped (r : DavReposResource) : DavReposResource :=
  { r with uri := r.uri.map Search.chompSlash }

/-- `dav_repos_copy_resource`; `*p_response` is also what the error says. -/
def davReposCopyResource (setting : Setting) (store : ContentStore)
    (src dst : DavReposResource) (infinity : Bool) : Except Stop Copied :=
  if src.resourcetype = some .versionHistory ∨
      isVersion dst.resourcetype = true ∨
      dst.resourcetype = some .versionHistory then
    .error (.davError ⟨httpMethodNotAllowed,
      "Can not copy or move version resource."⟩)
  else do
    let parent ← davReposCheckDstParent setting.libraries store dst
    let dbRSrc := chomped src
    let dbRDst : DavReposResource :=
      { chomped dst with displayname := src.displayname }
    if dbRSrc.uri = dbRDst.uri then
      .error (.davError ⟨httpBadRequest,
        "Source and destination are same while copying DBMS."⟩)
    else if isMedium src.resourcetype then
      sabridgeCopyMediumWCreate setting store dbRSrc dbRDst parent.serialno
    else if isCollection src.resourcetype then
      sabridgeCopyCollWCreate setting store dbRSrc dbRDst infinity
    else .ok ⟨store, []⟩

/-- The error of a copy that ends: the response is its description. -/
def Copied.err (copied : Copied) : Option DavError :=
  if copied.response = [] then none
  else some ⟨httpMultiStatus, "Error copying"⟩

end Limestone.CopyTree
