import Limestone.BridgeUnbind
import Limestone.GetResource
import Limestone.RestoreVcc
import Limestone.Search

/-!
# New resources: `sabridge_insert_resource`

A new resource gets a row of `resources`, an empty body if it is a medium, and
a bind in the collection that its URI names.

The tables of the access control, of users and of groups are left out.
-/

namespace Limestone.InsertResource

open Library
open BridgeMkcol (Stop)
open BridgeProperty hiding sabridgeGetProperty
open CopyMedium
open DbmsBind
open GetResource
open VersionLinks (Libraries)

/-! ## The parent -/

/-- `dav_repos_chomp_trailing_slash`. -/
def chompTrailingSlash (uri : Text) : Text :=
  if 1 < uri.length then Search.chompSlash uri else uri

/--
`sabridge_retrieve_parent`, by what reads a property and by what stops the
call.  If the parent cannot be read, a `dav_resource` that is NULL is looked
into.
-/
def retrieveParent {ε ε' : Type} (libraries : Libraries)
    (getProperty : DavReposResource → Except ε DavReposResource)
    (nullDereference : ε') (dbR : DavReposResource) :
    Except ε' DavReposResource :=
  match dbR.uri with
  | none => .error nullDereference
  | some uri =>
      if uri = ['/'] then .error nullDereference
      else
        match getProperty
            { rootPath := dbR.rootPath
              uri := some
                (chompTrailingSlash (libraries.makeDirstrParent uri)) } with
        | .ok parent => .ok parent
        | .error _ => .error nullDereference

/-- `sabridge_retrieve_parent`. -/
def sabridgeRetrieveParent (libraries : Libraries) (store : ContentStore)
    (dbR : DavReposResource) : Except Stop DavReposResource :=
  retrieveParent libraries (sabridgeGetProperty store) .nullDereference dbR

/-- The `parent` of a new resource. -/
def findParent (libraries : Libraries) (store : ContentStore) (parentId : Id)
    (r : DavReposResource) : Except Stop (Option DavReposResource) :=
  if 0 < parentId then
    let parent := (dbmsGetResource false store.toPropertyTables
      { rootPath := r.rootPath, serialno := parentId }).1
    .ok (some (dbmsGetCollectionProps false store.toPropertyTables parent).1)
  else
    match r.uri with
    | none => .ok none
    | some _ => (sabridgeRetrieveParent libraries store r).map some

/-! ## The rows -/

/-- The record before the INSERT. -/
def prepared (request : Request) (parent : Option DavReposResource)
    (r : DavReposResource) : DavReposResource :=
  { r with
    uuid := some request.uuid
    createdAt := some request.now
    updatedAt := some request.now
    creatorId := request.principalId
    ownerId := if r.ownerId = 0 then request.principalId else r.ownerId
    displayname := some
      (match r.displayname, r.uri with
      | some displayname, _ => displayname
      | none, some uri => basename uri
      | none, none => [])
    getcontenttype := some
      (r.getcontenttype.getD "application/octet-stream".toList)
    limebarState :=
      match parent with
      | some parent => parent.limebarState
      | none => r.limebarState }

/-- The row that `dbms_insert_resource` inserts. -/
def resourceRow (request : Request) (id : Id) (type : ResourceType)
    (r : DavReposResource) : ResourceRow where
  id := id
  uuid := request.uuid
  createdAt := request.now
  displayname := r.displayname
  contentlanguage := r.getcontentlanguage.getD "en-US".toList
  comment := none
  type := type
  ownerId := r.ownerId
  creatorId := r.creatorId
  limebarState := r.limebarState
  lastmodified := some request.now

/-- A new row of `resources`, with the id of its sequence. -/
def ContentStore.insertRow (store : ContentStore) (row : ResourceRow)
    (isNext : row.id = store.nextId) : ContentStore :=
  { store with
    resources := store.resources ++ [row]
    nextId := store.nextId + 1
    nextIdPos := Int.lt_add_one_of_le (le_of_lt store.nextIdPos)
    ids := by
      intro other member
      rcases List.mem_append.mp member with old | isNew
      · have ids := store.ids other old
        exact ⟨ids.1, Int.lt_add_one_of_le (le_of_lt ids.2)⟩
      · rcases List.mem_singleton.mp isNew with rfl
        rw [isNext]
        exact ⟨store.nextIdPos, Int.lt_add_one_of_le le_rfl⟩
    pkey := Sql.nodup_key_append store.pkey
      (isNext ▸ Sql.next_not_mem fun other member => (store.ids other member).2)
    dead := { store.dead with
      resources := store.dead.resources ++ [row.id] }
    deadResources := by
      rw [store.deadResources, List.map_append]
      rfl }

/-- `dbms_insert_resource`. -/
def dbmsInsertResource (request : Request) (store : ContentStore)
    (type : ResourceType) (r : DavReposResource) :
    ContentStore × DavReposResource :=
  (ContentStore.insertRow store (resourceRow request store.nextId type r) rfl,
    { r with serialno := store.nextId, resourcetype := some type })

/-- The resources that have a body. -/
def hasBody (type : ResourceType) : Bool :=
  type == .resource || type == .versioned || type == .version

/-- `sabridge_insert_resource`; a collection without parent has NULL read. -/
def sabridgeInsertResource (libraries : Libraries) (request : Request)
    (store : ContentStore) (parentId : Id) (type : ResourceType)
    (r : DavReposResource) :
    Except Stop (ContentStore × DavReposResource) := do
  let parent ← findParent libraries store parentId r
  let (store, r) := dbmsInsertResource request store type
    (prepared request parent r)
  let (store, r) ←
    (if hasBody type then sabridgeCreateEmptyBody request store r
    else .ok (store, r))
  let (store, r) ←
    (if type = .collection ∨ type = .versionedCollection then
      match parent with
      | none => .error .nullDereference
      | some parent =>
          .ok ({ store with
              collections := store.collections ++
                [⟨r.serialno, parent.avNewChildren⟩] },
            { r with avNewChildren := parent.avNewChildren })
    else .ok (store, r))
  match r.uri, parent with
  | none, _ => .ok (store, r)
  | some _, none => .error .nullDereference
  | some uri, some parent =>
      match RestoreVcc.dbmsInsertBind request store r.serialno
          parent.serialno (basename uri) with
      | .error err => .error (.davError err)
      | .ok store => .ok (store, r)

/-! ## The new row -/

section Rows

variable {request : Request} {store after : ContentStore}
  {r newR : DavReposResource} {row : ResourceRow} {id : Id}
  {isNext : row.id = store.nextId}

/-- No row has the id that comes next. -/
theorem ne_nextId {other : ResourceRow} (listed : other ∈ store.resources) :
    other.id ≠ store.nextId :=
  Int.ne_of_lt (store.ids other listed).2

theorem find?_insertRow_of_ne (other : id ≠ store.nextId) :
    ((ContentStore.insertRow store row isNext).resources.find? fun row =>
        row.id == id) =
      store.resources.find? fun row => row.id == id := by
  show (store.resources ++ [row]).find? _ = _
  rw [List.find?_append]
  have none : [row].find? (fun row => row.id == id) = none := by
    rw [List.find?_cons_of_neg, List.find?_nil]
    rw [isNext, beq_iff_eq]
    exact fun same => other same.symm
  rw [none, Option.or_none]

theorem find?_insertRow :
    ((ContentStore.insertRow store row isNext).resources.find? fun row =>
        row.id == store.nextId) = some row := by
  show (store.resources ++ [row]).find? _ = _
  have none : (store.resources.find? fun row => row.id == store.nextId) =
      none := by
    apply List.find?_eq_none.mpr
    intro other listed
    rw [beq_iff_eq]
    exact ne_nextId listed
  rw [List.find?_append, none, Option.none_or, List.find?_cons_of_pos]
  rw [isNext, beq_self_eq_true]

theorem content_insertRow_of_ne (other : id ≠ store.nextId) :
    (ContentStore.insertRow store row isNext).content id =
      store.content id := by
  apply Content.ext
  · exact congrArg (·.bind ResourceRow.displayname)
      (find?_insertRow_of_ne other)
  · rfl
  · rfl

theorem displayname_insertRow :
    (ContentStore.insertRow store row isNext).displayname store.nextId =
      row.displayname :=
  congrArg (·.bind ResourceRow.displayname) find?_insertRow

/-- The store with one more row of `media`. -/
def withMedia (store : ContentStore) (row : MediaRow) : ContentStore :=
  { store with media := store.media ++ [row] }

theorem touches_withMedia (row : MediaRow) :
    Touches store (withMedia store row) row.resourceId where
  sameGraph := sameGraph_contents _ _ _ store.deadResources _
  others := by
    intro other isOther
    apply Content.ext
    · rfl
    · show ((store.media ++ [row]).filter _).map _ =
        (store.media.filter _).map _
      rw [List.filter_append, List.filter_cons_of_neg, List.filter_nil,
        List.append_nil]
      rw [beq_iff_eq]
      exact fun same => isOther same.symm
    · rfl
  files := fun _ listed => listed
  named := fun named => named

/-- An empty body touches the content of its resource, but no name. -/
structure CreatesBody (request : Request) (store after : ContentStore)
    (r newR : DavReposResource) : Prop where
  touches : Touches store after r.serialno
  displayname : ∀ id, after.displayname id = store.displayname id
  nextId : after.nextId = store.nextId
  newR_eq : newR = { r with
    sha1str := some emptySha1
    updatedAt := some request.now }

theorem createsBody_sabridgeCreateEmptyBody
    (created : sabridgeCreateEmptyBody request store r = .ok (after, newR)) :
    CreatesBody request store after r newR := by
  unfold sabridgeCreateEmptyBody at created
  rcases bind_eq_ok.mp created with ⟨⟨inserted, record⟩, isInserted, ends⟩
  rcases Prod.mk.inj (Except.ok.inj ends) with ⟨rfl, rfl⟩
  rcases Prod.mk.inj (Except.ok.inj isInserted) with ⟨rfl, rfl⟩
  have grown := @touches_withMedia store
    { resourceId := r.serialno
      size := r.getcontentlength
      mimetype := r.getcontenttype
      sha1 := emptySha1 }
  have notified (middle : ContentStore) (r : DavReposResource) (id : Id) :
      Touches middle (dbmsNotifyResourceUpdated middle r) id :=
    touches_dbmsNotifyResourceUpdated r
  constructor
  case touches =>
      apply grown.trans
      apply (notified _ _ _).trans
      exact
        { sameGraph := sameGraph_contents _ _ _ _ _
          others := fun _ _ => rfl
          files := fun _ listed => List.mem_insert_of_mem listed
          named := fun named => named }
  case displayname =>
      intro id
      exact congrArg Content.displayname
        (@content_dbmsNotifyResourceUpdated (withMedia store _) id _)
  case nextId => rfl
  case newR_eq => rfl

end Rows

/-! ## What is inserted -/

/-- What a new resource leaves of the store. -/
structure Inserted (store after : ContentStore) (type : ResourceType)
    (newR : DavReposResource) : Prop where
  serialno : newR.serialno = store.nextId
  nextId : after.nextId = store.nextId + 1
  types : after.resources.map (fun row => (row.id, row.type)) =
    store.resources.map (fun row => (row.id, row.type)) ++
      [(store.nextId, type)]
  others : ∀ id, id ≠ store.nextId → after.content id = store.content id
  displayname : after.displayname store.nextId = newR.displayname
  named : newR.displayname ≠ none
  versions : after.versions = store.versions
  vhrs : after.vhrs = store.vhrs
  vcrs : after.vcrs = store.vcrs
  files : ∀ file ∈ store.files, file ∈ after.files

/-- The new bind. -/
def IsBoundAs (store after : ContentStore) (collectionId resourceId : Id)
    (name : Text) : Prop :=
  ∃ bind : Bind, after.binds.rows = store.binds.rows ++ [bind] ∧
    bind.collectionId = collectionId ∧ bind.resourceId = resourceId ∧
    bind.name = name

section Inserts

variable {libraries : Libraries} {request : Request}
  {store after : ContentStore} {parentId : Id} {type : ResourceType}
  {r newR : DavReposResource} {uri : Text}

theorem dbmsInsertBind_eq_ok
    {resourceId collectionId : Id} {name : Text}
    (inserted : RestoreVcc.dbmsInsertBind request store resourceId
      collectionId name = .ok after) :
    (∃ binds, after = RestoreVcc.withBinds store binds) ∧
      IsBoundAs store after collectionId resourceId name := by
  unfold RestoreVcc.dbmsInsertBind BridgeMkcol.dbmsInsertBind at inserted
  split at inserted
  next fits =>
      rcases Except.ok.inj inserted with rfl
      exact ⟨⟨_, rfl⟩, _, rfl, rfl, rfl, rfl⟩
  next => cases inserted

/-- A bind that breaks no constraint is inserted. -/
theorem dbmsInsertBind_isOk
    {resourceId collectionId : Id} {name : Text}
    (fresh : (collectionId, name) ∉ store.binds.rows.map Bind.key)
    (resource : resourceId ∈ store.resources.map ResourceRow.id)
    (collection : collectionId ∈ store.resources.map ResourceRow.id)
    (short : name.length ≤ BridgeMkcol.maxNameLength) :
    ∃ after, RestoreVcc.dbmsInsertBind request store resourceId
      collectionId name = .ok after := by
  have ids : (RestoreVcc.resourceTable store).rows.map
      BridgeMkcol.ResourceRow.id = store.resources.map ResourceRow.id := by
    show (store.resources.map _).map _ = _
    rw [List.map_map]
    rfl
  unfold RestoreVcc.dbmsInsertBind BridgeMkcol.dbmsInsertBind
  rw [dif_pos ⟨fresh, ids ▸ resource, ids ▸ collection, short⟩]
  exact ⟨_, rfl⟩

/-- The step that makes the empty body. -/
theorem createsBody_step
    (stepped : (if hasBody type then sabridgeCreateEmptyBody request store r
      else .ok (store, r)) = .ok (after, newR)) :
    Touches store after r.serialno ∧
      (∀ id, after.displayname id = store.displayname id) ∧
      after.nextId = store.nextId ∧ newR.serialno = r.serialno ∧
      newR.displayname = r.displayname ∧ newR.uri = r.uri ∧
      newR.rootPath = r.rootPath := by
  split at stepped
  next =>
      have creates := createsBody_sabridgeCreateEmptyBody stepped
      rw [creates.newR_eq]
      exact ⟨creates.touches, creates.displayname, creates.nextId, rfl, rfl,
        rfl, rfl⟩
  next =>
      rcases Prod.mk.inj (Except.ok.inj stepped) with ⟨rfl, rfl⟩
      exact ⟨Touches.refl _ _, fun _ => rfl, rfl, rfl, rfl, rfl, rfl⟩

/-- The store after the INSERT of the row, and after that of the body. -/
theorem inserted_of_steps
    {middle : ContentStore} {row : ResourceRow}
    {binds : BridgeMkcol.BindSequence}
    (isNext : row.id = store.nextId)
    (touches : Touches (ContentStore.insertRow store row isNext) middle
      store.nextId)
    (displayname : ∀ id, middle.displayname id =
      (ContentStore.insertRow store row isNext).displayname id)
    (nextId : middle.nextId = store.nextId + 1)
    (serialno : newR.serialno = store.nextId)
    (isType : row.type = type)
    (isName : newR.displayname = row.displayname)
    (named : row.displayname ≠ none) :
    Inserted store (RestoreVcc.withBinds middle binds) type newR where
  serialno := serialno
  nextId := nextId
  types := by
    apply touches.sameGraph.types.trans
    show (store.resources ++ [row]).map _ = _
    rw [List.map_append, List.map_singleton, isNext, isType]
  others := fun id other =>
    (touches.others id other).trans (content_insertRow_of_ne other)
  displayname :=
    (displayname _).trans (displayname_insertRow.trans isName.symm)
  named := isName ▸ named
  versions := touches.sameGraph.versions
  vhrs := touches.sameGraph.vhrs
  vcrs := touches.sameGraph.vcrs
  files := touches.files

/-- A new resource that is no collection, at a URI. -/
theorem sabridgeInsertResource_spec
    (hasUri : r.uri = some uri)
    (noCollection : ¬ (type = .collection ∨ type = .versionedCollection))
    (inserted : sabridgeInsertResource libraries request store parentId type
      r = .ok (after, newR)) :
    ∃ parent, findParent libraries store parentId r = .ok (some parent) ∧
      Inserted store after type newR ∧
      IsBoundAs store after parent.serialno store.nextId
        (basename uri) ∧
      newR.uri = some uri ∧ newR.rootPath = r.rootPath := by
  unfold sabridgeInsertResource at inserted
  rcases bind_eq_ok.mp inserted with ⟨parent, found, rest⟩
  simp only at rest
  rcases bind_eq_ok.mp rest with ⟨⟨middle, record⟩, stepped, rest⟩
  rcases createsBody_step stepped with
    ⟨touches, displayname, nextId, serialno, isName, isUri, isRoot⟩
  simp only [if_neg noCollection] at rest
  have isUri' : record.uri = some uri := isUri.trans hasUri
  rcases bind_eq_ok.mp rest with ⟨⟨same, sameR⟩, unchanged, rest⟩
  rcases Prod.mk.inj (Except.ok.inj unchanged) with ⟨rfl, rfl⟩
  simp only [isUri'] at rest
  cases parent with
  | none => cases rest
  | some parent =>
      simp only at rest
      cases bound : RestoreVcc.dbmsInsertBind request middle record.serialno
          parent.serialno (basename uri) with
      | error err =>
          rw [bound] at rest
          cases rest
      | ok result =>
          rw [bound] at rest
          rcases Prod.mk.inj (Except.ok.inj rest) with ⟨rfl, rfl⟩
          rcases dbmsInsertBind_eq_ok bound with ⟨⟨binds, rfl⟩, isBound⟩
          refine ⟨parent, found, ?_, ?_, isUri', isRoot⟩
          · exact inserted_of_steps rfl touches displayname nextId serialno
              rfl isName (Option.some_ne_none _)
          · rcases isBound with ⟨bind, rows, collection, resource, name⟩
            refine ⟨bind, ?_, collection, resource.trans serialno, name⟩
            rw [rows, touches.sameGraph.binds]
            rfl

/-- Only the bind can break a constraint. -/
theorem sabridgeInsertResource_isOk
    {parent : DavReposResource}
    (hasUri : r.uri = some uri)
    (noCollection : ¬ (type = .collection ∨ type = .versionedCollection))
    (found : findParent libraries store parentId r = .ok (some parent))
    (fresh : (parent.serialno, basename uri) ∉
      store.binds.rows.map Bind.key)
    (collection : parent.serialno ∈ store.resources.map ResourceRow.id)
    (short : (basename uri).length ≤
      BridgeMkcol.maxNameLength) :
    ∃ result, sabridgeInsertResource libraries request store parentId type
      r = .ok result := by
  have steps : ∃ middle record,
      (if hasBody type then
        sabridgeCreateEmptyBody request
          (dbmsInsertResource request store type
            (prepared request (some parent) r)).1
          (dbmsInsertResource request store type
            (prepared request (some parent) r)).2
      else .ok (dbmsInsertResource request store type
        (prepared request (some parent) r))) = .ok (middle, record) := by
    split
    · exact ⟨_, _, rfl⟩
    · exact ⟨_, _, rfl⟩
  rcases steps with ⟨middle, record, stepped⟩
  rcases createsBody_step stepped with
    ⟨touches, -, -, serialno, -, isUri, -⟩
  have ids : middle.resources.map ResourceRow.id =
      store.resources.map ResourceRow.id ++ [store.nextId] := by
    apply touches.sameGraph.ids.trans
    show (store.resources ++ [_]).map _ = _
    rw [List.map_append]
    rfl
  have isUri' : record.uri = some uri := isUri.trans hasUri
  have isSerialno : record.serialno = store.nextId := serialno
  rcases @dbmsInsertBind_isOk request middle record.serialno parent.serialno
    (basename uri)
    (by
      rw [touches.sameGraph.binds]
      exact fresh)
    (by
      rw [ids, isSerialno]
      exact List.mem_append_right _ List.mem_cons_self)
    (by
      rw [ids]
      exact List.mem_append_left _ collection)
    short with ⟨after, bound⟩
  refine ⟨(after, record), ?_⟩
  unfold sabridgeInsertResource
  apply bind_eq_ok.mpr
  refine ⟨some parent, found, ?_⟩
  simp only
  apply bind_eq_ok.mpr
  refine ⟨(middle, record), stepped, ?_⟩
  simp only [if_neg noCollection]
  apply bind_eq_ok.mpr
  refine ⟨(middle, record), rfl, ?_⟩
  simp only [isUri', bound]

end Inserts

end Limestone.InsertResource
