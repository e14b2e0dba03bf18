import Limestone.GetResource
import Limestone.RestoreVcc

/-!
# A medium that is checked out and in again: `dav_repos_uncheckout`

A check-out writes the state only.  What was changed since is undone by copying
the version into the resource, and the version is found through the URI of its
bind in the collection of the history, not through `checked_id`.
-/

namespace Limestone.MediumUncheckout

open Library
open BridgeMkcol (Stop)
open BridgeProperty (DavReposResource MediaRow ResourceRow)
open CopyMedium
open DbmsBind
open DbmsDeltav (CheckedState Vcr Version)
open DbmsProperties (DavReposProperty ElementName varchar)
open GetResource
open RestoreVcc
open StatementExecution (Driver)

/-! ## Changes -/

/-- A column `displayname character varying(1024)`, that may be NULL. -/
def displaynameColumn : Option Text → Option (Option Text)
  | none => some none
  | some displayname => (varchar 1024 displayname).map some

def propertyError : DavError :=
  ⟨httpInternalServerError, "Couldn't set live props"⟩

/-- `dbms_set_property`. -/
def dbmsSetProperty (store : ContentStore) (r : DavReposResource) :
    Except Stop ContentStore :=
  let contentlanguage := r.getcontentlanguage.getD "en-US".toList
  match r.createdAt, displaynameColumn r.displayname, r.uuid,
      varchar 255 contentlanguage, r.resourcetype with
  | some createdAt, some displayname, some uuid, some contentlanguage,
      some type =>
      .ok (store.updateResources
        (fun row =>
          if row.id = r.serialno then
            { row with
              createdAt := createdAt
              displayname := displayname
              uuid := uuid
              contentlanguage := contentlanguage
              type := type
              creatorId := r.creatorId
              ownerId := r.ownerId }
          else row)
        (fun row => by split <;> rfl))
  | _, _, _, _, _ => .error (.davError propertyError)

/-- `sabridge_put_resource_file`; the file of the same hash is replaced. -/
def sabridgePutResourceFile (store : ContentStore) (sha1str : Text) :
    ContentStore :=
  { store with files := store.files.insert sha1str }

/-- What is received for a PUT. -/
structure Body where
  getcontentlength : Nat
  getcontenttype : Option Text
  sha1str : Text
deriving DecidableEq, Repr

/-- `dav_repos_close_stream` with `commit`, for resources with a body. -/
def davReposCloseStream (request : Request) (store : ContentStore)
    (dbR : DavReposResource) (body : Body) : Except Stop ContentStore := do
  let (store, dbR) ←
    (if dbR.resourcetype = some .lockNull then do
      let (store, dbR) ← sabridgeCreateEmptyBody request store dbR
      return (store, { dbR with resourcetype := some .resource })
    else .ok (store, dbR))
  if dbR.resourcetype = some .resource ∨
      dbR.resourcetype = some .versioned then do
    let dbR := { dbR with
      getcontenttype := body.getcontenttype
      sha1str := some body.sha1str
      getcontentlength := body.getcontentlength }
    let store ← dbmsSetProperty store dbR
    let (store, _) ← dbmsUpdateMediaProps request store dbR
    return sabridgePutResourceFile store body.sha1str
  else .ok store

/-- A new row of `namespaces`. -/
def insertNamespace (tables : DbmsProperties.PropertyTables)
    (namespaceId : Id) (name : Text)
    (fresh : namespaceId ∉ tables.namespaces.map Prod.fst) :
    DbmsProperties.PropertyTables :=
  { tables with
    namespaces := tables.namespaces ++ [(namespaceId, name)]
    namespaceKeys := Sql.nodup_key_append tables.namespaceKeys fresh
    namespaceExists := fun row member => by
      rw [List.map_append]
      exact List.mem_append_left _ (tables.namespaceExists row member) }

/--
`dbms_get_ns_id`, with what `namespaces_id_seq` gives next.  The INSERT fails
if it is an id that the table has.
-/
def dbmsGetNsId (tables : DbmsProperties.PropertyTables) (nextId : Id)
    (namespaceName : Text) :
    Except DavError (DbmsProperties.PropertyTables × Id) :=
  match tables.namespaces.find? fun row => row.2 == namespaceName with
  | some row => .ok (tables, row.1)
  | none =>
      if fresh : nextId ∉ tables.namespaces.map Prod.fst then
        .ok (insertNamespace tables nextId namespaceName fresh, nextId)
      else
        .error ⟨httpInternalServerError, "Could not insert namespace"⟩

theorem resources_dbmsGetNsId
    {tables named : DbmsProperties.PropertyTables} {nextId nsId : Id}
    {namespaceName : Text}
    (given : dbmsGetNsId tables nextId namespaceName = .ok (named, nsId)) :
    named.resources = tables.resources ∧
      named.properties = tables.properties := by
  unfold dbmsGetNsId at given
  split at given
  · cases given
    exact ⟨rfl, rfl⟩
  · split at given
    · cases given
      exact ⟨rfl, rfl⟩
    · cases given

theorem resources_dbmsSetDeadProperty
    (tables : DbmsProperties.PropertyTables) (serialno : Id)
    (pr : DavReposProperty) :
    (DbmsProperties.dbmsSetDeadProperty (fun _ => false) tables serialno
      pr).1.resources = tables.resources := by
  unfold DbmsProperties.dbmsSetDeadProperty DbmsProperties.dbInsertProperty
  simp only [Bool.false_eq_true, if_false]
  split
  · split <;> rfl
  · split
    · rfl
    · split <;> rfl

/-- The store with other dead properties. -/
def withDead (store : ContentStore) (dead : DbmsProperties.PropertyTables)
    (same : dead.resources = store.dead.resources) : ContentStore :=
  { store with
    dead := dead
    deadResources := same.trans store.deadResources }

/-- `dav_repos_db_store`. -/
def davReposDbStore (store : ContentStore) (dbR : DavReposResource)
    (nextNsId : Id) (namespaceName : Text) (name : ElementName)
    (xmlinfo value : Text) : Except Stop ContentStore :=
  match given : dbmsGetNsId store.dead nextNsId namespaceName with
  | .error err => .error (.davError err)
  | .ok (tables, nsId) =>
      let pr : DavReposProperty :=
        { nsId := nsId, name := name, xmlinfo := some xmlinfo
          value := some value }
      let set := DbmsProperties.dbmsSetDeadProperty (fun _ => false) tables
        dbR.serialno pr
      returned set.2 (withDead store set.1
        ((resources_dbmsSetDeadProperty tables dbR.serialno pr).trans
          (resources_dbmsGetNsId given).1))

/-- `dav_repos_db_remove`. -/
def davReposDbRemove (store : ContentStore) (dbR : DavReposResource)
    (nextNsId : Id) (namespaceName : Text) (name : ElementName) :
    Except Stop ContentStore :=
  match given : dbmsGetNsId store.dead nextNsId namespaceName with
  | .error err => .error (.davError err)
  | .ok (tables, nsId) =>
      .ok (withDead store
        (DbmsProperties.dbmsDelDeadProperty (fun _ => false) tables
          dbR.serialno nsId name).1
        (resources_dbmsGetNsId given).1)

/-- A change of a resource that is checked out. -/
inductive Change where
  | put (body : Body)
  | setDeadProperty (nextNsId : Id) (namespaceName : Text)
      (name : ElementName) (xmlinfo value : Text)
  | removeDeadProperty (nextNsId : Id) (namespaceName : Text)
      (name : ElementName)
  | setDisplayname (displayname : Text)
deriving DecidableEq, Repr

/-- A change of the resource with the record `dbR`. -/
def Change.perform (request : Request) (store : ContentStore)
    (dbR : DavReposResource) : Change → Except Stop ContentStore
  | .put body => davReposCloseStream request store dbR body
  | .setDeadProperty nextNsId namespaceName name xmlinfo value =>
      davReposDbStore store dbR nextNsId namespaceName name xmlinfo value
  | .removeDeadProperty nextNsId namespaceName name =>
      davReposDbRemove store dbR nextNsId namespaceName name
  | .setDisplayname displayname =>
      dbmsSetProperty store { dbR with displayname := some displayname }

/-- A request; one that fails is rolled back. -/
def serve (rootPath uri : Text) (store : ContentStore)
    (change : Request × Change) : ContentStore :=
  let done := do
    let dbR ← getResource store rootPath uri
    change.2.perform change.1 store dbR
  match done with
  | .ok changed => changed
  | .error _ => store

/-! ## What is to hold -/

/-- A check-out, some changes and an uncheckout, each with its own record. -/
def checkoutAndUncheckout (driver : Driver ContentStore) (request : Request)
    (rootPath uri : Text) (store : ContentStore)
    (changes : List (Request × Change)) : Except Stop ContentStore := do
  let dbR ← getResource store rootPath uri
  let (checkedOut, _) ← davReposCheckout store dbR
  let changed := changes.foldl (serve rootPath uri) checkedOut
  let dbR ← getResource changed rootPath uri
  let (after, _) ← davReposUncheckout driver request changed dbR
  return after

/-- The resource holds its version again, and all others what they held. -/
structure Restored (before after : ContentStore) (vcr : Vcr) : Prop where
  vcrs : after.vcrs = before.vcrs
  versions : after.versions = before.versions
  vhrs : after.vhrs = before.vhrs
  content : after.content vcr.resourceId = before.content vcr.checkedId
  others : ∀ id, id ≠ vcr.resourceId → after.content id = before.content id
  bodies : ∀ id, id ≠ vcr.resourceId → ∀ medium ∈ before.mediaOf id,
    medium.2.2 ∈ before.files → medium.2.2 ∈ after.files

/-- A medium of a URI that is checked in at a version. -/
structure IsCheckedIn (store : ContentStore) (uri : Text) (vcr : Vcr)
    (version : Version) : Prop where
  leads : LeadsTo store.binds.rows uri vcr.resourceId
  vcrsKey : (store.vcrs.map Vcr.resourceId).Nodup
  listed : vcr ∈ store.vcrs
  checkedIn : vcr.checkedState = .checkedIn
  versionsKey : (store.versions.map Version.resourceId).Nodup
  versionListed : version ∈ store.versions
  isVersion : version.resourceId = vcr.checkedId
  isVersioned : typeOf store vcr.resourceId = some .versioned
  versionType : typeOf store vcr.checkedId = some .version
  historyType : typeOf store vcr.vhrId = some .versionHistory
  /-- A version has a row of `media`. -/
  versionMedia : store.mediaOf vcr.checkedId ≠ []
  /-- Only resources with a body have rows of `media`. -/
  redirectMedia : ∀ id, typeOf store id = some .redirect →
    store.mediaOf id = []
  /-- A resource is created with a name. -/
  named : ∀ row ∈ store.resources, row.displayname ≠ none

/-- The URI of a version behind the root path. -/
def versionPath (vcr : Vcr) (version : Version) : Text :=
  VersionLinks.sabridgeMkVersionUri [] vcr.vhrId version.number

/-- The URI of the version leads to what the version holds. -/
def VersionIsFound (store : ContentStore) (vcr : Vcr) (version : Version) :
    Prop :=
  ∃ id, LeadsTo store.binds.rows (versionPath vcr version) id ∧
    id ≠ vcr.resourceId ∧ store.content id = store.content vcr.checkedId ∧
    IsNumbered store id

/-! ## What a change touches -/

section Changes

variable {request : Request} {store middle after : ContentStore}
  {dbR newDbR : DavReposResource} {id : Id} {rootPath uri : Text}

/-- What `dbms_set_property` writes into a row. -/
theorem dbmsSetProperty_eq_ok
    (set : dbmsSetProperty store dbR = .ok after) :
    ∃ type change, ∃ keepsId : ∀ row : ResourceRow, (change row).id = row.id,
      dbR.resourcetype = some type ∧
      after = store.updateResources change keepsId ∧
      ∀ row, change row = row ∧ row.id ≠ dbR.serialno ∨
        row.id = dbR.serialno ∧ (change row).type = type ∧
          (dbR.displayname ≠ none → (change row).displayname ≠ none) := by
  unfold dbmsSetProperty at set
  simp only at set
  split at set
  next createdAt displayname uuid contentlanguage type _ isName _ _ isType =>
      refine ⟨type, _, _, isType, (Except.ok.inj set).symm, ?_⟩
      intro row
      by_cases same : row.id = dbR.serialno
      · right
        rw [if_pos same]
        refine ⟨same, rfl, fun named => ?_⟩
        show displayname ≠ none
        cases given : dbR.displayname with
        | none => exact absurd given named
        | some name =>
            rw [given] at isName
            rcases Option.map_eq_some_iff.mp isName with ⟨column, -, rfl⟩
            exact Option.some_ne_none column
      · left
        exact ⟨if_neg same, same⟩
  next => cases set

theorem touches_dbmsSetProperty
    (isType : dbR.resourcetype = typeOf store dbR.serialno)
    (isNamed : dbR.displayname ≠ none)
    (set : dbmsSetProperty store dbR = .ok after) :
    Touches store after dbR.serialno := by
  rcases dbmsSetProperty_eq_ok set with
    ⟨type, change, keepsId, isSet, rfl, rows⟩
  rw [isSet] at isType
  constructor
  · apply sameGraph_updateResources
    intro row listed
    rcases rows row with ⟨kept, -⟩ | ⟨same, written, -⟩
    · rw [kept]
    · rw [written]
      rw [← same, typeOf_of_mem listed] at isType
      exact Option.some.inj isType
  · intro other isOther
    apply content_updateResources
    intro row _ same
    rcases rows row with ⟨kept, -⟩ | ⟨written, -, -⟩
    · rw [kept]
    · exact absurd (same.symm.trans written) isOther
  · exact fun _ listed => listed
  · intro named row member
    rcases List.mem_map.mp member with ⟨old, listed, rfl⟩
    rcases rows old with ⟨kept, -⟩ | ⟨-, -, isName⟩
    · rw [kept]
      exact named old listed
    · exact isName isNamed

/-- An update of the rows of one resource in `media`. -/
theorem touches_dbmsUpdateMediaProps
    (updated : dbmsUpdateMediaProps request store dbR =
      .ok (after, newDbR)) :
    Touches store after dbR.serialno := by
  unfold dbmsUpdateMediaProps at updated
  split at updated
  next => cases updated
  next sha1 isSha1 =>
      rcases Prod.mk.inj (Except.ok.inj updated) with ⟨rfl, -⟩
      apply Touches.trans _ (touches_dbmsNotifyResourceUpdated _)
      constructor
      · exact sameGraph_contents _ _ _ store.deadResources _
      · intro other isOther
        have rows : (store.media.map fun row =>
            if row.resourceId = dbR.serialno then
              { row with
                size := dbR.getcontentlength
                mimetype := dbR.getcontenttype
                sha1 := sha1 }
            else row).filter (fun row => row.resourceId == other) =
              store.media.filter fun row => row.resourceId == other :=
          Sql.filter_key_map
            (fun row _ => by split <;> rfl)
            (fun row _ same => if_neg (same ▸ isOther))
        apply Content.ext
        · rfl
        · exact congrArg (List.map _) rows
        · rfl
      · exact fun _ listed => listed
      · exact fun named => named

theorem touches_withDead
    {dead : DbmsProperties.PropertyTables}
    (same : dead.resources = store.dead.resources)
    (rows : ∀ other, other ≠ id →
      (dead.properties.filter fun row => row.resourceId == other) =
        store.dead.properties.filter fun row => row.resourceId == other) :
    Touches store (withDead store dead same) id where
  sameGraph := sameGraph_contents _ _ _ (same.trans store.deadResources) _
  others := by
    intro other isOther
    apply Content.ext
    · rfl
    · rfl
    · exact congrArg (List.map _) (rows other isOther)
  files := fun _ listed => listed
  named := fun named => named

theorem hasKey_resourceId
    {row : DbmsProperties.Property} {serialno nsId : Id} {name : Text}
    (hasKey : row.hasKey serialno nsId name = true) :
    row.resourceId = serialno := by
  have key := DeadProperties.hasKey_iff.mp hasKey
  exact (Prod.mk.inj key).1

/-- The rows of another resource after a set. -/
theorem filter_dbmsSetDeadProperty
    {tables : DbmsProperties.PropertyTables} {pr : DavReposProperty}
    {serialno other : Id}
    (isOther : other ≠ serialno) :
    ((DbmsProperties.dbmsSetDeadProperty (fun _ => false) tables serialno
        pr).1.properties.filter fun row => row.resourceId == other) =
      tables.properties.filter fun row => row.resourceId == other := by
  rcases DeadProperties.dbmsSetDeadProperty_cases (fun _ => false) tables
    serialno pr with ⟨-, kept⟩ | ⟨-, xmlinfo, value, -, -, written⟩
  · rw [kept]
  · rcases written with ⟨-, assigned⟩ | ⟨-, inserted⟩
    · rw [assigned]
      apply Sql.filter_key_map
      · intro row _
        split <;> rfl
      · intro row _ same
        apply if_neg
        intro hasKey
        exact isOther (same.symm.trans (hasKey_resourceId hasKey))
    · rw [inserted, List.filter_append]
      have none : [DeadProperties.newRow tables serialno pr xmlinfo
          value].filter (fun row => row.resourceId == other) = [] := by
        rw [List.filter_cons_of_neg, List.filter_nil]
        rw [beq_iff_eq]
        exact fun same => isOther same.symm
      rw [none, List.append_nil]

/-- The rows of another resource after a removal. -/
theorem filter_dbmsDelDeadProperty
    {tables : DbmsProperties.PropertyTables} {serialno nsId other : Id}
    {name : ElementName}
    (isOther : other ≠ serialno) :
    ((DbmsProperties.dbmsDelDeadProperty (fun _ => false) tables serialno
        nsId name).1.properties.filter fun row => row.resourceId == other) =
      tables.properties.filter fun row => row.resourceId == other := by
  rcases DeadProperties.dbmsDelDeadProperty_cases (fun _ => false) tables
    serialno nsId name with kept | deleted
  · rw [kept]
  · rw [deleted]
    show ((tables.properties.filter _).filter _) = _
    rw [List.filter_filter]
    apply List.filter_congr
    intro row _
    by_cases same : row.resourceId = other
    · have noKey : row.hasKey serialno nsId name.text = false := by
        rw [← Bool.not_eq_true]
        intro hasKey
        exact isOther (same.symm.trans (hasKey_resourceId hasKey))
      rw [noKey, Bool.not_false, Bool.and_true]
    · rw [beq_eq_false_iff_ne.mpr same, Bool.false_and]

theorem touches_davReposDbStore
    {nextNsId : Id} {namespaceName xmlinfo value : Text} {name : ElementName}
    (stored : davReposDbStore store dbR nextNsId namespaceName name xmlinfo
      value = .ok after) :
    Touches store after dbR.serialno := by
  unfold davReposDbStore at stored
  split at stored
  next => cases stored
  next tables nsId given =>
      rw [returned_eq_ok] at stored
      rw [← stored.2]
      apply touches_withDead
      intro other isOther
      rw [filter_dbmsSetDeadProperty isOther,
        (resources_dbmsGetNsId given).2]

theorem touches_davReposDbRemove
    {nextNsId : Id} {namespaceName : Text} {name : ElementName}
    (removed : davReposDbRemove store dbR nextNsId namespaceName name =
      .ok after) :
    Touches store after dbR.serialno := by
  unfold davReposDbRemove at removed
  split at removed
  next => cases removed
  next tables nsId given =>
      rw [← Except.ok.inj removed]
      apply touches_withDead
      intro other isOther
      rw [filter_dbmsDelDeadProperty isOther,
        (resources_dbmsGetNsId given).2]

theorem touches_davReposCloseStream
    {body : Body}
    (versioned : dbR.resourcetype = some .versioned)
    (isType : dbR.resourcetype = typeOf store dbR.serialno)
    (isNamed : dbR.displayname ≠ none)
    (closed : davReposCloseStream request store dbR body = .ok after) :
    Touches store after dbR.serialno := by
  have noLockNull : ¬ dbR.resourcetype = some .lockNull := by
    rw [versioned]
    decide
  unfold davReposCloseStream at closed
  rw [if_neg noLockNull] at closed
  rcases bind_eq_ok.mp closed with ⟨⟨same, record⟩, unchanged, rest⟩
  rcases Prod.mk.inj (Except.ok.inj unchanged) with ⟨rfl, rfl⟩
  simp only at rest
  rw [if_pos (Or.inr versioned)] at rest
  rcases bind_eq_ok.mp rest with ⟨written, set, media⟩
  rcases bind_eq_ok.mp media with ⟨⟨updated, _⟩, isUpdated, put⟩
  rw [← Except.ok.inj put]
  have first : Touches store written dbR.serialno := by
    refine touches_dbmsSetProperty ?_ ?_ set
    · exact isType
    · exact isNamed
  have second := touches_dbmsUpdateMediaProps isUpdated
  apply (first.trans second).trans
  exact
    { sameGraph := sameGraph_contents _ _ _ updated.deadResources _
      others := fun _ _ => rfl
      files := fun _ listed => List.mem_insert_of_mem listed
      named := fun named => named }

/-- What a change does to the resource of its record. -/
theorem touches_perform
    (change : Change)
    (versioned : dbR.resourcetype = some .versioned)
    (isType : dbR.resourcetype = typeOf store dbR.serialno)
    (isNamed : dbR.displayname ≠ none)
    (performed : change.perform request store dbR = .ok after) :
    Touches store after dbR.serialno := by
  cases change with
  | put body =>
      exact touches_davReposCloseStream versioned isType isNamed performed
  | setDeadProperty nextNsId namespaceName name xmlinfo value =>
      exact touches_davReposDbStore performed
  | removeDeadProperty nextNsId namespaceName name =>
      exact touches_davReposDbRemove performed
  | setDisplayname displayname =>
      exact @touches_dbmsSetProperty store after
        { dbR with displayname := some displayname } isType
          (Option.some_ne_none displayname) performed

theorem touches_serve
    (leads : LeadsTo store.binds.rows uri id)
    (versioned : typeOf store id = some .versioned)
    (named : ∀ row ∈ store.resources, row.displayname ≠ none)
    (change : Request × Change) :
    Touches store (serve rootPath uri store change) id := by
  unfold serve
  simp only
  split
  next changed done =>
      rcases bind_eq_ok.mp done with ⟨dbR, read, performed⟩
      have isRecord := isRecordOf_getResource leads read
      have isNamed : dbR.displayname ≠ none := by
        rw [isRecord.displayname, readDisplayname_eq named]
        exact displayname_ne_none named versioned
      have touches := touches_perform change.2
        (isRecord.resourcetype.trans versioned)
        (isRecord.serialno.symm ▸ isRecord.resourcetype) isNamed performed
      exact isRecord.serialno ▸ touches
  next => exact Touches.refl store id

/-- The changes of a whole run. -/
theorem touches_foldl_serve
    (changes : List (Request × Change))
    (leads : LeadsTo store.binds.rows uri id)
    (versioned : typeOf store id = some .versioned)
    (named : ∀ row ∈ store.resources, row.displayname ≠ none) :
    Touches store (changes.foldl (serve rootPath uri) store) id := by
  induction changes generalizing store with
  | nil => exact Touches.refl store id
  | cons change changes induction =>
      have first := @touches_serve store id rootPath uri leads versioned named
        change
      apply first.trans
      apply induction
      · rw [first.sameGraph.binds]
        exact leads
      · rw [typeOf_of_sameGraph first.sameGraph]
        exact versioned
      · exact first.named named

end Changes

/-! ## The URI of the version -/

theorem sabridgeMkVersionUri_eq
    (rootPath : Text) (vcr : Vcr) (version : Version) :
    VersionLinks.sabridgeMkVersionUri rootPath vcr.vhrId version.number =
      rootPath ++ versionPath vcr version := by
  simp only [versionPath, VersionLinks.sabridgeMkVersionUri,
    VersionLinks.historyDir, List.append_assoc, List.nil_append]

theorem head?_versionPath (vcr : Vcr) (version : Version) :
    (versionPath vcr version).head? = some '/' :=
  rfl

theorem noQuestion_versionPath (vcr : Vcr) (version : Version) :
    '?' ∉ versionPath vcr version := by
  have number (value : Int) : '?' ∉ (toString value).toList := by
    intro member
    rcases SqlText.mem_toString member with digit | dash
    · exact absurd digit (by decide)
    · exact absurd dash (by decide)
  have directory : '?' ∉ "/history/".toList := by decide
  unfold versionPath VersionLinks.sabridgeMkVersionUri VersionLinks.historyDir
  simp only [List.mem_append, List.mem_cons, number, directory, or_false]
  rintro (empty | slash)
  · cases empty
  · exact absurd slash (by decide)

/-! ## The run before the uncheckout -/

section Session

variable {driver : Driver ContentStore} {request : Request}
  {rootPath uri : Text} {store changed : ContentStore} {vcr : Vcr}
  {version : Version} {dbR : DavReposResource}

/-- The row of the resource while it is checked out. -/
def checkedOut (vcr : Vcr) : Vcr :=
  { vcr with checkedState := .checkedOut }

/-- The store after a check-out and some changes. -/
structure IsChanged (store changed : ContentStore) (vcr : Vcr) : Prop where
  binds : changed.binds = store.binds
  types : ∀ id, typeOf changed id = typeOf store id
  versions : changed.versions = store.versions
  vhrs : changed.vhrs = store.vhrs
  vcrs : changed.vcrs =
    store.vcrs.map (setState .checkedOut vcr.resourceId vcr.checkedId)
  others : ∀ id, id ≠ vcr.resourceId →
    changed.content id = store.content id
  files : ∀ file ∈ store.files, file ∈ changed.files
  named : ∀ row ∈ changed.resources, row.displayname ≠ none

theorem find?_version
    (isCheckedIn : IsCheckedIn store uri vcr version) :
    (store.versions.find? fun row => row.resourceId == vcr.checkedId) =
      some version := by
  rw [← isCheckedIn.isVersion]
  cases found : store.versions.find? fun row =>
      row.resourceId == version.resourceId with
  | none =>
      exact absurd (beq_self_eq_true version.resourceId)
        (List.find?_eq_none.mp found version isCheckedIn.versionListed)
  | some row =>
      have same := List.find?_some found
      rw [beq_iff_eq] at same
      rw [List.inj_on_of_nodup_map isCheckedIn.versionsKey
        (List.mem_of_find?_eq_some found) isCheckedIn.versionListed same]

/-- A check-out succeeds and writes the state. -/
theorem exists_checkedOut
    (isCheckedIn : IsCheckedIn store uri vcr version) :
    ∃ dbR newDbR, getResource store rootPath uri = .ok dbR ∧
      davReposCheckout store dbR =
        .ok ({ store with
            vcrs := store.vcrs.map
              (setState .checkedOut vcr.resourceId vcr.checkedId) },
          newDbR) := by
  rcases @getResource_of_vcr store rootPath uri vcr version isCheckedIn.leads
    isCheckedIn.isVersioned
    (find?_vcr isCheckedIn.vcrsKey isCheckedIn.listed)
    (find?_version isCheckedIn) with ⟨dbR, read, isRecord⟩
  have checkedOut := davReposCheckout_of_checkedIn isRecord
    isCheckedIn.checkedIn isCheckedIn.historyType
    (Int.ne_of_gt (typeOf_pos isCheckedIn.versionType))
  exact ⟨dbR, { dbR with checkedState := .checkedOut }, read, checkedOut⟩

theorem isChanged_foldl_serve
    (isCheckedIn : IsCheckedIn store uri vcr version)
    (changes : List (Request × Change)) :
    IsChanged store (changes.foldl (serve rootPath uri) { store with
      vcrs := store.vcrs.map
        (setState .checkedOut vcr.resourceId vcr.checkedId) }) vcr := by
  have touches := @touches_foldl_serve
    { store with
      vcrs := store.vcrs.map
        (setState .checkedOut vcr.resourceId vcr.checkedId) }
    vcr.resourceId rootPath uri changes isCheckedIn.leads
    isCheckedIn.isVersioned isCheckedIn.named
  exact
    { binds := touches.sameGraph.binds
      types := fun id => typeOf_of_sameGraph touches.sameGraph id
      versions := touches.sameGraph.versions
      vhrs := touches.sameGraph.vhrs
      vcrs := touches.sameGraph.vcrs
      others := touches.others
      files := touches.files
      named := touches.named isCheckedIn.named }

/-- The resource is read as checked out from its version. -/
theorem getResource_of_isChanged
    (isCheckedIn : IsCheckedIn store uri vcr version)
    (isChanged : IsChanged store changed vcr) :
    ∃ dbR, getResource changed rootPath uri = .ok dbR ∧
      IsVcrRecord changed rootPath (checkedOut vcr) version.number dbR := by
  have isVcr := find?_vcr isCheckedIn.vcrsKey isCheckedIn.listed
  apply @getResource_of_vcr changed rootPath uri (checkedOut vcr) version
  case leads =>
      rw [isChanged.binds]
      exact isCheckedIn.leads
  case versioned => exact (isChanged.types _).trans isCheckedIn.isVersioned
  case isVcr =>
      rw [isChanged.vcrs]
      apply find?_map_setState.trans
      show (store.vcrs.find? fun row =>
        row.resourceId == vcr.resourceId).map _ = _
      rw [isVcr]
      exact congrArg some (if_pos rfl)
  case isVersion =>
      have isVersion := find?_version isCheckedIn
      rw [isChanged.versions]
      exact isVersion

/-- The record and the store that the uncheckout begins with. -/
theorem exists_isChanged
    (isCheckedIn : IsCheckedIn store uri vcr version)
    (driver : Driver ContentStore) (request : Request)
    (changes : List (Request × Change)) :
    ∃ changed dbR, IsChanged store changed vcr ∧
      IsVcrRecord changed rootPath (checkedOut vcr) version.number dbR ∧
      checkoutAndUncheckout driver request rootPath uri store changes =
        (davReposUncheckout driver request changed dbR).map Prod.fst := by
  rcases @exists_checkedOut rootPath uri store vcr version isCheckedIn with
    ⟨dbR, newDbR, read, isOut⟩
  have isChanged := @isChanged_foldl_serve rootPath uri store vcr version
    isCheckedIn changes
  rcases @getResource_of_isChanged rootPath uri store _ vcr version
    isCheckedIn isChanged with ⟨changedDbR, readAgain, isRecord⟩
  refine ⟨_, changedDbR, isChanged, isRecord, ?_⟩
  have begun : checkoutAndUncheckout driver request rootPath uri store
      changes = do
        let dbR ← getResource (changes.foldl (serve rootPath uri) { store with
          vcrs := store.vcrs.map
            (setState .checkedOut vcr.resourceId vcr.checkedId) }) rootPath uri
        let (after, _) ← davReposUncheckout driver request
          (changes.foldl (serve rootPath uri) { store with
            vcrs := store.vcrs.map
              (setState .checkedOut vcr.resourceId vcr.checkedId) }) dbR
        return after := by
    unfold checkoutAndUncheckout
    rw [read]
    show (davReposCheckout store dbR >>= _) = _
    rw [isOut]
    rfl
  rw [begun, readAgain]
  show (davReposUncheckout driver request _ changedDbR >>= _) = _
  cases davReposUncheckout driver request _ changedDbR <;> rfl

/-! ## The uncheckout -/

/-- The uncheckout copies what the URI of the version leads to. -/
theorem davReposUncheckout_eq_ok_iff
    {after : ContentStore}
    (isCheckedIn : IsCheckedIn store uri vcr version)
    (isChanged : IsChanged store changed vcr)
    (isRecord : IsVcrRecord changed rootPath (checkedOut vcr) version.number
      dbR) :
    (davReposUncheckout driver request changed dbR).map Prod.fst =
        .ok after ↔
      ∃ source copied newDbR,
        getResource changed rootPath (versionPath vcr version) = .ok source ∧
        sabridgeCopyMedium request changed source dbR =
          .ok (copied, newDbR) ∧
        after = { copied with
          vcrs := copied.vcrs.map
            (setState .checkedIn vcr.resourceId vcr.checkedId) } := by
  rcases getVhr_isOk isRecord ((isChanged.types _).trans
    isCheckedIn.historyType) with ⟨vhr, isVhr, isHistory⟩
  have version' : getCheckedVersion changed vhr dbR =
      getResource changed rootPath (versionPath vcr version) := by
    unfold getCheckedVersion getResource
    rw [isHistory.rootPath, isHistory.serialno, isRecord.rootPath,
      isRecord.vrNum]
    show sabridgeGetProperty changed _ = sabridgeGetProperty changed _
    rw [← sabridgeMkVersionUri_eq]
    rfl
  have medium : dbR.resourcetype = some .versioned :=
    isRecord.resourcetype.trans
      ((isChanged.types _).trans isCheckedIn.isVersioned)
  have state : ¬ dbR.checkedState ≠ .checkedOut :=
    not_not.mpr isRecord.checkedState
  have set {copied : ContentStore} {newDbR source : DavReposResource}
      (isCopied : sabridgeCopyMedium request changed source dbR =
        .ok (copied, newDbR)) :
      ∃ last, dbmsSetCheckinOut copied newDbR .checkedIn newDbR.vrNum =
        .ok ({ copied with
          vcrs := copied.vcrs.map
            (setState .checkedIn vcr.resourceId vcr.checkedId) }, last) := by
    rcases sabridgeCopyMedium_dest isCopied with ⟨-, isDest⟩
    have serialno : newDbR.serialno = vcr.resourceId := by
      rw [isDest]
      exact isRecord.serialno
    have checkedId : newDbR.checkedId = vcr.checkedId := by
      rw [isDest]
      exact isRecord.checkedId
    refine ⟨{ newDbR with checkedState := .checkedIn }, ?_⟩
    rw [dbmsSetCheckinOut_same, serialno, checkedId]
    rw [checkedId]
    exact Int.ne_of_gt (typeOf_pos isCheckedIn.versionType)
  have unfolded : davReposUncheckout driver request changed dbR = (do
      let source ← getResource changed rootPath (versionPath vcr version)
      let (copied, newDbR) ← sabridgeCopyMedium request changed source dbR
      dbmsSetCheckinOut copied newDbR .checkedIn newDbR.vrNum) := by
    unfold davReposUncheckout
    rw [if_neg state, isVhr]
    show (getCheckedVersion changed vhr dbR >>= _) = _
    rw [version']
    unfold restore
    rw [medium]
  rw [unfolded]
  constructor
  · intro succeeds
    cases ends : (do
        let source ← getResource changed rootPath (versionPath vcr version)
        let (copied, newDbR) ← sabridgeCopyMedium request changed source dbR
        dbmsSetCheckinOut copied newDbR .checkedIn newDbR.vrNum) with
    | error stop =>
        rw [ends] at succeeds
        cases succeeds
    | ok result =>
        rw [ends] at succeeds
        rcases bind_eq_ok.mp ends with ⟨source, read, rest⟩
        rcases bind_eq_ok.mp rest with ⟨⟨copied, newDbR⟩, isCopied, isSet⟩
        rcases set isCopied with ⟨last, isSetTo⟩
        have same := Except.ok.inj (isSetTo.symm.trans isSet)
        refine ⟨source, copied, newDbR, read, isCopied, ?_⟩
        rw [← Except.ok.inj succeeds, ← same]
  · rintro ⟨source, copied, newDbR, read, isCopied, rfl⟩
    rcases set isCopied with ⟨last, isSetTo⟩
    rw [read]
    show (sabridgeCopyMedium request changed source dbR >>= _).map
      Prod.fst = _
    rw [isCopied]
    show (dbmsSetCheckinOut copied newDbR .checkedIn newDbR.vrNum).map
      Prod.fst = _
    rw [isSetTo]
    rfl

/-- Reading a resource needs the same rows after the changes. -/
theorem isNumbered_iff
    (isCheckedIn : IsCheckedIn store uri vcr version)
    (isChanged : IsChanged store changed vcr) (id : Id) :
    IsNumbered changed id ↔ IsNumbered store id := by
  have checked (row : Vcr) (member : row ∈ store.vcrs) :
      (setState .checkedOut vcr.resourceId vcr.checkedId row).checkedId =
        row.checkedId := by
    unfold setState
    split
    next same =>
        rw [eq_of_resourceId isCheckedIn.vcrsKey isCheckedIn.listed member
          same]
    next => rfl
  unfold IsNumbered
  rw [isChanged.types, isChanged.vcrs, find?_map_setState,
    isChanged.versions]
  cases found : store.vcrs.find? fun row => row.resourceId == id with
  | none => simp
  | some row =>
      have same := checked row (List.mem_of_find?_eq_some found)
      simp only [Option.map_some, Option.some.injEq, forall_eq', same]

/-- What is copied is what the resource holds afterwards. -/
theorem content_of_copied
    {copied : ContentStore} {source newDbR : DavReposResource} {id : Id}
    (isCheckedIn : IsCheckedIn store uri vcr version)
    (isChanged : IsChanged store changed vcr)
    (isRecord : IsVcrRecord changed rootPath (checkedOut vcr) version.number
      dbR)
    (isSource : IsRecordOf changed rootPath id source)
    (other : id ≠ vcr.resourceId)
    (isCopied : sabridgeCopyMedium request changed source dbR =
      .ok (copied, newDbR)) :
    copied.content vcr.resourceId = store.content id := by
  rcases sabridgeCopyMedium_spec isCopied with ⟨name, destName, spec⟩
  have dest : dbR.serialno = vcr.resourceId := isRecord.serialno
  have src : source.serialno = id := isSource.serialno
  have isName : changed.displayname id = some name := by
    rw [← readDisplayname_eq isChanged.named, ← isSource.displayname]
    exact spec.isName
  have isDestName : changed.displayname vcr.resourceId = some destName := by
    rw [← readDisplayname_eq isChanged.named]
    exact isRecord.displayname.symm.trans spec.isDestName
  have present : vcr.resourceId ∈ changed.resources.map ResourceRow.id := by
    rcases mem_of_typeOf ((isChanged.types _).trans
      isCheckedIn.isVersioned) with ⟨row, listed, same⟩
    exact same ▸ List.mem_map_of_mem listed
  have displayname := spec.displayname
  have media := spec.mediaOf
  have properties := spec.propertiesOf
  rw [dest] at displayname media properties
  rw [src, if_neg other] at media properties
  rw [← isChanged.others id other]
  apply Content.ext
  · show copied.displayname vcr.resourceId = changed.displayname id
    rw [displayname present, isName]
    by_cases same : name = destName
    · rw [if_pos same, isDestName, same]
    · rw [if_neg same]
  · exact media
  · exact properties

/-- No body is removed that another resource has. -/
theorem body_of_copied
    {copied : ContentStore} {source newDbR : DavReposResource} {id : Id}
    {medium : Nat × Option Text × Text}
    (isChanged : IsChanged store changed vcr)
    (isRecord : IsVcrRecord changed rootPath (checkedOut vcr) version.number
      dbR)
    (isCopied : sabridgeCopyMedium request changed source dbR =
      .ok (copied, newDbR))
    (other : id ≠ vcr.resourceId)
    (member : medium ∈ store.mediaOf id)
    (body : medium.2.2 ∈ store.files) :
    medium.2.2 ∈ copied.files := by
  rcases sabridgeCopyMedium_spec isCopied with ⟨name, destName, spec⟩
  by_contra gone
  rcases spec.files _ (isChanged.files _ body) gone with ⟨isSha1, only⟩
  rw [isRecord.sha1str] at isSha1
  rcases Option.map_eq_some_iff.mp isSha1 with ⟨own, found, ownSha1⟩
  have ownId := List.find?_some found
  rw [beq_iff_eq] at ownId
  have media : changed.mediaOf id = store.mediaOf id :=
    congrArg Content.media (isChanged.others id other)
  rw [← media] at member
  rcases List.mem_map.mp member with ⟨row, listed, rfl⟩
  rcases List.mem_filter.mp listed with ⟨isRow, isId⟩
  -- two rows with the same hash are counted
  unfold dbmsNumSha1Resources at only
  rcases List.length_eq_one_iff.mp only with ⟨single, isSingle⟩
  have first : own = single := by
    rw [← List.mem_singleton, ← isSingle]
    exact List.mem_filter.mpr
      ⟨List.mem_of_find?_eq_some found, beq_iff_eq.mpr ownSha1⟩
  have second : row = single := by
    rw [← List.mem_singleton, ← isSingle]
    exact List.mem_filter.mpr ⟨isRow, beq_self_eq_true row.sha1⟩
  apply other
  rw [← beq_iff_eq.mp isId, second, ← first]
  exact ownId

/-- The URI leads to a resource with a body that is not the one undone. -/
theorem exists_leadsTo_of_restored
    {copied : ContentStore} {source newDbR : DavReposResource}
    (isCheckedIn : IsCheckedIn store uri vcr version)
    (isChanged : IsChanged store changed vcr)
    (isRecord : IsVcrRecord changed rootPath (checkedOut vcr) version.number
      dbR)
    (read : getResource changed rootPath (versionPath vcr version) =
      .ok source)
    (isCopied : sabridgeCopyMedium request changed source dbR =
      .ok (copied, newDbR))
    (media : copied.mediaOf vcr.resourceId ≠ []) :
    ∃ id, LeadsTo store.binds.rows (versionPath vcr version) id ∧
      id ≠ vcr.resourceId := by
  rcases sabridgeCopyMedium_spec isCopied with ⟨name, destName, spec⟩
  have dest : dbR.serialno = vcr.resourceId := isRecord.serialno
  have mediaOf := spec.mediaOf
  rw [dest] at mediaOf
  have other : source.serialno ≠ vcr.resourceId := by
    intro same
    rw [if_pos same] at mediaOf
    exact media mediaOf
  rw [if_neg other] at mediaOf
  have kept : changed.mediaOf source.serialno =
      store.mediaOf source.serialno :=
    congrArg Content.media (isChanged.others source.serialno other)
  by_contra leadsNowhere
  push Not at leadsNowhere
  by_cases leads : ∃ id, LeadsTo changed.binds.rows
      (versionPath vcr version) id
  · rcases leads with ⟨id, leads⟩
    have isSource := isRecordOf_getResource leads read
    rw [isChanged.binds] at leads
    exact other (isSource.serialno.trans (leadsNowhere id leads))
  · rcases displayname_of_not_leadsTo (head?_versionPath vcr version)
      (noQuestion_versionPath vcr version) (not_exists.mp leads) read with
        unnamed | redirect
    · rw [spec.isName] at unnamed
      cases unnamed
    · rw [IsRedirectRecord, isChanged.types] at redirect
      apply media
      rw [mediaOf, kept]
      exact isCheckedIn.redirectMedia _ redirect

/-- What has been restored was found. -/
theorem versionIsFound_of_restored
    {changes : List (Request × Change)} {after : ContentStore}
    (isCheckedIn : IsCheckedIn store uri vcr version)
    (succeeds : checkoutAndUncheckout driver request rootPath uri store
      changes = .ok after)
    (restored : Restored store after vcr) :
    VersionIsFound store vcr version := by
  rcases @exists_isChanged rootPath uri store vcr version isCheckedIn driver
    request changes with ⟨changed, dbR, isChanged, isRecord, run⟩
  rw [run, davReposUncheckout_eq_ok_iff isCheckedIn isChanged isRecord]
    at succeeds
  rcases succeeds with ⟨source, copied, newDbR, read, isCopied, rfl⟩
  have content : copied.content vcr.resourceId =
      store.content vcr.checkedId :=
    restored.content
  have media : copied.mediaOf vcr.resourceId ≠ [] := by
    have same : copied.mediaOf vcr.resourceId =
        store.mediaOf vcr.checkedId :=
      congrArg Content.media content
    rw [same]
    exact isCheckedIn.versionMedia
  rcases exists_leadsTo_of_restored isCheckedIn isChanged isRecord read
    isCopied media with ⟨id, leads, other⟩
  have leadsAfter : LeadsTo changed.binds.rows (versionPath vcr version)
      id := by
    rw [isChanged.binds]
    exact leads
  refine ⟨id, leads, other, ?_, ?_⟩
  · rw [← content]
    exact (content_of_copied isCheckedIn isChanged isRecord
      (isRecordOf_getResource leadsAfter read) other isCopied).symm
  · rw [← isNumbered_iff isCheckedIn isChanged]
    exact (getResource_isOk_iff leadsAfter).mp ⟨source, read⟩

/-- A resource and its version have the names that are compared. -/
theorem exists_copied
    {source : DavReposResource} {id : Id}
    (isCheckedIn : IsCheckedIn store uri vcr version)
    (isChanged : IsChanged store changed vcr)
    (isRecord : IsVcrRecord changed rootPath (checkedOut vcr) version.number
      dbR)
    (isSource : IsRecordOf changed rootPath id source)
    (other : id ≠ vcr.resourceId)
    (content : store.content id = store.content vcr.checkedId) :
    ∃ copied newDbR, sabridgeCopyMedium request changed source dbR =
      .ok (copied, newDbR) := by
  have named : store.displayname vcr.checkedId ≠ none :=
    displayname_ne_none isCheckedIn.named isCheckedIn.versionType
  have sourceName : source.displayname = store.displayname vcr.checkedId := by
    rw [isSource.displayname, readDisplayname_eq isChanged.named]
    exact congrArg Content.displayname
      ((isChanged.others id other).trans content)
  have isVersioned : typeOf changed vcr.resourceId = some .versioned :=
    (isChanged.types _).trans isCheckedIn.isVersioned
  have destNamed : dbR.displayname ≠ none := by
    rw [isRecord.displayname, readDisplayname_eq isChanged.named]
    exact displayname_ne_none isChanged.named isVersioned
  rw [← sourceName] at named
  rcases Option.ne_none_iff_exists'.mp named with ⟨name, isName⟩
  rcases Option.ne_none_iff_exists'.mp destNamed with ⟨destName, isDestName⟩
  have present : dbR.serialno ∈ changed.resources.map ResourceRow.id := by
    rw [isRecord.serialno]
    exact List.mem_map.mpr (mem_of_typeOf isVersioned)
  rcases @sabridgeCopyMedium_isOk request changed source dbR name destName
    isName isDestName present with ⟨⟨copied, newDbR⟩, isCopied⟩
  exact ⟨copied, newDbR, isCopied⟩

theorem restored_of_versionIsFound
    (isCheckedIn : IsCheckedIn store uri vcr version)
    (changes : List (Request × Change))
    (found : VersionIsFound store vcr version) :
    ∃ after, checkoutAndUncheckout driver request rootPath uri store
      changes = .ok after ∧ Restored store after vcr := by
  rcases @exists_isChanged rootPath uri store vcr version isCheckedIn driver
    request changes with ⟨changed, dbR, isChanged, isRecord, run⟩
  rcases found with ⟨id, leads, other, content, numbered⟩
  have leadsAfter : LeadsTo changed.binds.rows (versionPath vcr version)
      id := by
    rw [isChanged.binds]
    exact leads
  rw [← isNumbered_iff isCheckedIn isChanged] at numbered
  rcases (@getResource_isOk_iff changed rootPath _ _ leadsAfter).mpr
    numbered with ⟨source, read⟩
  have isSource := isRecordOf_getResource leadsAfter read
  rcases @exists_copied request rootPath uri store changed vcr version dbR
    source id isCheckedIn isChanged isRecord isSource other content with
      ⟨copied, newDbR, isCopied⟩
  rcases sabridgeCopyMedium_spec isCopied with ⟨_, _, spec⟩
  refine ⟨{ copied with
    vcrs := copied.vcrs.map
      (setState .checkedIn vcr.resourceId vcr.checkedId) }, ?_, ?_⟩
  · rw [run]
    exact (davReposUncheckout_eq_ok_iff isCheckedIn isChanged isRecord).mpr
      ⟨source, copied, newDbR, read, isCopied, rfl⟩
  · constructor
    case vcrs =>
        have back := @map_setState_setState store.vcrs vcr .checkedOut
          isCheckedIn.vcrsKey isCheckedIn.listed
        rw [isCheckedIn.checkedIn] at back
        show copied.vcrs.map _ = _
        rw [spec.sameGraph.vcrs, isChanged.vcrs]
        exact back
    case versions => exact spec.sameGraph.versions.trans isChanged.versions
    case vhrs => exact spec.sameGraph.vhrs.trans isChanged.vhrs
    case content =>
        exact (content_of_copied isCheckedIn isChanged isRecord isSource
          other isCopied).trans content
    case others =>
        intro otherId isOther
        have kept := spec.others otherId (isRecord.serialno.symm ▸ isOther)
        exact kept.trans (isChanged.others otherId isOther)
    case bodies =>
        intro otherId isOther medium member body
        have kept : medium.2.2 ∈ copied.files :=
          body_of_copied isChanged isRecord isCopied isOther member body
        exact kept

/--
After any changes, an uncheckout restores the checked-in version iff the URI of
the version leads to another resource with the same content.
-/
theorem restored_iff
    (isCheckedIn : IsCheckedIn store uri vcr version)
    (driver : Driver ContentStore) (request : Request) (rootPath : Text)
    (changes : List (Request × Change)) :
    (∃ after, checkoutAndUncheckout driver request rootPath uri store
        changes = .ok after ∧ Restored store after vcr) ↔
      VersionIsFound store vcr version := by
  constructor
  · rintro ⟨after, succeeds, restored⟩
    exact versionIsFound_of_restored isCheckedIn succeeds restored
  · exact restored_of_versionIsFound isCheckedIn changes

end Session

/-! ## One medium -/

def mediumVcr : Vcr :=
  ⟨3, 5, 4, .checkedIn, none, false⟩

def mediumVersion : Version :=
  ⟨5, 1, 3, 4⟩

def mediumRows : List ResourceRow :=
  [namedRow 2 "" .collection, namedRow 3 "m" .versioned,
    namedRow 4 "vhr" .versionHistory, namedRow 5 "1" .version,
    namedRow 6 "history" .collection, namedRow 7 "4" .collection]

/-- The medium 3 is checked in at version 5 of the history 4. -/
def oneMedium (binds : BindTable)
    (bindIds : ∀ bind ∈ binds.rows, bind.id < 5) : ContentStore where
  binds := binds
  resources := mediumRows
  redirectrefs := []
  collections := []
  media :=
    [⟨3, 1, none, "a".toList⟩, ⟨5, 1, none, "a".toList⟩]
  principals := []
  versions := [mediumVersion]
  vhrs := [⟨4, 5⟩]
  vcrs := [mediumVcr]
  nextId := 8
  nextIdPos := by decide
  ids := by decide
  pkey := by decide
  nextBindId := 5
  nextBindIdPos := five_pos
  bindIds := bindIds
  dead :=
    { properties := []
      nextId := 1
      namespaces := []
      resources := [2, 3, 4, 5, 6, 7]
      namespaceKeys := List.nodup_nil
      namespaceExists := DbmsProperties.noProperties_namespaceExists }
  deadResources := by decide
  files := ["a".toList]

/-- The collection of the versions is `/history/4`. -/
def inHistory : BindTable where
  rows := [⟨1, "m".toList, 2, 3, none⟩, ⟨2, "history".toList, 2, 6, none⟩,
    ⟨3, "4".toList, 6, 7, none⟩, ⟨4, "1".toList, 7, 5, none⟩]
  pkey := by decide
  collectionIdKey := by decide
  positive := by decide

/-- It has been moved to `/old`. -/
def movedHistory : BindTable where
  rows := [⟨1, "m".toList, 2, 3, none⟩, ⟨2, "history".toList, 2, 6, none⟩,
    ⟨3, "old".toList, 2, 7, none⟩, ⟨4, "1".toList, 7, 5, none⟩]
  pkey := by decide
  collectionIdKey := by decide
  positive := by decide

theorem isCheckedIn_oneMedium
    {binds : BindTable} {bindIds : ∀ bind ∈ binds.rows, bind.id < 5}
    (leads : LeadsTo binds.rows "/m".toList 3) :
    IsCheckedIn (oneMedium binds bindIds) "/m".toList mediumVcr
      mediumVersion where
  leads := leads
  vcrsKey := List.nodup_singleton mediumVcr.resourceId
  listed := List.mem_cons_self
  checkedIn := rfl
  versionsKey := List.nodup_singleton mediumVersion.resourceId
  versionListed := List.mem_cons_self
  isVersion := rfl
  isVersioned := rfl
  versionType := rfl
  historyType := rfl
  versionMedia := List.cons_ne_nil _ _
  redirectMedia := by
    intro id redirect
    have none : ∀ row ∈ mediumRows, row.type ≠ .redirect := by decide
    rcases Option.map_eq_some_iff.mp redirect with ⟨row, found, type⟩
    exact absurd type (none row (List.mem_of_find?_eq_some found))
  named := by
    show ∀ row ∈ mediumRows, row.displayname ≠ none
    decide

theorem restored_iff_inHistory :
    IsCheckedIn (oneMedium inHistory (by decide)) "/m".toList mediumVcr
        mediumVersion ∧
      ∃ after, checkoutAndUncheckout checking someRequest [] "/m".toList
          (oneMedium inHistory (by decide))
          [(someRequest, .put ⟨2, none, "b".toList⟩),
            (someRequest, .setDisplayname "n".toList)] = .ok after ∧
        Restored (oneMedium inHistory (by decide)) after mediumVcr := by
  have isCheckedIn : IsCheckedIn (oneMedium inHistory (by decide))
      "/m".toList mediumVcr mediumVersion :=
    isCheckedIn_oneMedium ⟨by decide, by decide, by decide⟩
  refine ⟨isCheckedIn, (restored_iff isCheckedIn checking someRequest []
    _).mpr ⟨5, ⟨?_, ?_, ?_⟩, ?_, rfl, ?_⟩⟩
  · decide
  · decide
  · decide
  · decide
  · rintro (versioned | versioned)
    · cases versioned
    · cases versioned

/-- Nothing is restored when the collection of the versions has moved. -/
theorem exists_not_restored :
    ¬ ∀ (driver : Driver ContentStore) (request : Request)
        (rootPath uri : Text) (store : ContentStore) (vcr : Vcr)
        (version : Version) (changes : List (Request × Change)),
      IsCheckedIn store uri vcr version →
        ∃ after, checkoutAndUncheckout driver request rootPath uri store
          changes = .ok after ∧ Restored store after vcr := by
  intro always
  have isCheckedIn : IsCheckedIn (oneMedium movedHistory (by decide))
      "/m".toList mediumVcr mediumVersion :=
    isCheckedIn_oneMedium ⟨by decide, by decide, by decide⟩
  rcases always checking someRequest [] "/m".toList
    (oneMedium movedHistory (by decide)) mediumVcr mediumVersion []
      isCheckedIn with ⟨after, succeeds, restored⟩
  rcases versionIsFound_of_restored isCheckedIn succeeds restored with
    ⟨id, leads, -⟩
  exact absurd leads.whole (by decide)

end Limestone.MediumUncheckout
