import Limestone.InsertResource

/-!
# New versions: `dav_repos_checkin`

A check-in makes a new version resource at the URI of its history, copies what
the resource holds into it, and sets the resource to be checked in at the
number that comes next.
-/

namespace Limestone.Checkin

open Library
open BridgeMkcol (Stop)
open BridgeProperty hiding sabridgeGetProperty
open CopyMedium
open DbmsBind
open DbmsDeltav (Vcr Version Vhr)
open GetResource
open InsertResource
open RestoreVcc
open VersionLinks (Libraries)

/-! ## The functions -/

/--
`dbms_copy_resource_collection_version`.  Ids of the sequence are new, so that
only the unique key of the names and the foreign keys can be broken.
-/
def dbmsCopyResourceCollectionVersion (store : ContentStore)
    (srcId dstId : Id) : Except Stop ContentStore :=
  let copied := copiedBinds store.binds.rows
    (store.vcrs.map fun vcr => (vcr.resourceId, vcr.vhrId)) store.nextBindId
    srcId dstId
  let rows := store.binds.rows ++ copied
  if fits : (rows.map Bind.id).Nodup ∧ (rows.map Bind.key).Nodup ∧
      (∀ bind ∈ rows, 0 < bind.id ∧ 0 < bind.resourceId) ∧
      (∀ bind ∈ rows, bind.id < store.nextBindId + copied.length) ∧
      ∀ bind ∈ copied, bind.resourceId ∈ store.resources.map ResourceRow.id ∧
        bind.collectionId ∈ store.resources.map ResourceRow.id then
    .ok { store with
      binds :=
        { rows := rows
          pkey := fits.1
          collectionIdKey := fits.2.1
          positive := fits.2.2.1 }
      nextBindId := store.nextBindId + copied.length
      nextBindIdPos := Int.add_pos_of_pos_of_nonneg store.nextBindIdPos
        (Int.natCast_nonneg _)
      bindIds := fits.2.2.2.1 }
  else
    .error (.davError ⟨httpInternalServerError,
      "DBMS Error while intersting into 'binds'"⟩)

/-- The record of a version that is to be made. -/
def versionRecord (vcr vhr : DavReposResource) (vrNum : Int) :
    DavReposResource where
  rootPath := vcr.rootPath
  uri := some (VersionLinks.sabridgeMkVersionUri (vhr.rootPath.getD [])
    vhr.serialno vrNum)
  getcontenttype := vcr.getcontenttype

/-- The new resource and what is copied into it. -/
def createVersion (libraries : Libraries) (request : Request)
    (store : ContentStore) (vcr vhr : DavReposResource) (vrNum : Int) :
    Except Stop (ContentStore × DavReposResource) :=
  match vcr.resourcetype with
  | some .versionedCollection => do
      let (store, newVersion) ← sabridgeInsertResource libraries request store
        0 .collectionVersion (versionRecord vcr vhr vrNum)
      let store ← dbmsCopyResourceCollectionVersion store vcr.serialno
        newVersion.serialno
      return (store, newVersion)
  | some .versioned => do
      let (store, newVersion) ← sabridgeInsertResource libraries request store
        0 .version (versionRecord vcr vhr vrNum)
      sabridgeCopyMedium request store vcr newVersion
  | _ => .ok (store, versionRecord vcr vhr vrNum)

/--
`sabridge_mk_new_version`.  The error of `dav_repos_create_resource` is not
looked at, but after a statement that failed the later ones fail as well.
-/
def sabridgeMkNewVersion (libraries : Libraries) (request : Request)
    (store : ContentStore) (vcr vhr : DavReposResource) (vrNum : Int) :
    Except Stop (ContentStore × DavReposResource) := do
  let (store, newVersion) ← createVersion libraries request store vcr vhr vrNum
  return (store, { newVersion with
    vcrId := vcr.serialno
    version := vrNum
    vhrId := vcr.vhrId })

/-- `dbms_update_vhr`. -/
def dbmsUpdateVhr (store : ContentStore) (vhr : Vhr) : ContentStore :=
  { store with
    vhrs := (DbmsDeltav.dbmsUpdateVhr (versionTables store) vhr).vhrs }

/-- The first version of a resource is the root of its history. -/
def setRootVersion (store : ContentStore)
    (dbR vhr newVersion : DavReposResource) : ContentStore :=
  if dbR.vrNum = 0 then
    dbmsUpdateVhr store ⟨vhr.serialno, newVersion.serialno⟩
  else store

/-- `dbms_insert_version`. -/
def dbmsInsertVersion (store : ContentStore) (newVersion : DavReposResource) :
    Except Stop ContentStore :=
  match DbmsDeltav.dbmsInsertVersion (versionTables store)
      { resourceId := newVersion.serialno
        number := newVersion.version
        vcrId := newVersion.vcrId
        vhrId := newVersion.vhrId } with
  | .error err => .error (.davError err)
  | .ok tables => .ok { store with versions := tables.versions }

/-- `dav_repos_checkin`, without a `version_resource`. -/
def davReposCheckin (libraries : Libraries) (request : Request)
    (store : ContentStore) (dbR : DavReposResource) :
    Except Stop (ContentStore × DavReposResource) :=
  if dbR.resourcetype ≠ some .versioned ∧
      dbR.resourcetype ≠ some .versionedCollection then
    .error (.davError ⟨httpConflict,
      "<DAV:must-be-version-controlled-resource/>"⟩)
  else if dbR.checkedState ≠ .checkedOut then
    .error (.davError ⟨httpConflict, "<DAV:must-be-checked-out/>"⟩)
  else do
    let vhr ← getVhr store dbR
    let (store, newVersion) ← sabridgeMkNewVersion libraries request store dbR
      vhr (dbR.vrNum + 1)
    let store ← dbmsInsertVersion (setRootVersion store dbR vhr newVersion)
      newVersion
    dbmsSetCheckinOut store dbR .checkedIn (dbR.vrNum + 1)

/-! ## What a new version holds -/

section Versions

variable {libraries : Libraries} {request : Request}
  {store after : ContentStore} {vcr vhr newVersion dbR newDbR :
    DavReposResource} {vrNum : Int}

/-- A new resource of the type VERSION that holds what another one does. -/
structure IsNewVersion (store after : ContentStore)
    (vcr newVersion : DavReposResource) : Prop where
  serialno : newVersion.serialno = store.nextId
  types : after.resources.map (fun row => (row.id, row.type)) =
    store.resources.map (fun row => (row.id, row.type)) ++
      [(store.nextId, .version)]
  others : ∀ id, id ≠ store.nextId → after.content id = store.content id
  displayname : after.displayname store.nextId = vcr.displayname
  mediaOf : after.mediaOf store.nextId = store.mediaOf vcr.serialno
  propertiesOf : after.propertiesOf store.nextId =
    store.propertiesOf vcr.serialno
  versions : after.versions = store.versions
  vhrs : after.vhrs = store.vhrs
  vcrs : after.vcrs = store.vcrs

theorem isNewVersion_of_copied
    {middle : ContentStore} {record : DavReposResource}
    (inserted : Inserted store middle .version record)
    (other : vcr.serialno ≠ store.nextId)
    (copied : sabridgeCopyMedium request middle vcr record =
      .ok (after, newVersion)) :
    IsNewVersion store after vcr newVersion := by
  rcases sabridgeCopyMedium_spec copied with ⟨name, destName, spec⟩
  have serialno : record.serialno = store.nextId := inserted.serialno
  have present : record.serialno ∈ middle.resources.map ResourceRow.id := by
    have ids := congrArg (List.map Prod.fst) inserted.types
    rw [List.map_map, List.map_append] at ids
    show record.serialno ∈ middle.resources.map _
    rw [serialno]
    have mapped : middle.resources.map ResourceRow.id = _ := ids
    rw [mapped]
    exact List.mem_append_right _ List.mem_cons_self
  have displayname := spec.displayname present
  have mediaOf := spec.mediaOf
  have propertiesOf := spec.propertiesOf
  have others := spec.others
  have kept := inserted.others vcr.serialno other
  rw [serialno] at displayname mediaOf propertiesOf others
  rw [if_neg other] at mediaOf propertiesOf
  constructor
  case serialno => exact spec.serialno.trans serialno
  case types => exact spec.sameGraph.types.trans inserted.types
  case others =>
      intro id isOther
      exact (others id isOther).trans (inserted.others id isOther)
  case displayname =>
      rw [displayname, spec.isName, inserted.displayname, spec.isDestName]
      by_cases same : name = destName
      · rw [if_pos same, same]
      · rw [if_neg same]
  case mediaOf => exact mediaOf.trans (congrArg Content.media kept)
  case propertiesOf =>
      exact propertiesOf.trans (congrArg Content.properties kept)
  case versions => exact spec.sameGraph.versions.trans inserted.versions
  case vhrs => exact spec.sameGraph.vhrs.trans inserted.vhrs
  case vcrs => exact spec.sameGraph.vcrs.trans inserted.vcrs

theorem sabridgeMkNewVersion_spec
    (versioned : vcr.resourcetype = some .versioned)
    (other : vcr.serialno ≠ store.nextId)
    (made : sabridgeMkNewVersion libraries request store vcr vhr vrNum =
      .ok (after, newVersion)) :
    IsNewVersion store after vcr newVersion ∧
      newVersion.version = vrNum ∧ newVersion.vcrId = vcr.serialno ∧
      newVersion.vhrId = vcr.vhrId := by
  unfold sabridgeMkNewVersion createVersion at made
  rw [versioned] at made
  rcases bind_eq_ok.mp made with ⟨⟨created, record⟩, creates, ends⟩
  rcases Prod.mk.inj (Except.ok.inj ends) with ⟨rfl, rfl⟩
  rcases bind_eq_ok.mp creates with ⟨⟨middle, inserted⟩, inserts, copies⟩
  have noCollection : ¬ (ResourceType.version = .collection ∨
      ResourceType.version = .versionedCollection) := by
    decide
  have hasUri : (versionRecord vcr vhr vrNum).uri = some
      (VersionLinks.sabridgeMkVersionUri (vhr.rootPath.getD [])
        vhr.serialno vrNum) :=
    rfl
  rcases sabridgeInsertResource_spec hasUri noCollection inserts with
    ⟨parent, -, isInserted, -, -, -⟩
  have isNew := isNewVersion_of_copied isInserted other copies
  refine ⟨?_, rfl, rfl, rfl⟩
  exact
    { serialno := isNew.serialno
      types := isNew.types
      others := isNew.others
      displayname := isNew.displayname
      mediaOf := isNew.mediaOf
      propertiesOf := isNew.propertiesOf
      versions := isNew.versions
      vhrs := isNew.vhrs
      vcrs := isNew.vcrs }

/-! ## What a check-in does -/

/-- The version that a check-in makes. -/
def nextVersion (store : ContentStore) (dbR : DavReposResource) : Version where
  resourceId := store.nextId
  number := dbR.vrNum + 1
  vcrId := dbR.serialno
  vhrId := dbR.vhrId

/-- The resource is checked in at a new version with its content. -/
structure ChecksIn (store after : ContentStore) (dbR : DavReposResource) :
    Prop where
  versions : after.versions = store.versions ++ [nextVersion store dbR]
  vcrs : after.vcrs =
    store.vcrs.map (setState .checkedIn dbR.serialno store.nextId)
  others : ∀ id, id ≠ store.nextId → after.content id = store.content id
  newVersion : after.content store.nextId =
    ⟨dbR.displayname, store.mediaOf dbR.serialno,
      store.propertiesOf dbR.serialno⟩

theorem dbmsInsertVersion_eq_ok
    (inserted : dbmsInsertVersion store newVersion = .ok after) :
    after = { store with
      versions := store.versions ++
        [{ resourceId := newVersion.serialno
           number := newVersion.version
           vcrId := newVersion.vcrId
           vhrId := newVersion.vhrId }] } := by
  unfold dbmsInsertVersion DbmsDeltav.dbmsInsertVersion at inserted
  split at inserted
  next => cases inserted
  next tables isInserted =>
      split at isInserted
      next => cases isInserted
      next =>
          rcases Except.ok.inj isInserted with rfl
          exact (Except.ok.inj inserted).symm

/-- The only version of the resource with the next number is the new one. -/
theorem dbmsSetCheckinOut_next
    {version : Version}
    (unnumbered : ∀ other ∈ store.versions, other.vcrId = dbR.serialno →
      other.number ≠ dbR.vrNum + 1)
    (isVcr : version.vcrId = dbR.serialno)
    (isNumber : version.number = dbR.vrNum + 1) :
    dbmsSetCheckinOut
        { store with versions := store.versions ++ [version] } dbR .checkedIn
        (dbR.vrNum + 1) =
      .ok ({ store with
          versions := store.versions ++ [version]
          vcrs := store.vcrs.map
            (setState .checkedIn dbR.serialno version.resourceId) },
        { dbR with
          checkedId := version.resourceId
          checkedState := .checkedIn
          vrNum := dbR.vrNum + 1 }) := by
  have different : ¬ ((versionDbr dbR).vrNum = dbR.vrNum + 1 ∧
      (versionDbr dbR).checkedId ≠ 0) :=
    fun both => absurd both.1 (Int.ne_of_lt (Int.lt_succ dbR.vrNum))
  have none : (store.versions.find? fun row =>
      row.number == dbR.vrNum + 1 && row.vcrId == dbR.serialno) = none := by
    apply List.find?_eq_none.mpr
    intro other listed
    rw [Bool.and_eq_true, beq_iff_eq, beq_iff_eq]
    exact fun both => unnumbered other listed both.2 both.1
  have found : ((store.versions ++ [version]).find? fun row =>
      row.number == dbR.vrNum + 1 && row.vcrId == dbR.serialno) =
        some version := by
    rw [List.find?_append, none, Option.none_or, List.find?_cons_of_pos]
    rw [isNumber, isVcr, beq_self_eq_true, beq_self_eq_true, Bool.and_self]
  have isId : DbmsDeltav.dbmsGetVersionId
      (versionTables { store with versions := store.versions ++ [version] })
      (versionDbr dbR) (dbR.vrNum + 1) = .ok version.resourceId := by
    unfold DbmsDeltav.dbmsGetVersionId
    have lookup : ((versionTables { store with
        versions := store.versions ++ [version] }).versions.find? fun row =>
          row.number == dbR.vrNum + 1 &&
            row.vcrId == (versionDbr dbR).serialno) = some version :=
      found
    rw [lookup]
  unfold dbmsSetCheckinOut DbmsDeltav.dbmsSetCheckinOut
  rw [if_neg different, isId]
  rfl

theorem setRootVersion_eq
    (store : ContentStore) (dbR vhr newVersion : DavReposResource) :
    ∃ vhrs, setRootVersion store dbR vhr newVersion =
      { store with vhrs := vhrs } := by
  unfold setRootVersion
  split
  · exact ⟨_, rfl⟩
  · exact ⟨_, rfl⟩

theorem davReposCheckin_spec
    (versioned : dbR.resourcetype = some .versioned)
    (other : dbR.serialno ≠ store.nextId)
    (unnumbered : ∀ version ∈ store.versions,
      version.vcrId = dbR.serialno → version.number ≠ dbR.vrNum + 1)
    (checkedIn : davReposCheckin libraries request store dbR =
      .ok (after, newDbR)) :
    ChecksIn store after dbR := by
  unfold davReposCheckin at checkedIn
  rcases ite_error_eq_ok.mp checkedIn with ⟨-, rest⟩
  rcases ite_error_eq_ok.mp rest with ⟨-, rest⟩
  rcases bind_eq_ok.mp rest with ⟨vhr, -, rest⟩
  rcases bind_eq_ok.mp rest with ⟨⟨made, newVersion⟩, makes, rest⟩
  simp only at rest
  rcases bind_eq_ok.mp rest with ⟨numbered, inserts, sets⟩
  rcases sabridgeMkNewVersion_spec versioned other makes with
    ⟨isNew, isNumber, isVcr, isVhr⟩
  rcases setRootVersion_eq made dbR vhr newVersion with ⟨vhrs, isRooted⟩
  rw [isRooted] at inserts
  have isVersion : (⟨newVersion.serialno, newVersion.version,
      newVersion.vcrId, newVersion.vhrId⟩ : Version) =
        nextVersion store dbR := by
    rw [isNew.serialno, isNumber, isVcr, isVhr]
    rfl
  have isNumbered := dbmsInsertVersion_eq_ok inserts
  rw [isVersion] at isNumbered
  have next := @dbmsSetCheckinOut_next { made with vhrs := vhrs } dbR
    (nextVersion store dbR) (isNew.versions ▸ unnumbered) rfl rfl
  rw [isNumbered] at sets
  have isAfter := (Prod.mk.inj (Except.ok.inj (next.symm.trans sets))).1
  rw [← isAfter]
  constructor
  case versions =>
      exact congrArg (· ++ [nextVersion store dbR]) isNew.versions
  case vcrs => exact congrArg (List.map _) isNew.vcrs
  case others => exact isNew.others
  case newVersion =>
      exact Content.ext isNew.displayname isNew.mediaOf isNew.propertiesOf

/-! ## Check-ins that succeed -/

/-- The collection of the versions, and a name that is free in it. -/
structure HasRoom (libraries : Libraries) (store : ContentStore)
    (dbR vhr parent : DavReposResource) : Prop where
  found : findParent libraries store 0
    (versionRecord dbR vhr (dbR.vrNum + 1)) = .ok (some parent)
  collection : parent.serialno ∈ store.resources.map ResourceRow.id
  fresh : (parent.serialno, basename
      (VersionLinks.sabridgeMkVersionUri (vhr.rootPath.getD [])
        vhr.serialno (dbR.vrNum + 1))) ∉ store.binds.rows.map Bind.key
  short : (basename
    (VersionLinks.sabridgeMkVersionUri (vhr.rootPath.getD [])
      vhr.serialno (dbR.vrNum + 1))).length ≤ BridgeMkcol.maxNameLength

theorem sabridgeMkNewVersion_isOk
    {parent : DavReposResource} {name : Text}
    (versioned : dbR.resourcetype = some .versioned)
    (isName : dbR.displayname = some name)
    (room : HasRoom libraries store dbR vhr parent) :
    ∃ result, sabridgeMkNewVersion libraries request store dbR vhr
      (dbR.vrNum + 1) = .ok result := by
  have noCollection : ¬ (ResourceType.version = .collection ∨
      ResourceType.version = .versionedCollection) := by
    decide
  rcases @sabridgeInsertResource_isOk libraries request store 0 .version
    (versionRecord dbR vhr (dbR.vrNum + 1)) _ parent rfl noCollection
    room.found room.fresh room.collection room.short with
      ⟨⟨middle, record⟩, inserts⟩
  rcases sabridgeInsertResource_spec rfl noCollection inserts with
    ⟨_, -, isInserted, -, -, -⟩
  rcases Option.ne_none_iff_exists'.mp isInserted.named with
    ⟨destName, isDestName⟩
  have present : record.serialno ∈ middle.resources.map ResourceRow.id := by
    have ids := congrArg (List.map Prod.fst) isInserted.types
    rw [List.map_map, List.map_append] at ids
    have mapped : middle.resources.map ResourceRow.id = _ := ids
    rw [isInserted.serialno, mapped]
    exact List.mem_append_right _ List.mem_cons_self
  rcases @sabridgeCopyMedium_isOk request middle dbR record name destName
    isName isDestName present with ⟨⟨after, newVersion⟩, copies⟩
  refine ⟨(after, { newVersion with
    vcrId := dbR.serialno
    version := dbR.vrNum + 1
    vhrId := dbR.vhrId }), ?_⟩
  unfold sabridgeMkNewVersion createVersion
  rw [versioned]
  apply bind_eq_ok.mpr
  refine ⟨(after, newVersion), ?_, rfl⟩
  exact bind_eq_ok.mpr ⟨(middle, record), inserts, copies⟩

theorem davReposCheckin_isOk
    {parent : DavReposResource} {name : Text}
    (versioned : dbR.resourcetype = some .versioned)
    (checkedOut : dbR.checkedState = .checkedOut)
    (isName : dbR.displayname = some name)
    (isVhr : getVhr store dbR = .ok vhr)
    (room : HasRoom libraries store dbR vhr parent)
    (other : dbR.serialno ≠ store.nextId)
    (unnumbered : ∀ version ∈ store.versions,
      version.vcrId = dbR.serialno → version.number ≠ dbR.vrNum + 1)
    (noVersion : ∀ version ∈ store.versions,
      version.resourceId ≠ store.nextId) :
    ∃ result, davReposCheckin libraries request store dbR =
      .ok result := by
  rcases @sabridgeMkNewVersion_isOk libraries request store vhr dbR parent
    name versioned isName room with ⟨⟨made, newVersion⟩, makes⟩
  rcases sabridgeMkNewVersion_spec versioned other makes with
    ⟨isNew, isNumber, isVcr, isVhrId⟩
  rcases setRootVersion_eq made dbR vhr newVersion with ⟨vhrs, isRooted⟩
  have isVersion : (⟨newVersion.serialno, newVersion.version,
      newVersion.vcrId, newVersion.vhrId⟩ : Version) =
        nextVersion store dbR := by
    rw [isNew.serialno, isNumber, isVcr, isVhrId]
    rfl
  have fresh : (nextVersion store dbR).resourceId ∉
      made.versions.map Version.resourceId := by
    rw [isNew.versions]
    intro member
    rcases List.mem_map.mp member with ⟨version, listed, same⟩
    exact noVersion version listed same
  have inserts : dbmsInsertVersion { made with vhrs := vhrs } newVersion =
      .ok { made with
        vhrs := vhrs
        versions := made.versions ++ [nextVersion store dbR] } := by
    have tables := @DbmsDeltav.dbmsInsertVersion_fresh
      (versionTables { made with vhrs := vhrs }) _ fresh
    unfold dbmsInsertVersion
    rw [isVersion, tables]
    rfl
  have next := @dbmsSetCheckinOut_next { made with vhrs := vhrs } dbR
    (nextVersion store dbR) (isNew.versions ▸ unnumbered) rfl rfl
  refine ⟨({ made with
      vhrs := vhrs
      versions := made.versions ++ [nextVersion store dbR]
      vcrs := made.vcrs.map
        (setState .checkedIn dbR.serialno store.nextId) },
    { dbR with
      checkedId := store.nextId
      checkedState := .checkedIn
      vrNum := dbR.vrNum + 1 }), ?_⟩
  unfold davReposCheckin
  rw [if_neg fun both => both.1 versioned, if_neg (not_not.mpr checkedOut)]
  apply bind_eq_ok.mpr
  refine ⟨vhr, isVhr, bind_eq_ok.mpr ⟨(made, newVersion), makes, ?_⟩⟩
  simp only [isRooted]
  exact bind_eq_ok.mpr ⟨_, inserts, next⟩

end Versions

end Limestone.Checkin
