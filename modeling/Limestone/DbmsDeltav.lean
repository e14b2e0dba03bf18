import Limestone.Schema
import Mathlib.Data.List.Nodup

/-!
# Version histories: `dbms_deltav.c` and `deltav_bridge.c`

Three tables keep the versions of a resource: `versions` has their numbers,
`vhrs` the root version of a history, and `vcrs` the version that a resource
under version control is checked in or out from.

A statement that breaks a unique constraint fails.  Foreign keys are deferred
until the transaction ends.
-/

namespace Limestone.DbmsDeltav

/-- `dav_resource_checked_state`. -/
inductive CheckedState where
  | notVersioned
  | checkedIn
  | checkedOut
deriving DecidableEq, Repr

/-- `dav_repos_autoversion_t`; an unset one is zero. -/
inductive AutoversionType where
  | checkoutCheckin
  | checkoutUnlockedCheckin
  | checkout
  | lockedCheckout
  | none
  | versionControl
deriving DecidableEq, Repr

/-- A row of `versions`. -/
structure Version where
  resourceId : Id
  number : Int
  vcrId : Id
  vhrId : Id
deriving DecidableEq, Repr

/-- A row of `vhrs`. -/
structure Vhr where
  resourceId : Id
  rootVersionId : Id
deriving DecidableEq, Repr

/-- A row of `vcrs`. -/
structure Vcr where
  resourceId : Id
  checkedId : Id
  vhrId : Id
  checkedState : CheckedState
  versionType : Option AutoversionType
  checkinOnUnlock : Bool
deriving DecidableEq, Repr

/-- The tables that the functions below read and write. -/
structure VersionTables where
  resources : List (Id × ResourceType)
  /-- What `resources_id_seq` gives next. -/
  nextId : Id
  versions : List Version
  vhrs : List Vhr
  vcrs : List Vcr
deriving DecidableEq, Repr

/-- The fields of a `dav_repos_resource` about versions. -/
structure DavReposResource where
  serialno : Id
  /-- Zero is `none`. -/
  resourcetype : Option ResourceType
  checkedState : CheckedState
  checkedId : Id
  vhrId : Id
  vrNum : Int
  autoversionType : Option AutoversionType
  checkinOnUnlock : Bool
deriving DecidableEq, Repr

def dbmsError : DavError :=
  ⟨httpInternalServerError, "DBMS Error"⟩

/-! ## Statements -/

/-- `dbms_insert_resource`. -/
def dbmsInsertResource (tables : VersionTables) (resourcetype : ResourceType) :
    VersionTables × Id :=
  ({ tables with
      resources := tables.resources ++ [(tables.nextId, resourcetype)]
      nextId := tables.nextId + 1 },
    tables.nextId)

/-- The UPDATE of `dbms_update_resource_type`. -/
def updateType (tables : VersionTables) (serialno : Id)
    (newResourceType : ResourceType) : VersionTables :=
  { tables with
    resources := tables.resources.map fun row =>
      if row.1 = serialno then (row.1, newResourceType) else row }

/-- `dbms_update_resource_type`. -/
def dbmsUpdateResourceType (tables : VersionTables) (r : DavReposResource)
    (newResourceType : ResourceType) : VersionTables × DavReposResource :=
  (updateType tables r.serialno newResourceType,
    { r with resourcetype := some newResourceType })

/-- `dbms_get_version_number`. -/
def dbmsGetVersionNumber (tables : VersionTables) (r : DavReposResource) :
    Except DavError DavReposResource :=
  match tables.versions.find? fun row => row.resourceId == r.checkedId with
  | none =>
      .error ⟨httpInternalServerError, "Could not lookup version number"⟩
  | some version => .ok { r with vrNum := version.number }

/-- `dbms_get_vcr_props`; `checkin_on_unlock` is selected and not stored. -/
def dbmsGetVcrProps (tables : VersionTables) (r : DavReposResource) :
    Except DavError DavReposResource :=
  match tables.vcrs.find? fun row => row.resourceId == r.serialno with
  | none => .ok { r with checkedState := .notVersioned }
  | some vcr =>
      dbmsGetVersionNumber tables
        { r with
          checkedState := vcr.checkedState
          checkedId := vcr.checkedId
          vhrId := vcr.vhrId
          autoversionType := vcr.versionType }

/-- `dbms_get_version_id`. -/
def dbmsGetVersionId (tables : VersionTables) (r : DavReposResource)
    (versionNum : Int) : Except DavError Id :=
  match tables.versions.find? fun row =>
      row.number == versionNum && row.vcrId == r.serialno with
  | none => .error dbmsError
  | some version => .ok version.resourceId

/-- The UPDATE of `dbms_set_checkin_out`. -/
def updateVcr (tables : VersionTables) (serialno : Id)
    (checkedState : CheckedState) (checkedId : Id) : VersionTables :=
  { tables with
    vcrs := tables.vcrs.map fun row =>
      if row.resourceId = serialno then
        { row with checkedState := checkedState, checkedId := checkedId }
      else row }

/-- `dbms_set_checkin_out`. -/
def dbmsSetCheckinOut (tables : VersionTables) (r : DavReposResource)
    (checkedState : CheckedState) (versionNum : Int) :
    Except DavError (VersionTables × DavReposResource) := do
  let checkedId ←
    (if r.vrNum = versionNum ∧ r.checkedId ≠ 0 then .ok r.checkedId
    else dbmsGetVersionId tables r versionNum)
  return (updateVcr tables r.serialno checkedState checkedId,
    { r with
      checkedId := checkedId
      checkedState := checkedState
      vrNum := versionNum })

/-- `dbms_insert_version`. -/
def dbmsInsertVersion (tables : VersionTables) (version : Version) :
    Except DavError VersionTables :=
  if version.resourceId ∈ tables.versions.map Version.resourceId then
    .error dbmsError
  else .ok { tables with versions := tables.versions ++ [version] }

/-- `dbms_insert_vhr`. -/
def dbmsInsertVhr (tables : VersionTables) (vhr : Vhr) :
    Except DavError VersionTables :=
  if vhr.resourceId ∈ tables.vhrs.map Vhr.resourceId then .error dbmsError
  else .ok { tables with vhrs := tables.vhrs ++ [vhr] }

theorem dbmsInsertVersion_fresh
    {tables : VersionTables}
    {version : Version}
    (fresh : version.resourceId ∉ tables.versions.map Version.resourceId) :
    dbmsInsertVersion tables version =
      .ok { tables with versions := tables.versions ++ [version] } :=
  if_neg fresh

theorem dbmsInsertVhr_fresh
    {tables : VersionTables}
    {vhr : Vhr}
    (fresh : vhr.resourceId ∉ tables.vhrs.map Vhr.resourceId) :
    dbmsInsertVhr tables vhr =
      .ok { tables with vhrs := tables.vhrs ++ [vhr] } :=
  if_neg fresh

/-- `dbms_update_vhr`. -/
def dbmsUpdateVhr (tables : VersionTables) (vhr : Vhr) : VersionTables :=
  { tables with
    vhrs := tables.vhrs.map fun row =>
      if row.resourceId = vhr.resourceId then vhr else row }

/-- `dbms_insert_vcr`. -/
def dbmsInsertVcr (tables : VersionTables) (r : DavReposResource) :
    Except DavError (VersionTables × DavReposResource) :=
  if r.serialno ∈ tables.vcrs.map Vcr.resourceId then .error dbmsError
  else .ok
    ({ tables with
        vcrs := tables.vcrs ++
          [{ resourceId := r.serialno
             checkedId := r.checkedId
             vhrId := r.vhrId
             checkedState := .checkedIn
             versionType := r.autoversionType
             checkinOnUnlock := false }] },
      { r with checkedState := .checkedIn, checkinOnUnlock := true })

theorem dbmsInsertVcr_fresh
    {tables : VersionTables}
    {r : DavReposResource}
    (fresh : r.serialno ∉ tables.vcrs.map Vcr.resourceId) :
    dbmsInsertVcr tables r =
      .ok ({ tables with
              vcrs := tables.vcrs ++
                [{ resourceId := r.serialno
                   checkedId := r.checkedId
                   vhrId := r.vhrId
                   checkedState := .checkedIn
                   versionType := r.autoversionType
                   checkinOnUnlock := false }] },
            { r with checkedState := .checkedIn, checkinOnUnlock := true }) :=
  if_neg fresh

/-! ## The bridge -/

/--
`sabridge_mkcol_w_parents`, with the number of the collections on the path
that are missing.
-/
def sabridgeMkcolWParents (tables : VersionTables) : Nat → VersionTables
  | 0 => tables
  | missing + 1 =>
      sabridgeMkcolWParents (dbmsInsertResource tables .collection).1 missing

/-- `sabridge_mk_vhr`: the history, then the collection of its bind. -/
def sabridgeMkVhr (tables : VersionTables) (missing : Nat) :
    VersionTables × Id :=
  let created := dbmsInsertResource tables .versionHistory
  (sabridgeMkcolWParents created.1 missing, created.2)

/--
`sabridge_mk_new_version`.  The content and the bind of the version are in
other tables.
-/
def sabridgeMkNewVersion (tables : VersionTables) (vcr : DavReposResource)
    (vrNum : Int) : VersionTables × Version :=
  let created : VersionTables × Id :=
    match vcr.resourcetype with
    | some .versionedCollection =>
        dbmsInsertResource tables .collectionVersion
    | some .versioned => dbmsInsertResource tables .version
    | _ => (tables, 0)
  (created.1,
    { resourceId := created.2
      number := vrNum
      vcrId := vcr.serialno
      vhrId := vcr.vhrId })

/-- The type of a resource that comes under version control. -/
def versionControlled : Option ResourceType → Option ResourceType
  | some .resource => some .versioned
  | some .collection => some .versionedCollection
  | _ => none

/-- The switch over `parent->av_new_children`. -/
def childAutoversionType (own : Option AutoversionType) :
    Option AutoversionType → Option AutoversionType
  | none => own
  | some .versionControl => some .none
  | some avNewChildren => some avNewChildren

/--
The version that `sabridge_vsn_control` starts a history with.  A resource
that was created just now stands in for it.
-/
def firstVersion (tables : VersionTables) (r : DavReposResource)
    (autoVersion : Bool) : VersionTables × Version :=
  if autoVersion then
    (tables, { resourceId := r.serialno, number := 0, vcrId := 0, vhrId := 0 })
  else sabridgeMkNewVersion tables r 1

/--
`sabridge_vsn_control`.  After a statement that failed the later ones fail as
well, so that the error of the last one is returned.  The first one fails
where there is no type to change to.
-/
def sabridgeVsnControl (tables : VersionTables) (r : DavReposResource)
    (autoVersion : Bool) (avNewChildren : Option AutoversionType)
    (missing : Nat) :
    Except DavError (VersionTables × DavReposResource) :=
  match versionControlled r.resourcetype with
  | none => .error dbmsError
  | some newResourceType => do
      let typed := dbmsUpdateResourceType tables r newResourceType
      -- The collection for the versions is the one of the history's bind.
      let history := sabridgeMkVhr typed.1 missing
      let first := firstVersion history.1 typed.2 autoVersion
      let newVersion := { first.2 with vhrId := history.2 }
      let rooted ← dbmsInsertVhr first.1 ⟨history.2, newVersion.resourceId⟩
      let numbered ←
        (if autoVersion then .ok rooted
        else dbmsInsertVersion rooted newVersion)
      dbmsInsertVcr numbered
        { typed.2 with
          vhrId := history.2
          vrNum := newVersion.number
          checkedId := newVersion.resourceId
          autoversionType :=
            childAutoversionType r.autoversionType avNewChildren }

/-! ## The versioning hooks -/

/-- A `dav_resource` and its `dav_repos_resource`. -/
structure DavResource where
  dbR : DavReposResource
  /-- `exists`. -/
  present : Bool
  /-- `type` is `DAV_RESOURCE_TYPE_REGULAR`. -/
  regular : Bool
  collection : Bool
  versioned : Bool
  working : Bool
deriving DecidableEq, Repr

/-- The types under version control. -/
def isVersioned (resourcetype : ResourceType) : Bool :=
  resourcetype == .versioned || resourcetype == .versionedCollection

/-- The types that have `DAV_RESOURCE_TYPE_REGULAR`. -/
def isRegular (resourcetype : ResourceType) : Bool :=
  resourcetype == .resource || resourcetype == .collection ||
    resourcetype == .lockNull || isVersioned resourcetype

/-- `dav_repos_update_dbr_resource`. -/
def davReposUpdateDbrResource (resource : DavResource)
    (resourcetype : ResourceType) : DavResource :=
  { resource with
    present := resourcetype != .lockNull
    regular := isRegular resourcetype
    collection := resource.collection || resourcetype.isCollection ||
      resourcetype == .collectionVersion
    versioned := resource.versioned || isVersioned resourcetype
    working :=
      if isVersioned resourcetype then
        resource.dbR.checkedState == .checkedOut
      else resource.working }

/-- What `dav_repos_new_resource` allocates. -/
def davReposNewResource : DavResource where
  dbR :=
    { serialno := 0
      resourcetype := none
      checkedState := .notVersioned
      checkedId := 0
      vhrId := 0
      vrNum := 0
      autoversionType := none
      checkinOnUnlock := false }
  present := false
  regular := true
  collection := false
  versioned := false
  working := false

/--
`dav_repos_get_resource` for a URI that leads to a resource.  An id without a
row is not found by a lookup.
-/
def davReposGetResource (tables : VersionTables) (serialno : Id) :
    Except DavError DavResource :=
  match tables.resources.find? fun row => row.1 == serialno with
  | none => .ok davReposNewResource
  | some row => do
      let dbR := { davReposNewResource.dbR with
        serialno := serialno, resourcetype := some row.2 }
      let dbR ←
        (if isVersioned row.2 then dbmsGetVcrProps tables dbR else .ok dbR)
      let resource := davReposUpdateDbrResource
        { davReposNewResource with dbR := dbR } row.2
      return { resource with working := dbR.checkedState == .checkedOut }

/--
`dav_repos_create_resource` with a URI.  The URI of a lock-null resource has
a bind, and a collection has one bind of each name.
-/
def davReposCreateResource (tables : VersionTables) (resource : DavResource) :
    Except DavError (VersionTables × DavResource) :=
  let resourcetype : ResourceType :=
    if resource.collection then .collection
    else resource.dbR.resourcetype.getD .resource
  if resource.dbR.serialno ≠ 0 then
    .error ⟨httpInternalServerError, "Could not insert into binds table."⟩
  else
    let created := dbmsInsertResource tables resourcetype
    let dbR := { resource.dbR with
      serialno := created.2, resourcetype := some resourcetype }
    .ok (created.1,
      davReposUpdateDbrResource { resource with dbR := dbR } resourcetype)

/--
`dav_repos_vsn_control`.  It drops the error of `sabridge_vsn_control`, and
with it goes all that the transaction has done since `committed`.
-/
def davReposVsnControl (committed tables : VersionTables)
    (resource : DavResource) (avNewChildren : Option AutoversionType)
    (missing : Nat) : Except DavError (VersionTables × DavResource) := do
  let autoCreated := !resource.present
  let (tables, resource) ←
    (if autoCreated then davReposCreateResource tables resource
    else .ok (tables, resource))
  if !resource.regular then
    .error ⟨httpConflict, "<DAV:must-be-versionable/>"⟩
  else if resource.versioned then .ok (tables, resource)
  else
    let controlled :=
      match sabridgeVsnControl tables resource.dbR autoCreated avNewChildren
          missing with
      | .ok controlled => controlled
      | .error _ => (committed, resource.dbR)
    .ok (controlled.1,
      { resource with
        dbR := controlled.2, versioned := true, working := false })

/-- `dav_repos_checkout`; what mod_dav asks for beside is not stored. -/
def davReposCheckout (tables : VersionTables) (resource : DavResource) :
    Except DavError (VersionTables × DavResource) :=
  if resource.dbR.checkedState ≠ .checkedIn then
    .error ⟨httpConflict, "<DAV:must-be-checked-in/>"⟩
  else do
    let (tables, dbR) ←
      dbmsSetCheckinOut tables resource.dbR .checkedOut resource.dbR.vrNum
    return (tables, { resource with dbR := dbR, working := true })

/--
`dav_repos_uncheckout`.  The statements of `dbms_restore_vcc` are not well
formed, and without a version the process ends: the record of the version has
no type, which is compared all the same.
-/
def davReposUncheckout (tables : VersionTables) (resource : DavResource) :
    Except DavError (VersionTables × DavResource) :=
  if resource.dbR.checkedState ≠ .checkedOut then
    .error ⟨httpConflict, "<DAV:must-be-checked-out/>"⟩
  else if resource.dbR.vrNum = 0 ∨
      resource.dbR.resourcetype = some .versionedCollection then
    .error dbmsError
  else do
    let (tables, dbR) ←
      dbmsSetCheckinOut tables resource.dbR .checkedIn resource.dbR.vrNum
    return (tables,
      { resource with dbR := dbR, regular := true, working := false })

/-- `dav_repos_checkin`. -/
def davReposCheckin (tables : VersionTables) (resource : DavResource) :
    Except DavError (VersionTables × DavResource) :=
  let r := resource.dbR
  if r.resourcetype ≠ some .versioned ∧
      r.resourcetype ≠ some .versionedCollection then
    .error ⟨httpConflict, "<DAV:must-be-version-controlled-resource/>"⟩
  else if r.checkedState ≠ .checkedOut then
    .error ⟨httpConflict, "<DAV:must-be-checked-out/>"⟩
  else do
    let created := sabridgeMkNewVersion tables r (r.vrNum + 1)
    let rooted :=
      if r.vrNum = 0 then
        dbmsUpdateVhr created.1 ⟨r.vhrId, created.2.resourceId⟩
      else created.1
    let numbered ← dbmsInsertVersion rooted created.2
    let (tables, dbR) ←
      dbmsSetCheckinOut numbered r .checkedIn (r.vrNum + 1)
    return (tables,
      { resource with dbR := dbR, regular := true, working := false })

end Limestone.DbmsDeltav
