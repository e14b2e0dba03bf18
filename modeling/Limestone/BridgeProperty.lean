import Limestone.DbmsDeltav
import Limestone.DbmsLookup
import Mathlib.Data.List.Infix

/-!
# The properties of a resource: `sabridge_get_property`

A resource is given by its id or by its URI.  The URI is looked up behind the
root path; where only a part of it resolves and leads to a redirect reference,
the rest of the URI is put behind the target of the reference.

The errors of `dbms_get_resource` and `dbms_get_redirect_props` are ignored.
-/

namespace Limestone.BridgeProperty

open DbmsBind
open DbmsDeltav (AutoversionType CheckedState Vcr Version Vhr)
open DbmsLookup

/-- `dav_redirectref_lifetime`; an unset one is zero. -/
inductive RedirectLifetime where
  | permanent
  | temporary
deriving DecidableEq, Repr

/-- A row of `resources`. -/
structure ResourceRow where
  id : Id
  uuid : Text
  createdAt : Text
  displayname : Option Text
  contentlanguage : Text
  comment : Option Text
  type : ResourceType
  ownerId : Id
  creatorId : Id
  limebarState : Option Text
  lastmodified : Option Text
deriving DecidableEq, Repr

/-- A row of `redirectrefs`. -/
structure Redirectref where
  resourceId : Id
  lifetime : Text
  reftarget : Text
deriving DecidableEq, Repr

/-- A row of `collections`. -/
structure CollectionRow where
  resourceId : Id
  autoVersionNewChildren : Option AutoversionType
deriving DecidableEq, Repr

/-- A row of `media`. -/
structure MediaRow where
  resourceId : Id
  size : Nat
  mimetype : Option Text
  sha1 : Text
deriving DecidableEq, Repr

/-- A row of `principals`. -/
structure PrincipalRow where
  resourceId : Id
  name : Text
deriving DecidableEq, Repr

/-- The tables that the properties are read from. -/
structure PropertyTables where
  binds : BindTable
  resources : List ResourceRow
  redirectrefs : List Redirectref
  collections : List CollectionRow
  media : List MediaRow
  principals : List PrincipalRow
  versions : List Version
  vhrs : List Vhr
  vcrs : List Vcr

/-- The fields of a `dav_repos_resource`; zero and NULL are the defaults. -/
structure DavReposResource where
  serialno : Id := 0
  rootPath : Option Text := none
  uri : Option Text := none
  bindId : Id := 0
  createdAt : Option Text := none
  updatedAt : Option Text := none
  displayname : Option Text := none
  getcontentlanguage : Option Text := none
  getcontenttype : Option Text := none
  getcontentlength : Nat := 0
  sha1str : Option Text := none
  resourcetype : Option ResourceType := none
  creatorId : Id := 0
  ownerId : Id := 0
  uuid : Option Text := none
  comment : Option Text := none
  limebarState : Option Text := none
  avNewChildren : Option AutoversionType := none
  redirectLifetime : Option RedirectLifetime := none
  reftarget : Option Text := none
  creatorDisplayname : Option Text := none
  rootVersionId : Id := 0
  autoversionType : Option AutoversionType := none
  lastversion : Bool := false
  checkedId : Id := 0
  checkedState : CheckedState := .notVersioned
  vrNum : Int := 0
  version : Int := 0
  vcrId : Id := 0
  vhrId : Id := 0
deriving DecidableEq, Repr

/-- `DIR_MAGIC_TYPE`. -/
def dirMagicType : Text :=
  "httpd/unix-directory".toList

/-- The error of a query that is not executed. -/
def executeError : DavError :=
  ⟨httpInternalServerError, "dbms_execute error"⟩

/-- `dbms_get_string` of a column; `apr_dbd_get_entry` gives no NULL. -/
def columnText (column : Option Text) : Option Text :=
  some (column.getD [])

section Queries

variable (databaseFails : Bool) (tables : PropertyTables)

/-- `dbms_get_resource`. -/
def dbmsGetResource (r : DavReposResource) :
    DavReposResource × Option DavError :=
  if databaseFails then (r, some executeError)
  else
    match tables.resources.find? fun row => row.id == r.serialno with
    | none => (r, none)
    | some row =>
        ({ r with
            resourcetype := some row.type
            createdAt := some row.createdAt
            displayname := columnText row.displayname
            getcontentlanguage := some row.contentlanguage
            ownerId := row.ownerId
            comment := columnText row.comment
            creatorId := row.creatorId
            uuid := some (row.uuid.take 32)
            limebarState := columnText row.limebarState },
          none)

/-- `dbms_get_redirect_props`. -/
def dbmsGetRedirectProps (r : DavReposResource) :
    DavReposResource × Option DavError :=
  if r.redirectLifetime.isSome ∧ r.reftarget.isSome then (r, none)
  else
    match if databaseFails then none else
        tables.redirectrefs.find? fun row => row.resourceId == r.serialno with
    | none =>
        (r, some ⟨httpInternalServerError, "DBMS error in reftargets lookup."⟩)
    | some row =>
        ({ r with
            redirectLifetime :=
              if row.lifetime = "p".toList then some .permanent
              else some .temporary
            reftarget := some row.reftarget },
          none)

/-- `dbms_get_collection_props`. -/
def dbmsGetCollectionProps (r : DavReposResource) :
    DavReposResource × Option DavError :=
  if databaseFails then (r, some executeError)
  else
    match tables.collections.find? fun row =>
        row.resourceId == r.serialno with
    | none => (r, none)
    | some row => ({ r with avNewChildren := row.autoVersionNewChildren }, none)

/-- `dbms_get_media_props`. -/
def dbmsGetMediaProps (r : DavReposResource) :
    DavReposResource × Option DavError :=
  match r.resourcetype with
  | some .resource | some .versioned | some .version =>
      if databaseFails then (r, some executeError)
      else
        match tables.media.find? fun row => row.resourceId == r.serialno with
        | none => (r, none)
        | some row =>
            ({ r with
                getcontentlength := row.size
                getcontenttype := columnText row.mimetype
                sha1str := some row.sha1 },
              none)
  | _ => (r, none)

/-- `dbms_get_version_number`. -/
def dbmsGetVersionNumber (r : DavReposResource) :
    DavReposResource × Option DavError :=
  if databaseFails then (r, some ⟨httpInternalServerError, "DBMS Error"⟩)
  else
    match tables.versions.find? fun row => row.resourceId == r.checkedId with
    | none =>
        (r, some ⟨httpInternalServerError, "Could not lookup version number"⟩)
    | some row => ({ r with vrNum := row.number }, none)

/-- `dbms_get_vcr_props`. -/
def dbmsGetVcrProps (r : DavReposResource) :
    DavReposResource × Option DavError :=
  if databaseFails then (r, some executeError)
  else
    match tables.vcrs.find? fun row => row.resourceId == r.serialno with
    | none => ({ r with checkedState := .notVersioned }, none)
    | some row =>
        dbmsGetVersionNumber databaseFails tables
          { r with
            checkedState := row.checkedState
            checkedId := row.checkedId
            vhrId := row.vhrId
            autoversionType := row.versionType }

/--
`dbms_get_version_resource_props`; the resource of the VCR is a new one, so
that it has no version checked in or out before its query.
-/
def dbmsGetVersionResourceProps (vr : DavReposResource) :
    DavReposResource × Option DavError :=
  if databaseFails then (vr, some executeError)
  else
    match tables.versions.find? fun row => row.resourceId == vr.serialno with
    | none => (vr, none)
    | some row =>
        let vcr := dbmsGetVcrProps databaseFails tables
          { rootPath := vr.rootPath, serialno := row.vcrId }
        ({ vr with
            version := row.number
            vcrId := row.vcrId
            lastversion :=
              vr.lastversion || vcr.1.checkedId == vr.serialno },
          vcr.2)

/-- `dbms_get_creator_displayname`. -/
def dbmsGetCreatorDisplayname (r : DavReposResource) :
    DavReposResource × Option DavError :=
  if databaseFails then (r, some executeError)
  else
    ({ r with
        creatorDisplayname := (tables.principals.find? fun row =>
          row.resourceId == r.creatorId).map PrincipalRow.name },
      none)

/-- `dbms_get_vhr_root_version_id`. -/
def dbmsGetVhrRootVersionId (vhr : DavReposResource) :
    DavReposResource × Option DavError :=
  if databaseFails then (vhr, some executeError)
  else
    match tables.vhrs.find? fun row => row.resourceId == vhr.serialno with
    | none => (vhr, none)
    | some row => ({ vhr with rootVersionId := row.rootVersionId }, none)

/-- `dbms_get_vhr_props`. -/
def dbmsGetVhrProps (vhr : DavReposResource) :
    DavReposResource × Option DavError :=
  if databaseFails then (vhr, some executeError)
  else
    match tables.vcrs.find? fun row => row.vhrId == vhr.serialno with
    | none => (vhr, none)
    | some row =>
        dbmsGetVhrRootVersionId databaseFails tables
          { vhr with
            vcrId := row.resourceId
            checkedState := row.checkedState
            checkedId := row.checkedId }

/-- `dbms_get_deltav_props`. -/
def dbmsGetDeltavProps (r : DavReposResource) :
    DavReposResource × Option DavError :=
  match r.resourcetype with
  | some .versioned | some .versionedCollection =>
      dbmsGetVcrProps databaseFails tables r
  | some .version | some .collectionVersion =>
      -- the error of the first query is overwritten
      dbmsGetCreatorDisplayname databaseFails tables
        (dbmsGetVersionResourceProps databaseFails tables r).1
  | some .versionHistory => dbmsGetVhrProps databaseFails tables r
  | _ => (r, none)

end Queries

/-! ## The bridge -/

/-- What a call does. -/
inductive Outcome where
  /-- A result that does not exist is used. -/
  | undefined
  | returned (r : DavReposResource) (err : Option DavError)
deriving DecidableEq, Repr

/-- The target that a resource is returned with. -/
def Outcome.reftarget : Outcome → Option Text
  | .undefined => none
  | .returned r _ => r.reftarget

/-- `absent_uri`: as much as is resolved is cut off the whole URI. -/
def absentUri (r : DavReposResource) (bind : DbmsBindList) : Text :=
  match bind.uri with
  | none => []
  | some resolved => (r.uri.getD []).drop resolved.length

/-- The target of a redirect reference with the rest of the URI behind it. -/
def extendReftarget (r : DavReposResource) (bind : Option DbmsBindList) :
    DavReposResource :=
  match bind with
  | none => r
  | some bind =>
      -- `apr_pstrcat` ends at the first NULL
      { r with
        reftarget := some
          (match r.reftarget with
          | none => []
          | some reftarget => reftarget ++ absentUri r bind) }

section Bridge

variable (databaseFails : Bool) (tables : PropertyTables)

/-- The queries behind `dbms_get_resource`, that depend on the type. -/
def getTypedProps (r : DavReposResource) :
    DavReposResource × Option DavError :=
  let collection :=
    match r.resourcetype with
    | some .collection | some .versionedCollection =>
        match dbmsGetCollectionProps databaseFails tables r with
        | (r, some err) => (r, some err)
        | (r, none) => ({ r with getcontenttype := some dirMagicType }, none)
    | _ => (r, none)
  match collection with
  | (r, some err) => (r, some err)
  | (r, none) =>
      match dbmsGetMediaProps databaseFails tables r with
      | (r, some err) => (r, some err)
      | (r, none) => dbmsGetDeltavProps databaseFails tables r

/-- The rest of `sabridge_get_property`, the id of the resource being known. -/
def getPropertyOf (r : DavReposResource) (bind : Option DbmsBindList)
    (uriNotFound : Bool) : Outcome :=
  let r := (dbmsGetResource databaseFails tables r).1
  if uriNotFound ∧ r.resourcetype ≠ some .redirect then
    .returned
      { r with
        serialno := 0
        resourcetype := none
        ownerId := 0
        creatorId := 0
        createdAt := none
        displayname := none
        getcontentlanguage := none
        comment := none
        uuid := none }
      none
  else
    let r : DavReposResource :=
      match bind with
      | none => r
      | some bind =>
          { r with bindId := bind.bindId, updatedAt := some bind.updatedAt }
    let r :=
      if r.resourcetype = some .redirect then
        extendReftarget (dbmsGetRedirectProps databaseFails tables r).1 bind
      else r
    let props := getTypedProps databaseFails tables r
    .returned props.1 props.2

/-- `lastmodified` of a resource. -/
def lastmodified (id : Id) : Option Text :=
  (tables.resources.find? fun row => row.id == id).bind
    ResourceRow.lastmodified

/-- What is done with the result of the lookup. -/
def getLookedUp (r : DavReposResource) : LookupResult → Outcome
  | .undefined => .undefined
  | .error err => .returned r (some err)
  | .noBind => .returned r none
  | .found bind =>
      let serialno :=
        if bind.resourceId = -1 then bind.parentId else bind.resourceId
      if serialno = 0 then .returned r none
      else
        getPropertyOf databaseFails tables { r with serialno := serialno }
          (some bind) (bind.resourceId == -1)

/-- `sabridge_get_property`. -/
def sabridgeGetProperty (r : DavReposResource) : Outcome :=
  if r.serialno ≠ 0 then getPropertyOf databaseFails tables r none false
  else
    match r.uri, r.rootPath with
    | some uri, some rootPath =>
        if rootPath <:+: uri then
          getLookedUp databaseFails tables r
            (dbmsLookupUri databaseFails tables.binds.rows
              (lastmodified tables) (uri.drop rootPath.length))
        else .returned r none
    | _, _ => .returned r none

end Bridge

/-- A resource as `dav_repos_new_resource` makes it, with a URI. -/
def newResource (rootPath uri : Text) : DavReposResource where
  rootPath := some rootPath
  uri := some uri

end Limestone.BridgeProperty
