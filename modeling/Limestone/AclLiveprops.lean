import Limestone.AclStore
import Limestone.BridgeProperty
import Limestone.DbmsPrincipal
import Limestone.Library.LastSeen
import Mathlib.Data.List.DropRight

/-!
# Setting `DAV:group-member-set`: `acl_liveprops.c`

The names of the new members become the keys of a hash.  A query joins them
with the principals and with the current members; while its rows are read,
the names of current members leave the hash, the other names get the record
of their principal, and the current members without a name are collected for
removal.  The collection is kept in the same hash, under a key of its own.

A NULL column reads as an empty string, and as the number zero.
-/

namespace Limestone.AclLiveprops

open Library
open AclStore (httpForbidden)
open BridgeProperty (DavReposResource PrincipalRow)
open DbmsDbd
open DbmsLookup (number)
open DbmsPrincipal

/-! ## The URLs of principals -/

/-- The fields of a `server_rec` that a URL is made of. -/
structure Server where
  serverHostname : Text
  port : Nat
  /-- `dav_xml_get_cdata` with white space stripped, for a text. -/
  davXmlGetCdata : Text → Text

/-- `principal_href_prefix`. -/
def principalHrefPrefix (server : Server) : Text :=
  "http://".toList ++
    if server.port ≠ 0 ∧ server.port ≠ 80 then
      server.serverHostname ++ ':' :: number server.port
    else server.serverHostname

/-- `PRINCIPAL_USER_PREFIX`. -/
def principalUserPrefix : Text :=
  "/users/".toList

/-- `PRINCIPAL_GROUP_PREFIX`. -/
def principalGroupPrefix : Text :=
  "/groups/".toList

/-- `get_name_from_principal_URL`; `strstr` finds a text anywhere. -/
def getNameFromPrincipalUrl (server : Server) (principalUrl : Text) :
    Option Text :=
  let prinHrefPref := principalHrefPrefix server
  if prinHrefPref <+: principalUrl then
    let path := principalUrl.drop prinHrefPref.length
    if principalUserPrefix <:+: path then
      some (path.drop principalUserPrefix.length)
    else if principalGroupPrefix <:+: path then
      some (path.drop principalGroupPrefix.length)
    else none
  else none

/-! ## Tables -/

/-- A row of `resources`. -/
structure Resource where
  id : Id
  type : ResourceType
deriving DecidableEq, Repr

/--
The membership tables with the tables of principals.  A principal is named by
the `basename` of the URI that it was created at.
-/
structure MemberTables extends GroupTables where
  principals : List PrincipalRow
  resources : List Resource
  /-- The primary key of `resources`. -/
  idKey : (resources.map Resource.id).Nodup
  /-- `fk_pp_resource`. -/
  resourceIdKey : (principals.map PrincipalRow.resourceId).Nodup
  /-- Ids are drawn from a sequence. -/
  positive : ∀ resource ∈ resources, 0 < resource.id
  /-- `principals_resource_id_fkey`. -/
  resource : ∀ prin ∈ principals,
    ∃ row ∈ resources, row.id = prin.resourceId
  /-- `group_members_member_id_fkey`. -/
  member : ∀ row ∈ groupMembers,
    ∃ prin ∈ principals, prin.resourceId = row.memberId
  segment : ∀ prin ∈ principals, '/' ∉ prin.name

/-! ## The hash -/

/-- What the hash of the new members holds. -/
inductive MemberValue where
  /-- The string `""`, the value of a name that was only read. -/
  | empty
  | principal (prin : DavReposResource)
  /-- The array of the members to remove. -/
  | removals (prins : List DavReposResource)
deriving DecidableEq, Repr

/-- The hash of the new members. -/
abbrev MemberHash :=
  AList fun _ : Text => MemberValue

/-- `apr_hash_set`; a NULL value removes the key. -/
def aprHashSet (hash : MemberHash) (key : Text) (value : Option MemberValue) :
    MemberHash :=
  LastSeen.write hash (key, value)

/-- The order in which a hash is iterated over, which its contents decide. -/
structure HashOrder where
  arrange : List (Sigma fun _ : Text => MemberValue) →
    List (Sigma fun _ : Text => MemberValue)
  perm : ∀ entries, (arrange entries).Perm entries

/-- The key of the removals. -/
def toRemoveKey : Text :=
  "-to-remove-".toList

/-- `sabridge_new_dbr_from_dbr`. -/
def sabridgeNewDbrFromDbr (dbR : DavReposResource) : DavReposResource where
  rootPath := dbR.rootPath

/-! ## The members of a group -/

/-- A row of the query of `dbms_get_group_members`. -/
structure MemberRow where
  resourceId : Id
  name : Text
  type : ResourceType
deriving DecidableEq, Repr

/-- A row of the query of `dbms_calculate_group_changes`. -/
structure ChangeRow where
  name : Option Text
  type : Option ResourceType
  id : Option Id
  isAlreadyAMember : Option Bool
deriving DecidableEq, Repr

/-- The database: its keys, its failures and the order of its rows. -/
structure Database where
  schema : Schema
  fails : Bool
  members : Sql.RowOrder MemberRow
  changes : Sql.RowOrder ChangeRow

section Queries

variable (tables : MemberTables) (groupId : Id)

/-- The rows of `dbms_get_group_members`. -/
def memberRows : List MemberRow :=
  ((Sql.crossJoin (Sql.crossJoin tables.principals tables.groupMembers)
      tables.resources).filter fun row =>
    row.1.1.resourceId == row.1.2.memberId &&
      row.1.1.resourceId == row.2.id && row.1.2.groupId == groupId).map
    fun row => ⟨row.1.1.resourceId, row.1.1.name, row.2.type⟩

/-- The names and principals with the current members that they are. -/
def joinedMembers (names : List Text) :
    List (Option (Option PrincipalRow × Text) × Option GroupMember) :=
  let newMembers := Sql.rightJoin tables.principals names
    fun prin name => prin.name == name
  let curMembers := tables.groupMembers.filter fun row =>
    row.groupId == groupId
  Sql.fullJoin newMembers curMembers fun new cur =>
    new.1.any fun prin => prin.resourceId == cur.memberId

/-- The rows joined with the resources of their principals or members. -/
def joinedResources (names : List Text) :
    List ((Option (Option PrincipalRow × Text) × Option GroupMember) ×
      Option Resource) :=
  Sql.leftJoin (joinedMembers tables groupId names) tables.resources
    fun row resource =>
      ((row.1.bind Prod.fst).any fun prin =>
          prin.resourceId == resource.id) ||
        row.2.any fun cur => cur.memberId == resource.id

/-- The columns of `dbms_calculate_group_changes`. -/
def changeRow (new : Option (Option PrincipalRow × Text))
    (cur : Option GroupMember) (resource : Option Resource) : ChangeRow where
  name := new.map Prod.snd
  type := resource.map Resource.type
  id := resource.map Resource.id
  isAlreadyAMember := (new.bind Prod.fst).bind fun prin =>
    cur.map fun row => prin.resourceId == row.memberId

/-- The rows of `dbms_calculate_group_changes` for the quoted names. -/
def changeRows (literals : List Text) : List ChangeRow :=
  (joinedResources tables groupId
      (Sql.union (literals.map readLiteral) [])).map fun row =>
    changeRow row.1.1 row.1.2 row.2

end Queries

/-- A member as `dbms_get_group_members` stores it. -/
def readMember (groupDbr : DavReposResource) (row : MemberRow) :
    DavReposResource :=
  { sabridgeNewDbrFromDbr groupDbr with
    serialno := row.resourceId
    resourcetype := some row.type
    uri :=
      if row.type = .group then some (principalGroupPrefix ++ row.name)
      else if row.type = .user then some (principalUserPrefix ++ row.name)
      else none }

/-- `dbms_get_group_members`. -/
def dbmsGetGroupMembers (database : Database) (tables : MemberTables)
    (groupDbr : DavReposResource) : Except DavError (List DavReposResource) :=
  if database.fails then
    .error ⟨httpInternalServerError, "Can't get group members"⟩
  else
    .ok ((database.members.arrange 0
      (memberRows tables groupDbr.serialno)).map (readMember groupDbr))

/-! ## The changes -/

/-- `new_members_table` with one more name. -/
def addName (table name : Text) : Text :=
  table ++ (if table = [] then [] else " UNION ".toList) ++
    " SELECT text('".toList ++ dbmsEscape name ++ "') ".toList ++
    if table = [] then " AS name ".toList else []

/-- The query of `dbms_calculate_group_changes` before its new members. -/
def changesOpening : Text :=
  "SELECT new_members.name, resources.type, resources.id, ".toList ++
    "       principals.resource_id=cur_members.member_id ".toList ++
    "FROM principals     RIGHT OUTER JOIN (".toList

/-- The query of `dbms_calculate_group_changes` behind its new members. -/
def changesClosing : Text :=
  ") new_members ".toList ++
    "                ON principals.name = new_members.name ".toList ++
    "    FULL OUTER JOIN ".toList ++
    "       (SELECT * FROM group_members WHERE group_id = ?) ".toList ++
    "cur_members ".toList ++
    "                ON principals.resource_id = ".toList ++
    "cur_members.member_id ".toList ++
    "    LEFT OUTER JOIN resources ".toList ++
    "ON principals.resource_id = resources.id ".toList ++
    "                      OR cur_members.member_id=resources.id ".toList

/-- The query of `dbms_calculate_group_changes`. -/
def changesQuery (newMembersTable : Text) : Text :=
  changesOpening ++ newMembersTable ++ changesClosing

/-- The principal of a row. -/
def changedPrin (groupDbr : DavReposResource) (row : ChangeRow) :
    DavReposResource :=
  { sabridgeNewDbrFromDbr groupDbr with
    serialno := row.id.getD 0
    resourcetype := row.type }

/-- One row of `dbms_calculate_group_changes`, and the removals behind it. -/
def readChange (groupDbr : DavReposResource)
    (changes : MemberHash × List DavReposResource) (row : ChangeRow) :
    Except DavError (MemberHash × List DavReposResource) :=
  let name := row.name.getD []
  if row.id.getD 0 = 0 then
    .error ⟨httpConflict, "New member does not exist"⟩
  else if row.isAlreadyAMember = some true then
    .ok (aprHashSet changes.1 name none, changes.2)
  else if name = [] then
    .ok (changes.1, changes.2 ++ [changedPrin groupDbr row])
  else
    .ok (aprHashSet changes.1 name
      (some (.principal (changedPrin groupDbr row))), changes.2)

/-- The names of the hash as the query is built from them. -/
def newNames (iteration : HashOrder) (newMembers : MemberHash) : List Text :=
  (iteration.arrange newMembers.entries).map Sigma.fst

/-- The rows of the query, in the order of the database. -/
def returnedChanges (database : Database) (iteration : HashOrder)
    (tables : MemberTables) (groupId : Id) (newMembers : MemberHash) :
    List ChangeRow :=
  database.changes.arrange 0 (changeRows tables groupId
    ((newNames iteration newMembers).map dbmsEscape))

/-- The text that `dbms_calculate_group_changes` sends, if it does. -/
@[irreducible]
def sentChanges (groupId : Id) (names : List Text) : Option Text :=
  escquery (dbmsSetInt
    (dbmsPrepare (changesQuery (names.foldl addName []))) 1 groupId).2

/-- `dbms_calculate_group_changes`. -/
def dbmsCalculateGroupChanges (database : Database) (iteration : HashOrder)
    (tables : MemberTables) (groupDbr : DavReposResource)
    (newMembers : MemberHash) :
    Except DavError (MemberHash × List DavReposResource) :=
  match sentChanges groupDbr.serialno (newNames iteration newMembers) with
  -- `dbms_execute` has returned 0, and `dbms_next` gives no row
  | none => .ok (newMembers, [])
  | some _ =>
      if database.fails then
        .error ⟨httpInternalServerError, "Can't calculate group changes"⟩
      else
        (returnedChanges database iteration tables groupDbr.serialno
          newMembers).foldlM (readChange groupDbr) (newMembers, [])

/-! ## The property -/

/-- `DAV_PROP_OP_SET` and `DAV_PROP_OP_DELETE`. -/
inductive PropOp where
  | set
  | delete
deriving DecidableEq, Repr

/-- One `DAV:href` of the loop of `dav_acl_patch_validate`. -/
def readHref (server : Server) (newMembers : MemberHash) (href : Text) :
    Except DavError MemberHash :=
  match getNameFromPrincipalUrl server (server.davXmlGetCdata href) with
  | none => .error ⟨httpConflict, "Not a DAV:principal-URL"⟩
  | some prinName => .ok (aprHashSet newMembers prinName (some .empty))

section Patch

variable (server : Server) (database : Database) (iteration : HashOrder)
  (tables : MemberTables) (resource : DavReposResource)

/-- `dav_acl_patch_validate` of `DAV:group-member-set`. -/
def davAclPatchValidate (operation : PropOp) (hrefs : List Text) :
    Except DavError MemberHash :=
  if resource.resourcetype ≠ some .group ∨ operation ≠ .set then
    .error ⟨httpForbidden, "Not a set operation on a group"⟩
  else do
    let newMembers ← hrefs.foldlM (readHref server) ∅
    let changes ← (if newMembers.entries ≠ [] then
        dbmsCalculateGroupChanges database iteration tables resource newMembers
      else
        (dbmsGetGroupMembers database tables resource).map fun toRemove =>
          (newMembers, toRemove))
    return aprHashSet changes.1 toRemoveKey
      (if changes.2 = [] then none else some (.removals changes.2))

/-- What a patch can end with that is not a success. -/
inductive PatchFailure where
  /-- A string is read as the record of a principal. -/
  | undefined
  | error (err : DavError)
deriving DecidableEq, Repr

/-- The removal of one principal. -/
def removeMember (groups : GroupTables) (prin : DavReposResource) :
    Except PatchFailure GroupTables :=
  (sabridgeRemPrinFrmGrp groups resource.serialno prin.serialno).mapError
    .error

/-- The addition of what the hash has for one name. -/
def addMember (groups : GroupTables)
    (entry : Sigma fun _ : Text => MemberValue) :
    Except PatchFailure GroupTables :=
  match entry.2 with
  | .principal prin =>
      (sabridgeAddPrinToGrp database.schema groups resource.serialno
        prin.serialno).mapError .error
  | _ => .error .undefined

/-- The value under `-to-remove-`, which is cast to an array. -/
def readRemovals :
    Option MemberValue → Except PatchFailure (List DavReposResource)
  | none => .ok []
  | some (.removals prins) => .ok prins
  | some _ => .error .undefined

/-- `dav_acl_patch_exec` of `DAV:group-member-set`. -/
def davAclPatchExec (context : MemberHash) :
    Except PatchFailure GroupTables := do
  let toRemove ← readRemovals (context.lookup toRemoveKey)
  let newMembers := aprHashSet context toRemoveKey none
  let groups ← toRemove.foldlM (removeMember resource) tables.toGroupTables
  (iteration.arrange newMembers.entries).foldlM (addMember database resource)
    groups

/-- The two hooks one after the other. -/
def davAclPatch (operation : PropOp) (hrefs : List Text) :
    Except PatchFailure GroupTables :=
  match davAclPatchValidate server database iteration tables resource operation
      hrefs with
  | .error err => .error (.error err)
  | .ok context => davAclPatchExec database iteration tables resource context

/-- The tables after the request, which is rolled back when it fails. -/
def afterPatch (operation : PropOp) (hrefs : List Text) : GroupTables :=
  match davAclPatch server database iteration tables resource operation
      hrefs with
  | .error _ => tables.toGroupTables
  | .ok groups => groups

end Patch

end Limestone.AclLiveprops
