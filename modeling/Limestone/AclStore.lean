import Limestone.DbmsAcl
import Limestone.ReverseLookup
import Mathlib.Logic.Function.Basic

/-!
# Storing and reading an ACL: `dav_repos_set_acl` and `dbms_get_acl`

An ACE is written as one row of `aces` and one row of `dav_aces_privileges`
for each of its privileges.  It is read back from the rows of a join, one for
each privilege: a new ACE begins where the id of the ACE changes.

The database executes every statement here that breaks no key.
-/

namespace Limestone.AclStore

open Library
open DbmsAcl
open DbmsBind
open ReverseLookup

/-! ## Tables -/

/--
The tables of the access checks with the other columns of `aces` and what the
sequences give next.
-/
structure AceStore extends AclTables where
  /-- `property_namespace_id` and `property_name` of an ACE. -/
  property : Id → Id × Option Text
  /-- `aces_id_seq`. -/
  nextAceId : Id
  /-- `namespaces_id_seq`. -/
  nextNamespaceId : Id
  nextAceIdPos : 0 < nextAceId
  nextNamespaceIdPos : 0 < nextNamespaceId
  aceIds : ∀ ace ∈ aces, 0 < ace.id ∧ ace.id < nextAceId
  namespaceIds : ∀ row ∈ namespaces, 0 < row.1 ∧ row.1 < nextNamespaceId
  privilegeIds : ∀ privilege ∈ aclPrivileges, 0 < privilege.id
  davAcesPrivilegesPkey : davAcesPrivileges.Nodup
  fkAce : ∀ pair ∈ davAcesPrivileges, pair.1 ∈ aces.map Ace.id
  principalsPkey : (principals.map Prod.fst).Nodup

/-- The `ace_property` of an ACE, the name of an XML element. -/
structure AceProperty where
  /-- `none` is NULL. -/
  ns : Option Text
  name : Text
  nonempty : name ≠ []
deriving DecidableEq, Repr

/-- A `dav_privileges`, a set of namespaces and names. -/
structure DavPrivileges where
  privileges : List (Text × Text)
  nodup : privileges.Nodup
deriving DecidableEq, Repr

/-- A `dav_ace` that is submitted. -/
structure DavAce where
  principal : DavPrincipal
  /-- The URI of the resource of an HREF principal. -/
  principalUri : Text
  property : Option AceProperty
  privileges : DavPrivileges
  isDeny : Bool
  isProtected : Bool
deriving DecidableEq, Repr

/-- What mod_dav makes of names and numbers of the repository. -/
structure ModDav where
  /-- `dav_principal_make_from_url` for the URL of a principal's name. -/
  principalMakeFromName : Text → DavPrincipal
  /-- The name of a `dav_privilege_new_by_type`. -/
  privilegeName : Id → Text

/-- `ACL_DENY`. -/
def aclDeny : Char := 'D'

def httpForbidden : Nat := 403

/-- `dav_repos_get_prin_by_name`. -/
def davReposGetPrinByName (modDav : ModDav) (name : Text) : DavPrincipal :=
  if name = "all".toList then .all
  else if name = "authenticated".toList then .authenticated
  else if name = "unauthenticated".toList then .unauthenticated
  else modDav.principalMakeFromName name

/-! ## Writing -/

/-- The ACEs that are not deleted. -/
def keepsAce (serialno : Id) (ace : Ace) : Bool :=
  !(ace.resourceId == serialno && !ace.isProtected)

/-- `dbms_delete_own_aces`; the privileges of an ACE are deleted with it. -/
def dbmsDeleteOwnAces (store : AceStore) (serialno : Id) : AceStore :=
  { store with
    aces := store.aces.filter (keepsAce serialno)
    davAcesPrivileges := store.davAcesPrivileges.filter fun pair =>
      decide (pair.1 ∈ (store.aces.filter (keepsAce serialno)).map Ace.id)
    acesPkey := store.acesPkey.sublist (List.filter_sublist.map Ace.id)
    aceIds := fun ace member =>
      store.aceIds ace (List.mem_of_mem_filter member)
    davAcesPrivilegesPkey := store.davAcesPrivilegesPkey.filter _
    fkAce := fun _ member => of_decide_eq_true (List.mem_filter.mp member).2 }

/-- `dbms_insert_ns` for a namespace without a row. -/
def dbmsInsertNs (store : AceStore) (ns : Text)
    (fresh : ns ∉ store.namespaces.map Prod.snd) : AceStore :=
  { store with
    namespaces := store.namespaces ++ [(store.nextNamespaceId, ns)]
    nextNamespaceId := store.nextNamespaceId + 1
    namespacesPkey := Sql.nodup_key_append store.namespacesPkey
      (Sql.next_not_mem fun row member => (store.namespaceIds row member).2)
    namespacesName := Sql.nodup_key_append store.namespacesName fresh
    fkPrivilegeNamespace := fun privilege member => by
      rw [List.map_append]
      exact List.mem_append_left _
        (store.fkPrivilegeNamespace privilege member)
    nextNamespaceIdPos := Int.lt_add_one_of_le (le_of_lt store.nextNamespaceIdPos)
    namespaceIds := by
      intro row member
      rcases List.mem_append.mp member with old | isNew
      · have ids := store.namespaceIds row old
        exact ⟨ids.1, Int.lt_add_one_of_le (le_of_lt ids.2)⟩
      · rcases List.mem_singleton.mp isNew with rfl
        exact ⟨store.nextNamespaceIdPos, Int.lt_add_one_of_le le_rfl⟩ }

/-- `dbms_get_ns_id`; the id of a row is not zero. -/
def dbmsGetNsId (store : AceStore) (ns : Text) : AceStore × Id :=
  if listed : ns ∈ store.namespaces.map Prod.snd then
    (store, sabridgeGetNamespaceId store.toAclTables ns)
  else (dbmsInsertNs store ns listed, store.nextNamespaceId)

/-- The row of an ACE. -/
def DavAce.row (ace : DavAce) (id serialno : Id) : Ace where
  id := id
  grantdeny := if ace.isDeny then aclDeny else aclGrant
  isProtected := ace.isProtected
  resourceId := serialno
  principalId := davReposGetPrincipalId ace.principal

/-- The INSERT INTO `aces`. -/
def insertAce (store : AceStore) (serialno : Id) (ace : DavAce) (nsId : Id) :
    AceStore :=
  { store with
    aces := store.aces ++ [ace.row store.nextAceId serialno]
    property := Function.update store.property store.nextAceId
      (nsId, ace.property.map AceProperty.name)
    nextAceId := store.nextAceId + 1
    acesPkey := Sql.nodup_key_append store.acesPkey
      (Sql.next_not_mem fun row member => (store.aceIds row member).2)
    nextAceIdPos := Int.lt_add_one_of_le (le_of_lt store.nextAceIdPos)
    aceIds := by
      intro row member
      rcases List.mem_append.mp member with old | isNew
      · have ids := store.aceIds row old
        exact ⟨ids.1, Int.lt_add_one_of_le (le_of_lt ids.2)⟩
      · rcases List.mem_singleton.mp isNew with rfl
        exact ⟨store.nextAceIdPos, Int.lt_add_one_of_le le_rfl⟩
    fkAce := fun pair member => by
      rw [List.map_append]
      exact List.mem_append_left _ (store.fkAce pair member) }

theorem nextAceId_mem_insertAce
    (store : AceStore) (serialno : Id) (ace : DavAce) (nsId : Id) :
    store.nextAceId ∈ (insertAce store serialno ace nsId).aces.map Ace.id := by
  rw [insertAce, List.map_append]
  exact List.mem_append_right _ (List.mem_singleton_self _)

/-- `dbms_get_privilege_id`: zero for an unknown privilege. -/
def dbmsGetPrivilegeId (tables : AclTables) (privilege : Text × Text) : Id :=
  let privNsId := sabridgeGetNamespaceId tables privilege.1
  match tables.aclPrivileges.filter fun row =>
      row.name == privilege.2 && row.privNamespaceId == privNsId with
  | [] => 0
  | row :: _ => row.id

/-- The INSERT INTO `dav_aces_privileges`; its result is ignored. -/
def insertAcePrivilege (store : AceStore) (aceId privilegeId : Id)
    (listed : aceId ∈ store.aces.map Ace.id) : AceStore :=
  if held : (aceId, privilegeId) ∈ store.davAcesPrivileges then store
  else
    { store with
      davAcesPrivileges := store.davAcesPrivileges ++ [(aceId, privilegeId)]
      davAcesPrivilegesPkey := by
        rw [List.nodup_append]
        refine ⟨store.davAcesPrivilegesPkey, List.nodup_singleton _, ?_⟩
        intro pair member other isNew same
        rcases List.mem_singleton.mp isNew with rfl
        rw [same] at member
        exact held member
      fkAce := by
        intro pair member
        rcases List.mem_append.mp member with old | isNew
        · exact store.fkAce pair old
        · rcases List.mem_singleton.mp isNew with rfl
          exact listed }

@[simp]
theorem aces_insertAcePrivilege
    {store : AceStore} {aceId privilegeId : Id}
    (listed : aceId ∈ store.aces.map Ace.id) :
    (insertAcePrivilege store aceId privilegeId listed).aces = store.aces := by
  rw [insertAcePrivilege]
  split
  · rfl
  · rfl

/-- The loop of `dbms_add_ace` with `dbms_add_ace_privilege`. -/
def addAcePrivileges (aceId : Id) :
    (store : AceStore) → aceId ∈ store.aces.map Ace.id →
      List (Text × Text) → Except DavError AceStore
  | store, _, [] => .ok store
  | store, listed, privilege :: privileges =>
      let privilegeId := dbmsGetPrivilegeId store.toAclTables privilege
      if privilegeId < 1 then
        .error ⟨httpForbidden, "not-supported-privilege"⟩
      else
        addAcePrivileges aceId
          (insertAcePrivilege store aceId privilegeId listed)
          (by rw [aces_insertAcePrivilege]; exact listed) privileges

/-- The namespace of the property of an ACE, zero without one. -/
def propertyNsId (store : AceStore) (ace : DavAce) : AceStore × Id :=
  match ace.property.bind AceProperty.ns with
  | none => (store, 0)
  | some ns => dbmsGetNsId store ns

/-- `dbms_add_ace`. -/
def dbmsAddAce (store : AceStore) (serialno : Id) (ace : DavAce) :
    Except DavError AceStore :=
  let named := propertyNsId store ace
  addAcePrivileges named.1.nextAceId
    (insertAce named.1 serialno ace named.2)
    (nextAceId_mem_insertAce named.1 serialno ace named.2)
    ace.privileges.privileges

/-! ## Conflicts -/

/-- What the check of conflicts compares. -/
structure AceOutline where
  isDeny : Bool
  principalName : Text
  privileges : List Text
deriving DecidableEq, Repr

/-- `dav_repos_principal_to_s`, up to its last slash. -/
def principalName (ace : DavAce) : Text :=
  match ace.principal with
  | .all => "all".toList
  | .authenticated => "authenticated".toList
  | .unauthenticated => "unauthenticated".toList
  | .href _ => basename ace.principalUri
  | .other => []

/-- The outline of an ACE that is submitted. -/
def DavAce.outline (ace : DavAce) : AceOutline where
  isDeny := ace.isDeny
  principalName := principalName ace
  privileges := ace.privileges.privileges.map Prod.snd

/-- `sabridge_check_privileges_overlap`. -/
def sabridgeCheckPrivilegesOverlap (p q : List Text) : Bool :=
  p.any fun privilege => decide (privilege ∈ q)

/-- `sabridge_acl_check_preconditions`: no ACEs conflict. -/
def sabridgeAclCheckPreconditions (acl acldest : List AceOutline) : Bool :=
  acl.all fun first => acldest.all fun second =>
    !(first.isDeny != second.isDeny &&
      first.principalName == second.principalName &&
      sabridgeCheckPrivilegesOverlap first.privileges second.privileges)

/-- `dbms_get_protected_aces`: an ACE for each privilege. -/
def dbmsGetProtectedAces (modDav : ModDav) (store : AceStore)
    (serialno : Id) : List AceOutline :=
  (store.aces.filter fun ace =>
      ace.resourceId == serialno && ace.isProtected).flatMap fun ace =>
    (store.principals.filter fun row =>
        row.1 == ace.principalId).flatMap fun row =>
      (store.davAcesPrivileges.filter fun pair => pair.1 == ace.id).map
        fun pair =>
          { isDeny := ace.grantdeny != aclGrant
            principalName := basename row.2
            privileges := [modDav.privilegeName pair.2] }

/-- `dav_repos_set_acl`. -/
def davReposSetAcl (modDav : ModDav) (store : AceStore) (serialno : Id)
    (acl : List DavAce) : Except DavError AceStore :=
  let store := dbmsDeleteOwnAces store serialno
  let protectedAcl := dbmsGetProtectedAces modDav store serialno
  let outlines := acl.map DavAce.outline
  if !sabridgeAclCheckPreconditions outlines outlines then
    .error ⟨httpConflict, "no-ace-conflict"⟩
  else if !sabridgeAclCheckPreconditions outlines protectedAcl then
    .error ⟨httpForbidden, "no-protected-ace-conflict"⟩
  else acl.foldlM (fun store ace => dbmsAddAce store serialno ace) store

/-! ## Reading -/

/-- A row of the query of `dbms_get_acl`. -/
structure GetAclRow where
  principal : Text
  ns : Option Text
  propertyName : Option Text
  ace : Ace
  privilegeId : Id
  parRes : AclInheritance
deriving DecidableEq, Repr

/-- `protected DESC, CHAR_LENGTH(par_res_path) DESC, aces.id`. -/
def GetAclRow.sortKey (row : GetAclRow) : Bool ×ₗ ℕᵒᵈ ×ₗ Int :=
  protectedFirst ⟨0, row.ace, row.parRes⟩

/-- The joins of the query. -/
def getAclRows (store : AceStore) (serialno : Id) : List GetAclRow :=
  store.aces.flatMap fun ace =>
    (store.davAcesPrivileges.filter fun pair => pair.1 == ace.id).flatMap
      fun pair =>
        (store.principals.filter fun row =>
            row.1 == ace.principalId).flatMap fun prin =>
          ((inheritedRes store.toAclTables serialno).filter fun res =>
              res.resourceId == ace.resourceId).map fun res =>
            { principal := prin.2
              ns := (store.namespaces.find? fun row =>
                row.1 == (store.property ace.id).1).map Prod.snd
              propertyName := (store.property ace.id).2
              ace := ace
              privilegeId := pair.2
              parRes := res }

/-- A `dav_ace` that is read. -/
structure ListedAce where
  principal : DavPrincipal
  property : Option (Option Text × Text)
  /-- The types of the privileges. -/
  privileges : List Id
  isDeny : Bool
  inherited : Option Text
  isProtected : Bool
deriving DecidableEq, Repr

/-- The variables of the loop over the rows. -/
structure GetAclLoop where
  acl : List ListedAce
  prevAceId : Id
  acePending : Bool
  /-- The variables that the next ACE is made of. -/
  ace : ListedAce
deriving DecidableEq, Repr

section Reading

variable (modDav : ModDav) (reverseLookup : Id → Option Text) (serialno : Id)

/-- The start of the loop. -/
def GetAclLoop.start : GetAclLoop where
  acl := []
  prevAceId := -1
  acePending := false
  ace :=
    { principal := .other
      property := none
      privileges := []
      isDeny := false
      inherited := none
      isProtected := false }

/-- The ACE that is pending goes to the list. -/
def GetAclLoop.flush (loop : GetAclLoop) : List ListedAce :=
  if loop.acePending then loop.acl ++ [loop.ace] else loop.acl

/-- Another ACE begins. -/
def GetAclLoop.begin (loop : GetAclLoop) (row : GetAclRow) : GetAclLoop :=
  if loop.prevAceId ≠ row.ace.id then
    { loop with
      acl := loop.flush
      prevAceId := row.ace.id
      ace :=
        { loop.ace with privileges := [], inherited := none, property := none } }
  else loop

/-- A row is put into the variables, with the URI of a parent. -/
def absorb (uri : Option Text) (ace : ListedAce) (row : GetAclRow) :
    ListedAce where
  principal := davReposGetPrinByName modDav row.principal
  property :=
    match row.propertyName with
    | none | some [] => ace.property
    | some name => some (row.ns, name)
  privileges := ace.privileges ++ [row.privilegeId]
  isDeny := row.ace.grantdeny != aclGrant
  inherited := uri.or ace.inherited
  isProtected := row.ace.isProtected

/-- The reverse lookup of the parent when the ACE is inherited. -/
def parentUri (row : GetAclRow) : Option (Option Text) :=
  if row.parRes.resourceId ≠ serialno then
    (reverseLookup row.parRes.resourceId).map some
  else some none

/-- The body of the loop. -/
def GetAclLoop.step (loop : GetAclLoop) (row : GetAclRow) :
    Option GetAclLoop :=
  (parentUri reverseLookup serialno row).map fun uri =>
    let loop := loop.begin row
    { loop with
      ace := absorb modDav uri loop.ace row
      acePending := true }

/--
`dbms_get_acl`, `none` where `sabridge_reverse_lookup` compares a NULL path: the
parent of an inherited ACE has no path from the root.
-/
def dbmsGetAcl (fuel : Nat) (pathOrder : Sql.RowOrder Bind)
    (binds : List Bind) (rootPath : Text) (order : Sql.RowOrder GetAclRow)
    (store : AceStore) : Option (List ListedAce) :=
  let rows := Sql.orderBy GetAclRow.sortKey
    (order.arrange 0 (getAclRows store serialno))
  let reverseLookup := fun parentId =>
    (sabridgeReverseLookup fuel pathOrder binds rootPath parentId).join
  (rows.foldlM (GetAclLoop.step modDav reverseLookup serialno)
    GetAclLoop.start).map GetAclLoop.flush

end Reading

end Limestone.AclStore
