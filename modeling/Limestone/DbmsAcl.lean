import Limestone.DbmsPrincipal
import Limestone.Library.OrderBy
import Limestone.Library.Segments
import Mathlib.Data.Prod.Lex
import Mathlib.Order.OrderDual

/-!
# Access control: `dbms_acl.c` and `acl.c`

An access control entry (ACE) grants or denies privileges on a resource and
all resources that inherit from it.  The check for one privilege and the list
of all privileges that are granted are two queries over the same joins; in
each the first row decides.
-/

namespace Limestone.DbmsAcl

open Library
open DbmsPrincipal

/-! ## Tables -/

/-- A row of `aces`. -/
structure Ace where
  id : Id
  grantdeny : Char
  /-- `protected`. -/
  isProtected : Bool
  resourceId : Id
  principalId : Id
deriving DecidableEq, Repr

/-- A row of `acl_privileges`, a nested set of aggregates. -/
structure AclPrivilege where
  id : Id
  name : Text
  privNamespaceId : Id
  lft : Int
  rgt : Int
deriving DecidableEq, Repr

/-- A row of `acl_inheritance`; the ids are those of the text in `path`. -/
structure AclInheritance where
  resourceId : Id
  path : List Id
deriving DecidableEq, Repr

/-- The text of a path, ids separated by commas. -/
def pathText (path : List Id) : Text :=
  Segments.joined ',' (path.map fun resId => (toString resId).toList)

/--
The tables that the access checks read, with their keys.  That no two
privileges have the same name is no key: their rows are inserted with the
schema and never written.
-/
structure AclTables where
  aces : List Ace
  /-- `ace_id` and `privilege_id`. -/
  davAcesPrivileges : List (Id × Id)
  aclPrivileges : List AclPrivilege
  /-- `id` and `name`. -/
  namespaces : List (Id × Text)
  /-- `resource_id` and `name`. -/
  principals : List (Id × Text)
  transitiveGroupMembers : List TransitiveGroupMember
  aclInheritance : List AclInheritance
  acesPkey : (aces.map Ace.id).Nodup
  aclPrivilegesPkey : (aclPrivileges.map AclPrivilege.id).Nodup
  aclPrivilegesName : (aclPrivileges.map AclPrivilege.name).Nodup
  namespacesPkey : (namespaces.map Prod.fst).Nodup
  namespacesName : (namespaces.map Prod.snd).Nodup
  aclInheritancePkey : (aclInheritance.map AclInheritance.resourceId).Nodup
  fkPrivilegeNamespace : ∀ privilege ∈ aclPrivileges,
    privilege.privNamespaceId ∈ namespaces.map Prod.fst

/-! ## Tables without entries -/

/-- No entries; the only namespace is `DAV:`. -/
def noEntries : AclTables where
  aces := []
  davAcesPrivileges := []
  aclPrivileges := []
  namespaces := [(1, "DAV:".toList)]
  principals := []
  transitiveGroupMembers := []
  aclInheritance := [⟨2, [2]⟩]
  acesPkey := List.nodup_nil
  aclPrivilegesPkey := List.nodup_nil
  aclPrivilegesName := List.nodup_nil
  namespacesPkey := by decide
  namespacesName := by decide
  aclInheritancePkey := by decide
  fkPrivilegeNamespace := nofun

/-! ## Principals -/

/-- A `dav_principal` without its successors. -/
inductive DavPrincipal where
  | all
  | authenticated
  | unauthenticated
  | href (serialno : Id)
  | other
deriving DecidableEq, Repr

def principalAllId : Id := 3

def principalAuthenticatedId : Id := 4

def principalUnauthenticatedId : Id := 5

/-- `SUPER_USER_ID`. -/
def superUserId : Id := 1

/-- `dav_repos_get_principal_id`. -/
def davReposGetPrincipalId : DavPrincipal → Id
  | .all => principalAllId
  | .authenticated => principalAuthenticatedId
  | .unauthenticated => principalUnauthenticatedId
  | .href serialno => serialno
  | .other => 0

/-- `dbms_get_principal_id_from_name`; no name is equal to NULL. -/
def dbmsGetPrincipalIdFromName (tables : AclTables) :
    Option Text → Id
  | none => 0
  | some name =>
      match tables.principals.filter fun row => row.2 == name with
      | [] => 0
      | row :: _ => row.1

/-! ## Joins -/

/-- The groups of a principal and the principal itself. -/
def membership (tables : AclTables) (principalId : Id) : List Id :=
  Sql.union
    ((tables.transitiveGroupMembers.filter fun row =>
      row.transitiveMemberId == principalId).map (·.transitiveGroupId))
    [principalId]

/-- The privileges that contain one with the property. -/
def parPrivIds (tables : AclTables) (isChi : AclPrivilege → Bool) : List Id :=
  ((Sql.crossJoin tables.aclPrivileges tables.aclPrivileges).filter
    fun pair => decide (pair.1.lft ≤ pair.2.lft) &&
      decide (pair.2.rgt ≤ pair.1.rgt) && isChi pair.2).map fun pair =>
        pair.1.id

/-- The resources that a resource inherits from, with their paths. -/
def inheritedRes (tables : AclTables) (resourceId : Id) :
    List AclInheritance :=
  ((Sql.crossJoin tables.aclInheritance tables.aclInheritance).filter
    fun pair => decide (pair.1.resourceId ∈ pair.2.path) &&
      pair.2.resourceId == resourceId).map Prod.fst

/-- A row of the joins: the requester it is for, the ACE and its resource. -/
structure AceRow where
  pId : Nat
  ace : Ace
  parRes : AclInheritance
deriving DecidableEq, Repr

/-- The joins of `aces` that all three queries share. -/
def aceRows (tables : AclTables) (members : List (Nat × Id))
    (privs : List Id) (resources : List AclInheritance) : List AceRow :=
  tables.aces.flatMap fun ace =>
    (tables.davAcesPrivileges.filter fun ap => ap.1 == ace.id).flatMap
      fun ap =>
        (members.filter fun member => member.2 == ace.principalId).flatMap
          fun member =>
            (privs.filter fun priv => priv == ap.2).flatMap fun _ =>
              (resources.filter fun res =>
                  res.resourceId == ace.resourceId).map fun res =>
                ⟨member.1, ace, res⟩

/-! ## Sort keys -/

/-- `CHAR_LENGTH(par_res_path)`. -/
def charLength (row : AceRow) : Nat :=
  (pathText row.parRes.path).length

/-- `protected DESC, CHAR_LENGTH(par_res_path) DESC, id`. -/
def protectedFirst (row : AceRow) : Bool ×ₗ ℕᵒᵈ ×ₗ Int :=
  toLex (!row.ace.isProtected,
    toLex (OrderDual.toDual (charLength row), row.ace.id))

/-- `p_id, protected DESC, CHAR_LENGTH(par_res_path) DESC, id`. -/
def principalFirst (row : AceRow) : ℕ ×ₗ Bool ×ₗ ℕᵒᵈ ×ₗ Int :=
  toLex (row.pId, protectedFirst row)

/-- `ACL_GRANT`. -/
def aclGrant : Char := 'G'

/-! ## The check -/

/-- What becomes of the query of a check. -/
inductive QueryOutcome where
  | executeFails
  /-- `dbms_next` fails after so many rows. -/
  | fetchFails (rows : Nat)
  | succeeds
deriving DecidableEq, Repr

/-- An `ace_cache_t`. -/
structure AceCache where
  principalId : Id
  privNsId : Id
  privilege : Text
  isAllow : Bool
deriving DecidableEq, Repr

/-- The pairs of `members_query`: the order of a principal and its groups. -/
def membersQuery (tables : AclTables) :
    Nat → List DavPrincipal → List (Nat × Id)
  | _, [] => []
  | order, principal :: rest =>
      (membership tables (davReposGetPrincipalId principal)).map
          (fun groupId => (order, groupId)) ++
        membersQuery tables (order + 1) rest

/-- The joins of the check. -/
def isAllowRows (tables : AclTables) (privNsId : Id) (privilege : Text)
    (principals : List DavPrincipal) (serialno : Id) : List AceRow :=
  aceRows tables (membersQuery tables 1 principals)
    (parPrivIds tables fun chi =>
      chi.name == privilege && chi.privNamespaceId == privNsId)
    (inheritedRes tables serialno)

/-- `is_allow_query`. -/
def isAllowQuery (tables : AclTables) (privNsId : Id) (privilege : Text)
    (principals : List DavPrincipal) (serialno : Id) : List AceRow :=
  Sql.distinctOn AceRow.pId (Sql.orderBy principalFirst
    (isAllowRows tables privNsId privilege principals serialno))

/-- The variables of the loop over the principals. -/
structure AllowLoop where
  /-- The rows that `dbms_next` has yet to return. -/
  rows : List AceRow
  nextOrder : Nat
  nextIsAllow : Bool
  retVal : Bool
deriving Repr

/-- The call of `dbms_next` for the principal with the number `order`. -/
def AllowLoop.advance (maxOrder order : Nat) (loop : AllowLoop) : AllowLoop :=
  if loop.nextOrder < order then
    match loop.rows with
    | row :: rows =>
        let isAllow := row.ace.grantdeny == aclGrant
        { rows := rows
          nextOrder := row.pId
          nextIsAllow := isAllow
          retVal := if row.pId = 1 then isAllow else loop.retVal }
    | [] => { loop with nextOrder := maxOrder + 1 }
  else loop

/-- The loop: the value to be returned and the cache. -/
def allowLoop (maxOrder : Nat) (privNsId : Id) (privilege : Text) :
    Nat → List DavPrincipal → AllowLoop → Option AceCache →
      Bool × Option AceCache
  | _, [], loop, cache => (loop.retVal, cache)
  | order, principal :: rest, loop, _ =>
      let loop := loop.advance maxOrder order
      allowLoop maxOrder privNsId privilege (order + 1) rest loop
        (some
          { principalId := davReposGetPrincipalId principal
            privNsId := privNsId
            privilege := privilege
            isAllow := decide (loop.nextOrder = order) && loop.nextIsAllow })

/-- The rows that are fetched before `dbms_next` fails. -/
def QueryOutcome.fetched (outcome : QueryOutcome) (rows : List AceRow) :
    List AceRow :=
  match outcome with
  | .executeFails => []
  | .fetchFails count => rows.take count
  | .succeeds => rows

/-- The entry of the cache when it is about the principal and privilege. -/
def cacheHit (cache : Option AceCache) (pId privNsId : Id)
    (privilege : Text) : Option AceCache :=
  cache.filter fun entry => entry.principalId == pId &&
    entry.privNsId == privNsId && entry.privilege == privilege

/-- An `int` that is used as a truth value. -/
def truth (value : Bool) : Int :=
  if value then 1 else 0

/--
`dbms_is_allow` for a principal and its successors: the value returned and
the `ace_cache` of the resource.
-/
def dbmsIsAllow (tables : AclTables) (outcome : QueryOutcome) (privNsId : Id)
    (privilege : Text) (principal : DavPrincipal) (next : List DavPrincipal)
    (serialno : Id) (cache : Option AceCache) : Int × Option AceCache :=
  let pId := davReposGetPrincipalId principal
  if pId = superUserId then (1, cache)
  else
    match cacheHit cache pId privNsId privilege with
    | some entry => (truth entry.isAllow, cache)
    | none =>
        match outcome with
        | .executeFails => (httpInternalServerError, cache)
        | outcome =>
            let principals := principal :: next
            let rows := outcome.fetched
              (isAllowQuery tables privNsId privilege principals serialno)
            let (retVal, cache) :=
              allowLoop principals.length privNsId privilege 1 principals
                { rows, nextOrder := 0, nextIsAllow := false, retVal := false }
                cache
            (truth retVal, cache)

/-- `sabridge_get_namespace_id`. -/
def sabridgeGetNamespaceId (tables : AclTables) (namespaceName : Text) : Id :=
  match tables.namespaces.filter fun row => row.2 == namespaceName with
  | [] => 0
  | row :: _ => row.1

/-- `dav_repos_is_allow` for a privilege with its namespace. -/
def davReposIsAllow (tables : AclTables) (outcome : QueryOutcome)
    (privilegeNamespace privilege : Text) (principal : DavPrincipal)
    (next : List DavPrincipal) (serialno : Id) (cache : Option AceCache) :
    Int × Option AceCache :=
  dbmsIsAllow tables outcome (sabridgeGetNamespaceId tables privilegeNamespace)
    privilege principal next serialno cache

/-! ## The list of granted privileges -/

/-- The scalar subquery `action` for one privilege. -/
def privilegeAction (tables : AclTables) (principalId resourceId : Id)
    (outer : AclPrivilege) : Option Char :=
  (Sql.limitOne (Sql.orderBy protectedFirst
    (aceRows tables ((membership tables principalId).map fun groupId =>
        (0, groupId))
      (parPrivIds tables fun chi => chi.id == outer.id)
      (inheritedRes tables resourceId)))).map fun row => row.ace.grantdeny

/-- `dbms_get_privileges`: namespaces and names. -/
def dbmsGetPrivileges (tables : AclTables) (principalId resourceId : Id) :
    List (Text × Text) :=
  (((Sql.crossJoin tables.aclPrivileges tables.namespaces).filter
    fun pair => pair.2.1 == pair.1.privNamespaceId).filter fun pair =>
      privilegeAction tables principalId resourceId pair.1 ==
        some aclGrant).map fun pair => (pair.2.2, pair.1.name)

/--
The elements that `acl_current_user_privilege_set` writes in those of
`D:privilege`, without the line breaks of a debug build.  Their prefix is that
of `DAV:` whatever namespace the privilege has.
-/
def aclCurrentUserPrivilegeSet (tables : AclTables) (user : Option Text)
    (serialno : Id) : List (Text × Text) :=
  (dbmsGetPrivileges tables (dbmsGetPrincipalIdFromName tables user)
    serialno).map fun privilege => ("DAV:".toList, privilege.2)

end Limestone.DbmsAcl
