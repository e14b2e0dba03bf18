import Limestone.DbmsCollection
import Limestone.FirstMatch

/-!
# The listing of a collection and the access check

The listing sorts the access control entries by their distance before it asks
whether they are protected, and asks them about the superuser as about anyone
else.  It shows the members that the check allows except where a protected
entry farther away decides otherwise than a nearer one, or for the superuser.
-/

namespace Limestone.ListingFilter

open Library
open DbmsAcl
open DbmsBind
open DbmsCollection
open FirstMatch

/-- The rows of one principal for one privilege. -/
abbrev Applicable (acl : AclTables) (pId : Id) (privilege : AclPrivilege)
    (serialno : Id) : AceRow → Prop :=
  Matches acl pId (fun chi => chi = privilege) serialno

/-- The listing shows a member iff the check allows the privilege on it. -/
def AgreesWithCheck (order : Sql.RowOrder MemberRow) (query : Nat)
    (tables : RepoTables) (acl : AclTables) (principal : DavPrincipal)
    (next : List DavPrincipal) (privilege : AclPrivilege)
    (items : List DavReposResource) (bind : Bind) : Prop :=
  (∃ item ∈ collectionResourceFor order query tables acl principal
      (some privilege.name) items, item.bindId = bind.id) ↔
    (dbmsIsAllow acl .succeeds privilege.privNamespaceId privilege.name
      principal next bind.resourceId none).1 ≠ 0

/--
A protected entry that is first for the check decides as the nearest entry,
if that one is not protected.
-/
def ProtectedAlike (acl : AclTables) (pId : Id) (privilege : AclPrivilege)
    (serialno : Id) : Prop :=
  ∀ near first,
    Sql.IsFirst nearestFirst (Applicable acl pId privilege serialno) near →
    Sql.IsFirst protectedFirst (Applicable acl pId privilege serialno) first →
    near.ace.isProtected = false → first.ace.isProtected = true →
      (near.ace.grantdeny = aclGrant ↔ first.ace.grantdeny = aclGrant)

/-- When the listing agrees with the check. -/
def DecidedAlike (acl : AclTables) (pId : Id) (privilege : AclPrivilege)
    (serialno : Id) : Prop :=
  if pId = superUserId then
    GrantsBy nearestFirst (Applicable acl pId privilege serialno)
  else ProtectedAlike acl pId privilege serialno

theorem aceKey_nearestFirst : AceKey nearestFirst where
  blind := fun _ _ => rfl
  aceId := fun _ _ same => congrArg (fun key => (ofLex (ofLex key).2).2) same

section Orders

variable {acl : AclTables} {pId serialno : Id} {privilege : AclPrivilege}
  {near first row : AceRow}

/-- If a row is applicable, one is first. -/
theorem exists_isFirst
    {Key : Type*} [LinearOrder Key] {key : AceRow → Key} (aceKey : AceKey key)
    (applicable : Applicable acl pId privilege serialno row) :
    ∃ first,
      Sql.IsFirst key (Applicable acl pId privilege serialno) first := by
  have decided : ∀ chi ∈ acl.aclPrivileges,
      decide (chi = privilege) = true ↔ chi = privilege :=
    fun chi _ => decide_eq_true_iff
  rw [Applicable, ← matches_congr decided] at applicable ⊢
  rcases exists_limitOne_matches key applicable with ⟨first, limit⟩
  exact ⟨first, isFirst_matches aceKey limit⟩

/-- Both orders begin with one ACE unless only the second is protected. -/
theorem ace_eq_of_protected_eq
    (nearest : Sql.IsFirst nearestFirst
      (Applicable acl pId privilege serialno) near)
    (protectedOne : Sql.IsFirst protectedFirst
      (Applicable acl pId privilege serialno) first)
    (same : near.ace.isProtected = first.ace.isProtected) :
    near.ace = first.ace := by
  have closer := nearest.least first protectedOne.qualifies
  have safer := protectedOne.least near nearest.qualifies
  simp only [nearestFirst, protectedFirst, same, Prod.Lex.toLex_le_toLex,
    lt_self_iff_false, false_or, true_and] at closer safer
  have ids : near.ace.id = first.ace.id := by
    rcases closer with closer | ⟨tie, less⟩
    · rcases safer with safer | ⟨equal, -⟩
      · exact (lt_asymm closer safer).elim
      · exact (closer.ne equal.symm).elim
    · rcases safer with safer | ⟨-, more⟩
      · exact (safer.ne tie.symm).elim
      · exact le_antisymm less more
  exact List.inj_on_of_nodup_map acl.acesPkey nearest.qualifies.listed
    protectedOne.qualifies.listed ids

/-- A protected ACE that is nearest is first for the check, too. -/
theorem protected_of_near
    (nearest : Sql.IsFirst nearestFirst
      (Applicable acl pId privilege serialno) near)
    (protectedOne : Sql.IsFirst protectedFirst
      (Applicable acl pId privilege serialno) first)
    (isProtected : near.ace.isProtected = true) :
    first.ace.isProtected = true := by
  have safer := protectedOne.least near nearest.qualifies
  by_contra unprotected
  rw [Bool.not_eq_true] at unprotected
  simp only [protectedFirst, isProtected, unprotected,
    Prod.Lex.toLex_le_toLex] at safer
  rcases safer with less | ⟨equal, -⟩
  · exact absurd less (by decide)
  · cases equal

/-- The two orders grant alike iff no protected ACE decides otherwise. -/
theorem protectedAlike_iff :
    (GrantsBy nearestFirst (Applicable acl pId privilege serialno) ↔
        GrantsBy protectedFirst (Applicable acl pId privilege serialno)) ↔
      ProtectedAlike acl pId privilege serialno := by
  constructor
  · intro alike near first nearest protectedOne _ _
    constructor
    · intro grant
      rcases alike.mp ⟨near, nearest, grant⟩ with ⟨other, otherFirst, granted⟩
      rw [ace_eq_of_isFirst aceKey_protectedFirst protectedOne otherFirst]
      exact granted
    · intro grant
      rcases alike.mpr ⟨first, protectedOne, grant⟩ with
        ⟨other, otherFirst, granted⟩
      rw [ace_eq_of_isFirst aceKey_nearestFirst nearest otherFirst]
      exact granted
  · intro alike
    have same : ∀ near first,
        Sql.IsFirst nearestFirst (Applicable acl pId privilege serialno) near →
        Sql.IsFirst protectedFirst (Applicable acl pId privilege serialno)
          first →
        (near.ace.grantdeny = aclGrant ↔ first.ace.grantdeny = aclGrant) := by
      intro near first nearest protectedOne
      by_cases kinds : near.ace.isProtected = first.ace.isProtected
      · rw [ace_eq_of_protected_eq nearest protectedOne kinds]
      · have farther : near.ace.isProtected = false := by
          rw [← Bool.not_eq_true]
          intro isProtected
          rw [isProtected, protected_of_near nearest protectedOne isProtected]
            at kinds
          exact kinds rfl
        rw [farther] at kinds
        exact alike near first nearest protectedOne farther
          (Bool.eq_true_of_not_eq_false (Ne.symm kinds))
    constructor
    · rintro ⟨near, nearest, grant⟩
      rcases exists_isFirst aceKey_protectedFirst nearest.qualifies with
        ⟨first, protectedOne⟩
      exact ⟨first, protectedOne,
        (same near first nearest protectedOne).mp grant⟩
    · rintro ⟨first, protectedOne, grant⟩
      rcases exists_isFirst aceKey_nearestFirst protectedOne.qualifies with
        ⟨near, nearest⟩
      exact ⟨near, nearest, (same near first nearest protectedOne).mpr grant⟩

/-- The column is a grant iff the nearest ACE is. -/
theorem kept_iff
    (known : privilege ∈ acl.aclPrivileges) (bind : Bind) :
    Kept (some (grantdenyColumn acl pId privilege.name)) bind ↔
      GrantsBy nearestFirst
        (Applicable acl pId privilege bind.resourceId) := by
  have chosen : ∀ chi ∈ acl.aclPrivileges,
      (chi.name == privilege.name) = true ↔ chi = privilege := by
    intro chi listed
    rw [beq_iff_eq]
    constructor
    · exact privilege_eq_of_name listed known
    · intro same
      rw [same]
  have granted : grantdenyColumn acl pId privilege.name bind = some aclGrant ↔
      GrantsBy nearestFirst
        (Applicable acl pId privilege bind.resourceId) := by
    rw [grantdenyColumn, limitOne_grants_iff aceKey_nearestFirst,
      matches_congr chosen]
  rw [← granted]
  constructor
  · intro kept
    exact kept _ rfl
  · intro grant column same
    rw [← Option.some.inj same]
    exact grant

end Orders

/--
The listing agrees with the check on a member of a listed collection iff
the superuser's nearest entry is a grant, and for anyone else no protected
entry farther away decides otherwise than the nearest entry.
-/
theorem listing_agrees_iff
    (order : Sql.RowOrder MemberRow) (query : Nat) (tables : RepoTables)
    (acl : AclTables) (principal : DavPrincipal) (next : List DavPrincipal)
    (privilege : AclPrivilege) (items : List DavReposResource)
    (collection : DavReposResource) (bind : Bind)
    (known : privilege ∈ acl.aclPrivileges)
    (listed : collection ∈ listedCollections items)
    (bound : bind ∈ tables.binds.rows)
    (inside : bind.collectionId = collection.serialno) :
    AgreesWithCheck order query tables acl principal next privilege items
        bind ↔
      DecidedAlike acl (davReposGetPrincipalId principal) privilege
        bind.resourceId := by
  have shown : (∃ item ∈ collectionResourceFor order query tables acl principal
      (some privilege.name) items, item.bindId = bind.id) ↔
      GrantsBy nearestFirst (Applicable acl
        (davReposGetPrincipalId principal) privilege bind.resourceId) :=
    (exists_item_iff bound listed inside).trans (kept_iff known bind)
  rw [AgreesWithCheck, shown,
    dbmsIsAllow_privilege_iff known principal next bind.resourceId,
    DecidedAlike]
  by_cases superUser : davReposGetPrincipalId principal = superUserId
  · rw [if_pos superUser]
    simp only [superUser, true_or, iff_true]
  · rw [if_neg superUser, or_iff_right superUser]
    exact protectedAlike_iff

/-- The root collection. -/
def rootCollection : DavReposResource where
  serialno := rootCollectionId
  resourcetype := .collection
  uri := some ['/']
  parentId := 0
  bindId := 0
  hasBind := false

/-- The bind of a resource in the root collection. -/
def member : Bind :=
  ⟨1, "a".toList, rootCollectionId, 7, none⟩

/-- The root collection and its member. -/
def oneMember : RepoTables where
  resources := [⟨rootCollectionId, .collection, 1, 1⟩, ⟨7, .resource, 1, 1⟩]
  binds :=
    { rows := [member]
      pkey := by decide
      collectionIdKey := by decide
      positive := by decide }
  versions := []
  vhrs := []
  vcrs := []
  resourcesPkey := by decide
  vhrsResource := List.nodup_nil
  fkBindCollection := by decide
  fkBindResource := by decide
  fkVersionVhr := noVersions_fkVersionVhr
  fkVhrRootVersion := noVersions_fkVhrRootVersion
  versionType := nofun

/-- The privilege `read`. -/
def read : AclPrivilege :=
  ⟨1, "read".toList, 1, 1, 2⟩

/-- `read`, granted on the member and denied by a protected entry above it. -/
def overruled : AclTables where
  __ := noEntries
  aces := [⟨1, 'G', false, 7, 9⟩, ⟨2, 'D', true, rootCollectionId, 9⟩]
  davAcesPrivileges := [(1, 1), (2, 1)]
  aclPrivileges := [read]
  principals := [(1, "limestone".toList), (9, "fred".toList)]
  aclInheritance := [⟨rootCollectionId, [rootCollectionId]⟩,
    ⟨7, [rootCollectionId, 7]⟩]
  acesPkey := by decide
  aclPrivilegesPkey := by decide
  aclPrivilegesName := by decide
  aclInheritancePkey := by decide
  fkPrivilegeNamespace := by decide

/-- Nothing is decided for a request without a user, which sees nothing. -/
theorem listing_agrees_unauthenticated :
    AgreesWithCheck (Sql.RowOrder.stored _) 0 oneMember overruled
      .unauthenticated [] read [rootCollection] member :=
  (listing_agrees_iff (Sql.RowOrder.stored _) 0 oneMember overruled
    .unauthenticated [] read [rootCollection] rootCollection member
    (by decide) (by decide) (by decide) rfl).mpr (by
      have other : davReposGetPrincipalId .unauthenticated ≠ superUserId := by
        decide
      have unnamed : ∀ ace ∈ overruled.aces, ace.principalId ∉
          membership overruled (davReposGetPrincipalId .unauthenticated) := by
        decide
      rw [DecidedAlike, if_neg other]
      intro near first nearest _ _ _
      exact (unnamed near.ace nearest.qualifies.listed
        nearest.qualifies.named).elim)

/--
The listing shows a member on which a protected entry of the collection
denies reading, and hides it from the superuser.
-/
theorem listing_not_agrees :
    ¬ AgreesWithCheck (Sql.RowOrder.stored _) 0 oneMember overruled (.href 9)
        [] read [rootCollection] member ∧
      ¬ AgreesWithCheck (Sql.RowOrder.stored _) 0 oneMember overruled
        (.href superUserId) [] read [rootCollection] member := by
  constructor
  · intro agrees
    have shown : ∃ item ∈ collectionResourceFor (Sql.RowOrder.stored _) 0
        oneMember overruled (.href 9) (some read.name) [rootCollection],
        item.bindId = member.id := by
      decide
    have denied : (dbmsIsAllow overruled .succeeds read.privNamespaceId
        read.name (.href 9) [] member.resourceId none).1 = 0 := by
      decide
    exact agrees.mp shown denied
  · intro agrees
    have hidden : ¬ ∃ item ∈ collectionResourceFor (Sql.RowOrder.stored _) 0
        oneMember overruled (.href superUserId) (some read.name)
        [rootCollection], item.bindId = member.id := by
      decide
    have allowed : (dbmsIsAllow overruled .succeeds read.privNamespaceId
        read.name (.href superUserId) [] member.resourceId none).1 ≠ 0 := by
      decide
    exact hidden (agrees.mpr allowed)

end Limestone.ListingFilter
