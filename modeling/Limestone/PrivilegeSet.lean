import Limestone.FirstMatch

/-!
# The privilege set of the current user and the access check

The list of granted privileges looks up the principal by the name of the
user, where the check is given the principal of the request.  They differ for
a request without a user, whose name is NULL and equal to no name, and for
the superuser, whom the list does not let pass.  A privilege that is granted
is written with the prefix of `DAV:`, also when it has another namespace.
-/

namespace Limestone.PrivilegeSet

open Library
open DbmsAcl
open AclDecision
open FirstMatch

/-- Namespaces and names of the privileges that there are. -/
def privilegeNames (tables : AclTables) : List (Text × Text) :=
  ((Sql.crossJoin tables.aclPrivileges tables.namespaces).filter
    fun pair => pair.2.1 == pair.1.privNamespaceId).map
      fun pair => (pair.2.2, pair.1.name)

/--
The privileges that are written are those that the check allows.  The principal
of a request and its successors are made by `dav_principal_make_from_request`.
-/
def AgreesWithCheck (tables : AclTables)
    (makeFromRequest : Option Text → DavPrincipal × List DavPrincipal)
    (user : Option Text) (serialno : Id) : Prop :=
  ∀ privilege, privilege ∈ aclCurrentUserPrivilegeSet tables user serialno ↔
    privilege ∈ privilegeNames tables ∧
      (davReposIsAllow tables .succeeds privilege.1 privilege.2
        (makeFromRequest user).1 (makeFromRequest user).2 serialno none).1 ≠ 0

/-- The first ACE for a principal and a privilege is a grant. -/
def Granted (tables : AclTables) (serialno pId : Id)
    (privilege : AclPrivilege) : Prop :=
  GrantsBy protectedFirst
    (Matches tables pId (fun chi => chi = privilege) serialno)

/--
Nothing is decided otherwise for the principal that is looked up than for the
one that makes the request: for a request without a user the principals with
the ids 0 and 5, for the superuser the principal with the id 1 and everything.
-/
def DecidedAlike (tables : AclTables) (serialno : Id) : Option Text → Prop
  | none => ∀ privilege ∈ tables.aclPrivileges,
      Granted tables serialno 0 privilege ↔
        Granted tables serialno principalUnauthenticatedId privilege
  | some name =>
      dbmsGetPrincipalIdFromName tables (some name) = superUserId →
        ∀ privilege ∈ tables.aclPrivileges,
          Granted tables serialno superUserId privilege

/-- The privilege is of the namespace `DAV:`. -/
def IsDav (tables : AclTables) (privilege : AclPrivilege) : Prop :=
  (privilege.privNamespaceId, "DAV:".toList) ∈ tables.namespaces

/-- Nothing that the requester is allowed is of another namespace. -/
def WrittenRight (tables : AclTables) (serialno : Id) : Option Text → Prop
  | none => ∀ privilege ∈ tables.aclPrivileges,
      Granted tables serialno principalUnauthenticatedId privilege →
        IsDav tables privilege
  | some name => ∀ privilege ∈ tables.aclPrivileges,
      dbmsGetPrincipalIdFromName tables (some name) = superUserId ∨
          Granted tables serialno
            (dbmsGetPrincipalIdFromName tables (some name)) privilege →
        IsDav tables privilege

section Privileges

variable {tables : AclTables} {serialno pId : Id} {privilege : AclPrivilege}
  {row : Id × Text}

theorem mem_privilegeNames {pair : Text × Text} :
    pair ∈ privilegeNames tables ↔
      ∃ privilege ∈ tables.aclPrivileges, ∃ row ∈ tables.namespaces,
        row.1 = privilege.privNamespaceId ∧ pair = (row.2, privilege.name) := by
  simp only [privilegeNames, List.mem_map, List.mem_filter, Sql.mem_crossJoin,
    beq_iff_eq, Prod.exists]
  constructor
  · rintro ⟨privilege, nsId, nsName, ⟨⟨listed, known⟩, same⟩, rfl⟩
    exact ⟨privilege, listed, nsId, nsName, known, same, rfl⟩
  · rintro ⟨privilege, listed, nsId, nsName, known, same, rfl⟩
    exact ⟨privilege, nsId, nsName, ⟨⟨listed, known⟩, same⟩, rfl⟩

theorem privilegeAction_eq_grant_iff
    (listed : privilege ∈ tables.aclPrivileges) :
    privilegeAction tables pId serialno privilege = some aclGrant ↔
      Granted tables serialno pId privilege := by
  have chosen : ∀ chi ∈ tables.aclPrivileges,
      (chi.id == privilege.id) = true ↔ chi = privilege := by
    intro chi chiListed
    rw [beq_iff_eq]
    constructor
    · exact List.inj_on_of_nodup_map tables.aclPrivilegesPkey chiListed listed
    · intro same
      rw [same]
  rw [privilegeAction, limitOne_grants_iff aceKey_protectedFirst, Granted,
    matches_congr chosen]

/-- A privilege is listed iff it is granted to the principal looked up. -/
theorem mem_dbmsGetPrivileges_iff
    (listed : privilege ∈ tables.aclPrivileges)
    (known : row ∈ tables.namespaces)
    (same : row.1 = privilege.privNamespaceId) :
    (row.2, privilege.name) ∈ dbmsGetPrivileges tables pId serialno ↔
      Granted tables serialno pId privilege := by
  rw [← privilegeAction_eq_grant_iff listed]
  simp only [dbmsGetPrivileges, List.mem_map, List.mem_filter,
    Sql.mem_crossJoin, beq_iff_eq, Prod.exists, Prod.mk.injEq]
  constructor
  · rintro ⟨other, nsId, nsName, ⟨⟨⟨otherListed, -⟩, -⟩, granted⟩, -, name⟩
    rw [← privilege_eq_of_name otherListed listed name]
    exact granted
  · intro granted
    exact ⟨privilege, row.1, row.2, ⟨⟨⟨listed, known⟩, same⟩, granted⟩,
      rfl, rfl⟩

theorem sabridgeGetNamespaceId_eq (known : row ∈ tables.namespaces) :
    sabridgeGetNamespaceId tables row.2 = row.1 := by
  have member : row ∈ tables.namespaces.filter fun other =>
      other.2 == row.2 :=
    List.mem_filter.mpr ⟨known, beq_self_eq_true _⟩
  rw [sabridgeGetNamespaceId]
  rcases Sql.filter_key tables.namespacesName row.2 with none | ⟨other, only⟩
  · rw [none] at member
    cases member
  · rw [only, List.mem_singleton] at member
    rw [only, member]

/-- The check allows a privilege iff it is granted or the user is super. -/
theorem davReposIsAllow_iff
    {principal : DavPrincipal} {next : List DavPrincipal}
    (listed : privilege ∈ tables.aclPrivileges)
    (known : row ∈ tables.namespaces)
    (same : row.1 = privilege.privNamespaceId) :
    (davReposIsAllow tables .succeeds row.2 privilege.name principal next
        serialno none).1 ≠ 0 ↔
      davReposGetPrincipalId principal = superUserId ∨
        Granted tables serialno (davReposGetPrincipalId principal)
          privilege := by
  rw [davReposIsAllow, sabridgeGetNamespaceId_eq known, same]
  exact dbmsIsAllow_privilege_iff listed principal next serialno

/-- What is written are the names of the privileges that are granted. -/
theorem mem_aclCurrentUserPrivilegeSet {user : Option Text}
    {pair : Text × Text} :
    pair ∈ aclCurrentUserPrivilegeSet tables user serialno ↔
      ∃ privilege ∈ tables.aclPrivileges,
        pair = ("DAV:".toList, privilege.name) ∧
          Granted tables serialno (dbmsGetPrincipalIdFromName tables user)
            privilege := by
  rw [aclCurrentUserPrivilegeSet, List.mem_map]
  constructor
  · rintro ⟨listed, member, rfl⟩
    have named := member
    simp only [dbmsGetPrivileges, List.mem_map, List.mem_filter,
      Sql.mem_crossJoin, beq_iff_eq] at named
    rcases named with ⟨⟨privilege, row⟩, ⟨⟨⟨present, known⟩, same⟩, -⟩, rfl⟩
    exact ⟨privilege, present, rfl,
      (mem_dbmsGetPrivileges_iff present known same).mp member⟩
  · rintro ⟨privilege, present, rfl, granted⟩
    rcases List.mem_map.mp (tables.fkPrivilegeNamespace privilege present) with
      ⟨row, known, same⟩
    exact ⟨_, (mem_dbmsGetPrivileges_iff present known same).mpr granted, rfl⟩

/-- The namespace of a privilege is `DAV:` iff its row says so. -/
theorem isDav_iff
    (known : row ∈ tables.namespaces)
    (same : row.1 = privilege.privNamespaceId) :
    IsDav tables privilege ↔ row.2 = "DAV:".toList := by
  rw [IsDav, ← same]
  constructor
  · intro dav
    have equal : row = (row.1, "DAV:".toList) :=
      List.inj_on_of_nodup_map tables.namespacesPkey known dav rfl
    rw [equal]
  · intro dav
    rw [← dav]
    exact known

/-- Listing and check, in terms of what is granted. -/
theorem agreesWithCheck_iff
    (tables : AclTables)
    (makeFromRequest : Option Text → DavPrincipal × List DavPrincipal)
    (user : Option Text) (serialno : Id) :
    AgreesWithCheck tables makeFromRequest user serialno ↔
      ∀ privilege ∈ tables.aclPrivileges,
        (Granted tables serialno (dbmsGetPrincipalIdFromName tables user)
              privilege ↔
            davReposGetPrincipalId (makeFromRequest user).1 = superUserId ∨
              Granted tables serialno
                (davReposGetPrincipalId (makeFromRequest user).1) privilege) ∧
          (davReposGetPrincipalId (makeFromRequest user).1 = superUserId ∨
              Granted tables serialno
                (davReposGetPrincipalId (makeFromRequest user).1) privilege →
            IsDav tables privilege) := by
  constructor
  · intro agrees privilege listed
    rcases List.mem_map.mp (tables.fkPrivilegeNamespace privilege listed) with
      ⟨row, known, same⟩
    have named : (row.2, privilege.name) ∈ privilegeNames tables :=
      mem_privilegeNames.mpr ⟨privilege, listed, row, known, same, rfl⟩
    have allowed := agrees (row.2, privilege.name)
    rw [and_iff_right named, davReposIsAllow_iff listed known same] at allowed
    have dav : davReposGetPrincipalId (makeFromRequest user).1 = superUserId ∨
        Granted tables serialno
          (davReposGetPrincipalId (makeFromRequest user).1) privilege →
        IsDav tables privilege := by
      intro isAllow
      rcases mem_aclCurrentUserPrivilegeSet.mp (allowed.mpr isAllow) with
        ⟨_, -, written, -⟩
      exact (isDav_iff known same).mpr (Prod.mk.inj written).1
    refine ⟨⟨fun granted => ?_, fun isAllow => ?_⟩, dav⟩
    · have written : ("DAV:".toList, privilege.name) ∈
          aclCurrentUserPrivilegeSet tables user serialno :=
        mem_aclCurrentUserPrivilegeSet.mpr ⟨privilege, listed, rfl, granted⟩
      -- a privilege of another namespace has no name of that in `DAV:`
      rcases mem_privilegeNames.mp ((agrees _).mp written).1 with
        ⟨other, otherListed, otherRow, otherKnown, otherSame, equal⟩
      rcases Prod.mk.inj equal with ⟨inDav, name⟩
      rcases privilege_eq_of_name listed otherListed name with rfl
      have here : row.2 = "DAV:".toList :=
        (isDav_iff known same).mp
          ((isDav_iff otherKnown otherSame).mpr inDav.symm)
      rw [here] at allowed
      exact allowed.mp written
    · rcases mem_aclCurrentUserPrivilegeSet.mp (allowed.mpr isAllow) with
        ⟨other, otherListed, written, granted⟩
      rw [privilege_eq_of_name listed otherListed (Prod.mk.inj written).2]
      exact granted
  · intro alike pair
    constructor
    · intro written
      rcases mem_aclCurrentUserPrivilegeSet.mp written with
        ⟨privilege, listed, rfl, granted⟩
      have isAllow := (alike privilege listed).1.mp granted
      have known : (privilege.privNamespaceId, "DAV:".toList) ∈
          tables.namespaces := (alike privilege listed).2 isAllow
      exact ⟨mem_privilegeNames.mpr ⟨privilege, listed, _, known, rfl, rfl⟩,
        (davReposIsAllow_iff listed known rfl).mpr isAllow⟩
    · rintro ⟨named, allowed⟩
      rcases mem_privilegeNames.mp named with
        ⟨privilege, listed, row, known, same, rfl⟩
      have isAllow := (davReposIsAllow_iff listed known same).mp allowed
      have inDav := (isDav_iff known same).mp
        ((alike privilege listed).2 isAllow)
      exact mem_aclCurrentUserPrivilegeSet.mpr
        ⟨privilege, listed, by rw [inDav],
          (alike privilege listed).1.mpr isAllow⟩

/-- Without ACEs and memberships of the id 0 nothing is granted to it. -/
theorem not_granted_zero
    (noAce : ∀ ace ∈ tables.aces, ace.principalId ≠ 0)
    (noMember : ∀ row ∈ tables.transitiveGroupMembers,
      row.transitiveMemberId ≠ 0) :
    ¬ Granted tables serialno 0 privilege := by
  rintro ⟨row, first, -⟩
  rcases mem_membership.mp first.qualifies.named with zero | found
  · exact noAce row.ace first.qualifies.listed zero
  · rcases found with ⟨member, listed, -, zero⟩
    exact noMember member listed zero

end Privileges

/--
The set agrees with the check iff nothing is decided otherwise for the
principal that is looked up and nothing allowed is of a namespace other than
`DAV:`.  For a request without a user the former says, when the id 0 is not in
use, that nothing is granted to unauthenticated requests.
-/
theorem privilegeSet_agrees_iff
    (tables : AclTables)
    (makeFromRequest : Option Text → DavPrincipal × List DavPrincipal)
    (unauthenticated : (makeFromRequest none).1 = .unauthenticated)
    (named : ∀ name, davReposGetPrincipalId (makeFromRequest (some name)).1 =
      dbmsGetPrincipalIdFromName tables (some name))
    (user : Option Text) (serialno : Id) :
    (AgreesWithCheck tables makeFromRequest user serialno ↔
      DecidedAlike tables serialno user ∧ WrittenRight tables serialno user) ∧
    ((∀ ace ∈ tables.aces, ace.principalId ≠ 0) →
      (∀ row ∈ tables.transitiveGroupMembers, row.transitiveMemberId ≠ 0) →
        (DecidedAlike tables serialno none ↔
          ∀ privilege ∈ tables.aclPrivileges,
            ¬ Granted tables serialno principalUnauthenticatedId
              privilege)) := by
  constructor
  · rw [agreesWithCheck_iff, forall₂_and]
    cases user with
    | none =>
        have other : davReposGetPrincipalId .unauthenticated ≠ superUserId := by
          decide
        rw [unauthenticated]
        simp only [other, false_or]
        exact Iff.rfl
    | some name =>
        rw [named]
        apply and_congr_left'
        rw [DecidedAlike]
        by_cases superUser :
            dbmsGetPrincipalIdFromName tables (some name) = superUserId
        · rw [superUser]
          simp only [true_or, iff_true, forall_const]
        · simp only [superUser, false_or, implies_true, IsEmpty.forall_iff]
  · intro noAce noMember
    rw [DecidedAlike]
    apply forall₂_congr
    intro privilege _
    rw [iff_false_left (not_granted_zero noAce noMember)]

/-- The privilege `read`, granted to unauthenticated requests and to `fred`. -/
def readable : AclTables where
  __ := noEntries
  aces := [⟨1, 'G', false, 2, 5⟩, ⟨2, 'G', false, 2, 9⟩]
  davAcesPrivileges := [(1, 1), (2, 1)]
  aclPrivileges := [⟨1, "read".toList, 1, 1, 2⟩]
  principals := [(1, "limestone".toList), (9, "fred".toList)]
  acesPkey := by decide
  aclPrivilegesPkey := by decide
  aclPrivilegesName := by decide
  fkPrivilegeNamespace := by decide

/-- The principal of a request is that of its user. -/
def readableRequest : Option Text → DavPrincipal × List DavPrincipal
  | none => (.unauthenticated, [])
  | some name => (.href (dbmsGetPrincipalIdFromName readable (some name)), [])

/-- The set is right for `fred`. -/
theorem privilegeSet_agrees_fred :
    AgreesWithCheck readable readableRequest (some "fred".toList) 2 :=
  (privilegeSet_agrees_iff readable readableRequest rfl (fun _ => rfl)
    (some "fred".toList) 2).1.mpr (by
      constructor
      · intro superUser
        have other : dbmsGetPrincipalIdFromName readable
            (some "fred".toList) ≠ superUserId := by decide
        exact (other superUser).elim
      · intro privilege listed _
        rcases List.mem_singleton.mp listed with rfl
        exact List.mem_singleton_self _)

/--
An unauthenticated request may read but has no privileges, and the superuser
may read where no ACE grants it.
-/
theorem privilegeSet_not_agrees :
    ¬ AgreesWithCheck readable readableRequest none 2 ∧
      ¬ AgreesWithCheck readable readableRequest
        (some "limestone".toList) 2 := by
  have read : ("DAV:".toList, "read".toList) ∈ privilegeNames readable := by
    decide
  constructor
  · intro agrees
    have allowed : (davReposIsAllow readable .succeeds "DAV:".toList
        "read".toList (readableRequest none).1 (readableRequest none).2 2
        none).1 ≠ 0 := by
      decide
    have unlisted : ("DAV:".toList, "read".toList) ∉
        aclCurrentUserPrivilegeSet readable none 2 := by
      decide
    exact unlisted ((agrees _).mpr ⟨read, allowed⟩)
  · intro agrees
    have allowed : (davReposIsAllow readable .succeeds "DAV:".toList
        "read".toList (readableRequest (some "limestone".toList)).1
        (readableRequest (some "limestone".toList)).2 2 none).1 ≠ 0 := by
      decide
    have unlisted : ("DAV:".toList, "read".toList) ∉
        aclCurrentUserPrivilegeSet readable (some "limestone".toList) 2 := by
      decide
    exact unlisted ((agrees _).mpr ⟨read, allowed⟩)

end Limestone.PrivilegeSet
