import Limestone.AclListing
import Mathlib.Data.List.Forall2

/-!
# An ACL that is set is the one that is read

Setting an ACL adds the ACEs to the tables that are left of the old ones, with
ids that ascend.  Reading sorts the ACEs of a resource by these ids, so they
come back in the order in which they were submitted.
-/

namespace Limestone.AclRoundTrip

open Library
open DbmsAcl
open AclDecision
open FirstMatch
open AclStore
open AclListing
open DbmsBind

/-! ## What grows -/

/-- ACEs and namespaces have been added, with ids of their own. -/
structure Grows (before after : AceStore) : Prop where
  aces : before.aces <+: after.aces
  namespaces : before.namespaces <+: after.namespaces
  aclPrivileges : after.aclPrivileges = before.aclPrivileges
  principals : after.principals = before.principals
  transitiveGroupMembers :
    after.transitiveGroupMembers = before.transitiveGroupMembers
  aclInheritance : after.aclInheritance = before.aclInheritance
  nextAceId : before.nextAceId ≤ after.nextAceId
  property : ∀ id < before.nextAceId, after.property id = before.property id
  privileges : ∀ id < before.nextAceId, ∀ privilegeId,
    (id, privilegeId) ∈ after.davAcesPrivileges ↔
      (id, privilegeId) ∈ before.davAcesPrivileges

theorem Grows.refl (store : AceStore) : Grows store store where
  aces := List.prefix_refl _
  namespaces := List.prefix_refl _
  aclPrivileges := rfl
  principals := rfl
  transitiveGroupMembers := rfl
  aclInheritance := rfl
  nextAceId := le_rfl
  property := fun _ _ => rfl
  privileges := fun _ _ _ => Iff.rfl

theorem Grows.trans
    {before middle after : AceStore}
    (first : Grows before middle) (second : Grows middle after) :
    Grows before after where
  aces := first.aces.trans second.aces
  namespaces := first.namespaces.trans second.namespaces
  aclPrivileges := second.aclPrivileges.trans first.aclPrivileges
  principals := second.principals.trans first.principals
  transitiveGroupMembers :=
    second.transitiveGroupMembers.trans first.transitiveGroupMembers
  aclInheritance := second.aclInheritance.trans first.aclInheritance
  nextAceId := first.nextAceId.trans second.nextAceId
  property := fun id old => by
    rw [second.property id (lt_of_lt_of_le old first.nextAceId),
      first.property id old]
  privileges := fun id old privilegeId => by
    rw [second.privileges id (lt_of_lt_of_le old first.nextAceId),
      first.privileges id old]

/-! ## Privileges -/

section Privileges

variable {store before after : AceStore}

/-- The id of a namespace that has a row. -/
theorem sabridgeGetNamespaceId_eq_iff
    {name : Text} {id : Id} (known : id ∈ store.namespaces.map Prod.fst) :
    sabridgeGetNamespaceId store.toAclTables name = id ↔
      (id, name) ∈ store.namespaces := by
  rcases List.mem_map.mp known with ⟨row, member, rfl⟩
  have positive := (store.namespaceIds row member).1
  have keyed := Sql.filter_key store.namespacesName name
  rw [sabridgeGetNamespaceId]
  rcases keyed with absent | ⟨found, only⟩
  · rw [absent]
    constructor
    · intro zero
      exact (Int.ne_of_lt positive zero).elim
    · intro listed
      have inFilter : (row.1, name) ∈ store.namespaces.filter
          fun row => row.2 == name :=
        List.mem_filter.mpr ⟨listed, beq_self_eq_true name⟩
      rw [absent] at inFilter
      cases inFilter
  · have foundMember : found ∈ store.namespaces.filter
        fun row => row.2 == name := by
      rw [only]
      exact List.mem_singleton_self found
    rw [List.mem_filter, beq_iff_eq] at foundMember
    rw [only]
    constructor
    · rintro same
      have equal := List.inj_on_of_nodup_map store.namespacesPkey
        foundMember.1 member same
      rw [← equal, ← foundMember.2]
      exact foundMember.1
    · intro listed
      have equal := List.inj_on_of_nodup_map store.namespacesName
        foundMember.1 listed foundMember.2
      rw [equal]

/-- New namespaces do not change what a privilege is. -/
theorem dbmsGetPrivilegeId_congr
    (namespaces : before.namespaces <+: after.namespaces)
    (privileges : after.aclPrivileges = before.aclPrivileges)
    (privilege : Text × Text) :
    dbmsGetPrivilegeId after.toAclTables privilege =
      dbmsGetPrivilegeId before.toAclTables privilege := by
  have same : ∀ row ∈ before.aclPrivileges,
      (row.privNamespaceId ==
          sabridgeGetNamespaceId after.toAclTables privilege.1) =
        (row.privNamespaceId ==
          sabridgeGetNamespaceId before.toAclTables privilege.1) := by
    intro row member
    have known := before.fkPrivilegeNamespace row member
    have knownAfter : row.privNamespaceId ∈
        after.namespaces.map Prod.fst :=
      (namespaces.map Prod.fst).subset known
    rw [Bool.eq_iff_iff, beq_iff_eq, beq_iff_eq, eq_comm,
      sabridgeGetNamespaceId_eq_iff knownAfter, eq_comm,
      sabridgeGetNamespaceId_eq_iff known]
    constructor
    · intro listed
      rcases List.mem_map.mp known with ⟨old, oldMember, id⟩
      have equal := List.inj_on_of_nodup_map after.namespacesPkey
        (namespaces.subset oldMember) listed id
      rwa [← equal]
    · intro listed
      exact namespaces.subset listed
  have filtered : (before.aclPrivileges.filter fun row =>
        row.name == privilege.2 && row.privNamespaceId ==
          sabridgeGetNamespaceId after.toAclTables privilege.1) =
      before.aclPrivileges.filter fun row =>
        row.name == privilege.2 && row.privNamespaceId ==
          sabridgeGetNamespaceId before.toAclTables privilege.1 := by
    apply List.filter_congr
    intro row member
    rw [same row member]
  simp only [dbmsGetPrivilegeId, privileges]
  rw [filtered]

/-- What the loop over the privileges of an ACE adds. -/
structure Fills (before after : AceStore) (aceId : Id)
    (privileges : List (Text × Text)) : Prop where
  aces : after.aces = before.aces
  namespaces : after.namespaces = before.namespaces
  aclPrivileges : after.aclPrivileges = before.aclPrivileges
  principals : after.principals = before.principals
  transitiveGroupMembers :
    after.transitiveGroupMembers = before.transitiveGroupMembers
  aclInheritance : after.aclInheritance = before.aclInheritance
  nextAceId : after.nextAceId = before.nextAceId
  property : after.property = before.property
  held : ∀ id privilegeId, (id, privilegeId) ∈ after.davAcesPrivileges ↔
    (id, privilegeId) ∈ before.davAcesPrivileges ∨
      id = aceId ∧ ∃ privilege ∈ privileges,
        dbmsGetPrivilegeId before.toAclTables privilege = privilegeId

theorem fills_insertAcePrivilege
    {aceId : Id} (listed : aceId ∈ store.aces.map Ace.id)
    (privilege : Text × Text) :
    Fills store (insertAcePrivilege store aceId
      (dbmsGetPrivilegeId store.toAclTables privilege) listed) aceId
      [privilege] := by
  rw [insertAcePrivilege]
  split
  · next held =>
      refine ⟨rfl, rfl, rfl, rfl, rfl, rfl, rfl, rfl, ?_⟩
      intro id privilegeId
      constructor
      · exact Or.inl
      · rintro (old | ⟨rfl, other, member, rfl⟩)
        · exact old
        · rcases List.mem_singleton.mp member with rfl
          exact held
  · refine ⟨rfl, rfl, rfl, rfl, rfl, rfl, rfl, rfl, ?_⟩
    intro id privilegeId
    simp only [List.mem_append, List.mem_singleton, Prod.mk.injEq,
      exists_eq_left]
    rw [eq_comm (a := privilegeId)]

theorem fills_addAcePrivileges
    {aceId : Id} {privileges : List (Text × Text)}
    {listed : aceId ∈ store.aces.map Ace.id}
    (added : addAcePrivileges aceId store listed privileges = .ok after) :
    Fills store after aceId privileges := by
  induction privileges generalizing store with
  | nil =>
      rcases Except.ok.inj added with rfl
      refine ⟨rfl, rfl, rfl, rfl, rfl, rfl, rfl, rfl, ?_⟩
      intro id privilegeId
      simp only [List.not_mem_nil, false_and, exists_false, and_false,
        or_false]
  | cons privilege privileges induction =>
      rw [addAcePrivileges] at added
      by_cases unknown :
          dbmsGetPrivilegeId store.toAclTables privilege < 1
      · rw [if_pos unknown] at added
        cases added
      · rw [if_neg unknown] at added
        have first := fills_insertAcePrivilege listed privilege
        have rest := induction added
        refine ⟨rest.aces.trans first.aces,
          rest.namespaces.trans first.namespaces,
          rest.aclPrivileges.trans first.aclPrivileges,
          rest.principals.trans first.principals,
          rest.transitiveGroupMembers.trans first.transitiveGroupMembers,
          rest.aclInheritance.trans first.aclInheritance,
          rest.nextAceId.trans first.nextAceId,
          rest.property.trans first.property, ?_⟩
        intro id privilegeId
        have same := fun privilege =>
          @dbmsGetPrivilegeId_congr store _
            (first.namespaces ▸ List.prefix_refl _)
            first.aclPrivileges privilege
        rw [rest.held, first.held]
        simp only [same, List.mem_cons, List.not_mem_nil, or_false,
          exists_eq_or_imp, exists_eq_left]
        tauto

end Privileges

/-! ## Adding -/

/-- What is related to the members of a list is related to one of them. -/
theorem exists_of_forall₂
    {Given Made : Type*} {relation : Given → Made → Prop}
    {given : List Given} {made : List Made} {result : Made}
    (related : List.Forall₂ relation given made) (member : result ∈ made) :
    ∃ source ∈ given, relation source result := by
  induction related with
  | nil => cases member
  | cons head _ induction =>
      rcases List.mem_cons.mp member with rfl | later
      · exact ⟨_, List.mem_cons_self, head⟩
      · rcases induction later with ⟨source, listed, related⟩
        exact ⟨source, List.mem_cons_of_mem _ listed, related⟩

/-- An ACE is stored: a row of its own and its privileges. -/
structure IsStored (store : AceStore) (serialno : Id) (ace : DavAce)
    (row : Ace) : Prop where
  resourceId : row.resourceId = serialno
  principalId : row.principalId = davReposGetPrincipalId ace.principal
  isProtected : row.isProtected = ace.isProtected
  grantdeny : row.grantdeny = if ace.isDeny then aclDeny else aclGrant
  name : (store.property row.id).2 = ace.property.map AceProperty.name
  ns : match ace.property.bind AceProperty.ns with
    | none => (store.property row.id).1 = 0
    | some ns => ((store.property row.id).1, ns) ∈ store.namespaces
  privileges : ∀ privilegeId,
    (row.id, privilegeId) ∈ store.davAcesPrivileges ↔
      ∃ privilege ∈ ace.privileges.privileges,
        dbmsGetPrivilegeId store.toAclTables privilege = privilegeId

section Adding

variable {store before after : AceStore} {serialno : Id} {ace : DavAce}
  {row : Ace}

/-- A stored ACE stays stored. -/
theorem IsStored.grows
    (stored : IsStored before serialno ace row)
    (grows : Grows before after) (old : row.id < before.nextAceId) :
    IsStored after serialno ace row where
  resourceId := stored.resourceId
  principalId := stored.principalId
  isProtected := stored.isProtected
  grantdeny := stored.grantdeny
  name := by
    rw [grows.property _ old]
    exact stored.name
  ns := by
    have ns := stored.ns
    rw [grows.property _ old]
    cases named : ace.property.bind AceProperty.ns with
    | none =>
        rw [named] at ns
        exact ns
    | some name =>
        rw [named] at ns
        exact grows.namespaces.subset ns
  privileges := by
    intro privilegeId
    rw [grows.privileges _ old, stored.privileges]
    simp only [dbmsGetPrivilegeId_congr grows.namespaces grows.aclPrivileges]

/-- The namespace that is asked for has a row. -/
theorem dbmsGetNsId_spec (store : AceStore) (ns : Text) :
    Grows store (dbmsGetNsId store ns).1 ∧
      (dbmsGetNsId store ns).1.nextAceId = store.nextAceId ∧
      (dbmsGetNsId store ns).1.aces = store.aces ∧
      ((dbmsGetNsId store ns).2, ns) ∈ (dbmsGetNsId store ns).1.namespaces := by
  rw [dbmsGetNsId]
  by_cases listed : ns ∈ store.namespaces.map Prod.snd
  · rw [dif_pos listed]
    refine ⟨Grows.refl store, rfl, rfl, ?_⟩
    rcases List.mem_map.mp listed with ⟨⟨id, name⟩, member, rfl⟩
    have known : id ∈ store.namespaces.map Prod.fst :=
      List.mem_map_of_mem member
    have found := (sabridgeGetNamespaceId_eq_iff known).mpr member
    show (sabridgeGetNamespaceId store.toAclTables name, name) ∈ _
    rw [found]
    exact member
  · rw [dif_neg listed]
    refine ⟨?_, rfl, rfl, ?_⟩
    · exact { Grows.refl store with namespaces := List.prefix_append _ _ }
    · exact List.mem_append_right _ (List.mem_singleton_self _)

/-- The namespace of the property has a row. -/
theorem propertyNsId_spec (store : AceStore) (ace : DavAce) :
    Grows store (propertyNsId store ace).1 ∧
      (propertyNsId store ace).1.nextAceId = store.nextAceId ∧
      (propertyNsId store ace).1.aces = store.aces ∧
      match ace.property.bind AceProperty.ns with
      | none => (propertyNsId store ace).2 = 0
      | some ns =>
          ((propertyNsId store ace).2, ns) ∈
            (propertyNsId store ace).1.namespaces := by
  rw [propertyNsId]
  cases ace.property.bind AceProperty.ns with
  | none => exact ⟨Grows.refl store, rfl, rfl, rfl⟩
  | some ns => exact dbmsGetNsId_spec store ns

/-- `dbms_add_ace` stores the ACE under the next id. -/
theorem dbmsAddAce_spec
    (added : dbmsAddAce store serialno ace = .ok after) :
    Grows store after ∧
      ∃ row, after.aces = store.aces ++ [row] ∧ row.id = store.nextAceId ∧
        IsStored after serialno ace row := by
  rcases propertyNsId_spec store ace with ⟨grows, next, aces, ns⟩
  have fills := fills_addAcePrivileges added
  generalize propertyNsId store ace = named at grows next aces ns fills
  rcases named with ⟨named, nsId⟩
  simp only at grows next aces ns fills
  have fresh : ∀ privilegeId,
      (named.nextAceId, privilegeId) ∉ named.davAcesPrivileges := by
    intro privilegeId member
    rcases List.mem_map.mp (named.fkAce _ member) with ⟨row, listed, same⟩
    exact Int.ne_of_lt (named.aceIds row listed).2 same
  have prefixes : named.namespaces <+: after.namespaces := by
    rw [fills.namespaces]
    exact List.prefix_refl _
  refine ⟨?_, ace.row named.nextAceId serialno, ?_, next, ?_⟩
  · apply grows.trans
    constructor
    · rw [fills.aces]
      exact List.prefix_append _ _
    · exact prefixes
    · exact fills.aclPrivileges
    · exact fills.principals
    · exact fills.transitiveGroupMembers
    · exact fills.aclInheritance
    · rw [fills.nextAceId]
      exact Int.le_of_lt (Int.lt_add_one_of_le le_rfl)
    · intro id old
      rw [fills.property]
      exact Function.update_of_ne (Int.ne_of_lt old) _ _
    · intro id old privilegeId
      rw [fills.held]
      constructor
      · rintro (held | ⟨rfl, -⟩)
        · exact held
        · exact (Int.lt_irrefl _ old).elim
      · exact Or.inl
  · rw [fills.aces, ← aces]
    rfl
  · refine ⟨rfl, rfl, rfl, rfl, ?_, ?_, ?_⟩
    · rw [fills.property]
      show (Function.update named.property named.nextAceId _
        named.nextAceId).2 = _
      rw [Function.update_self]
    · rw [fills.property]
      show match ace.property.bind AceProperty.ns with
        | none => (Function.update named.property named.nextAceId _
            named.nextAceId).1 = 0
        | some ns => ((Function.update named.property named.nextAceId _
            named.nextAceId).1, ns) ∈ after.namespaces
      rw [Function.update_self]
      cases named : ace.property.bind AceProperty.ns with
      | none =>
          rw [named] at ns
          exact ns
      | some name =>
          rw [named] at ns
          exact prefixes.subset ns
    · intro privilegeId
      rw [fills.held]
      constructor
      · rintro (old | ⟨-, privilege, member, rfl⟩)
        · exact (fresh privilegeId old).elim
        · exact ⟨privilege, member, dbmsGetPrivilegeId_congr prefixes
            fills.aclPrivileges privilege⟩
      · rintro ⟨privilege, member, rfl⟩
        exact Or.inr ⟨rfl, privilege, member, (dbmsGetPrivilegeId_congr
          prefixes fills.aclPrivileges privilege).symm⟩

/-- The ACEs are stored in order, under ids that ascend. -/
theorem foldlM_dbmsAddAce_spec
    {acl : List DavAce}
    (added : acl.foldlM (fun store ace => dbmsAddAce store serialno ace)
      store = .ok after) :
    Grows store after ∧
      ∃ rows, after.aces = store.aces ++ rows ∧
        List.Forall₂ (IsStored after serialno) acl rows ∧
        (∀ row ∈ rows, store.nextAceId ≤ row.id) ∧
        rows.Pairwise fun first second => first.id < second.id := by
  induction acl generalizing store with
  | nil =>
      rcases Except.ok.inj added with rfl
      refine ⟨Grows.refl store, [], ?_, List.Forall₂.nil, ?_, ?_⟩
      · rw [List.append_nil]
      · intro row member
        cases member
      · exact List.Pairwise.nil
  | cons ace acl induction =>
      rw [List.foldlM_cons] at added
      cases first : dbmsAddAce store serialno ace with
      | error error =>
          rw [first] at added
          cases added
      | ok middle =>
          rw [first] at added
          rcases dbmsAddAce_spec first with
            ⟨firstGrows, row, firstAces, id, stored⟩
          rcases induction added with
            ⟨grows, rows, aces, allStored, later, ascending⟩
          have listed : row ∈ middle.aces := by
            rw [firstAces]
            exact List.mem_append_right _ (List.mem_singleton_self row)
          have old := (middle.aceIds row listed).2
          refine ⟨firstGrows.trans grows, row :: rows, ?_, ?_, ?_, ?_⟩
          · rw [aces, firstAces, List.append_assoc, List.singleton_append]
          · exact List.Forall₂.cons (stored.grows grows old) allStored
          · intro other member
            rcases List.mem_cons.mp member with rfl | inRest
            · exact le_of_eq id.symm
            · exact firstGrows.nextAceId.trans (later other inRest)
          · rw [List.pairwise_cons]
            constructor
            · intro other member
              exact lt_of_lt_of_le old (later other member)
            · exact ascending

/-- A set ACL: the ACEs that stay, and behind them those submitted. -/
theorem davReposSetAcl_spec
    {modDav : ModDav} {acl : List DavAce}
    (done : davReposSetAcl modDav before serialno acl = .ok after) :
    Grows (dbmsDeleteOwnAces before serialno) after ∧
      ∃ rows,
        after.aces = before.aces.filter (keepsAce serialno) ++ rows ∧
        List.Forall₂ (IsStored after serialno) acl rows ∧
        rows.Pairwise fun first second => first.id < second.id := by
  rw [davReposSetAcl] at done
  split at done
  · cases done
  · split at done
    · cases done
    · rcases foldlM_dbmsAddAce_spec done with
        ⟨grows, rows, aces, stored, -, ascending⟩
      exact ⟨grows, rows, aces, stored, ascending⟩

end Adding

/-! ## Reading what was set -/

/-- The resource inherits from itself, as every resource with a path does. -/
def HasOwnPath (tables : AclTables) (serialno : Id) : Prop :=
  ∃ row ∈ tables.aclInheritance, row.resourceId = serialno ∧
    serialno ∈ row.path

/-- An ACE for a principal of the repository, with privileges. -/
def IsComplete (tables : AclTables) (ace : DavAce) : Prop :=
  davReposGetPrincipalId ace.principal ∈ tables.principals.map Prod.fst ∧
    ace.privileges.privileges ≠ []

/-- An ACE is read as it was submitted. -/
structure ReadsAs (tables : AclTables) (submitted : DavAce)
    (listed : ListedAce) : Prop where
  principal : davReposGetPrincipalId listed.principal =
    davReposGetPrincipalId submitted.principal
  property : listed.property =
    submitted.property.map fun property => (property.ns, property.name)
  nodup : listed.privileges.Nodup
  privileges : ∀ privilegeId, privilegeId ∈ listed.privileges ↔
    ∃ privilege ∈ submitted.privileges.privileges,
      dbmsGetPrivilegeId tables privilege = privilegeId
  isDeny : listed.isDeny = submitted.isDeny

/-- The own ACEs of a list that are not protected. -/
def ownUnprotected (acl : List ListedAce) : List ListedAce :=
  acl.filter fun ace => ace.inherited.isNone && !ace.isProtected

/--
Protected ACEs and those of other resources are as they were; new ones are
protected only if they are submitted so.
-/
structure KeepsOthers (before after : AceStore) (serialno : Id)
    (acl : List DavAce) : Prop where
  kept : ∀ ace ∈ before.aces, keepsAce serialno ace = true → ace ∈ after.aces
  privileges : ∀ ace ∈ before.aces, keepsAce serialno ace = true →
    ∀ privilegeId, (ace.id, privilegeId) ∈ after.davAcesPrivileges ↔
      (ace.id, privilegeId) ∈ before.davAcesPrivileges
  property : ∀ ace ∈ before.aces, keepsAce serialno ace = true →
    after.property ace.id = before.property ace.id
  others : ∀ ace ∈ after.aces, ace.resourceId ≠ serialno → ace ∈ before.aces
  protectedOnes : ∀ ace ∈ after.aces, ace.isProtected = true →
    ace ∈ before.aces ∨ ∃ submitted ∈ acl, submitted.isProtected = true

section Reading

variable {modDav : ModDav} {uri : Id → Text} {serialno : Id}
  {order : Sql.RowOrder GetAclRow} {before after : AceStore}
  {acl : List DavAce} {rows : List Ace}

/-- Setting an ACL changes the own unprotected ACEs only. -/
theorem keepsOthers_davReposSetAcl
    (done : davReposSetAcl modDav before serialno acl = .ok after) :
    KeepsOthers before after serialno acl := by
  rcases davReposSetAcl_spec done with ⟨grows, rows, aces, stored, -⟩
  constructor
  · intro ace member keeps
    rw [aces]
    exact List.mem_append_left _ (List.mem_filter.mpr ⟨member, keeps⟩)
  · intro ace member keeps privilegeId
    rw [grows.privileges ace.id (before.aceIds ace member).2]
    show (ace.id, privilegeId) ∈ before.davAcesPrivileges.filter _ ↔ _
    rw [List.mem_filter, decide_eq_true_eq]
    apply and_iff_left
    exact List.mem_map_of_mem (List.mem_filter.mpr ⟨member, keeps⟩)
  · intro ace member _
    exact grows.property ace.id (before.aceIds ace member).2
  · intro ace member other
    rw [aces] at member
    rcases List.mem_append.mp member with old | isNew
    · exact List.mem_of_mem_filter old
    · rcases exists_of_forall₂ stored isNew with ⟨submitted, -, isStored⟩
      exact (other isStored.resourceId).elim
  · intro ace member isProtected
    rw [aces] at member
    rcases List.mem_append.mp member with old | isNew
    · exact Or.inl (List.mem_of_mem_filter old)
    · rcases exists_of_forall₂ stored isNew with ⟨submitted, listed, isStored⟩
      exact Or.inr ⟨submitted, listed,
        isStored.isProtected.symm.trans isProtected⟩

/-- The rows of own unprotected ACEs. -/
def isOwnRow (serialno : Id) (row : GetAclRow) : Bool :=
  row.parRes.resourceId == serialno && !row.ace.isProtected

/-- The own unprotected ACEs of the list come from their rows. -/
theorem ownUnprotected_listing (store : AceStore) :
    ownUnprotected (listing modDav uri serialno order store) =
      ((heads order store serialno).filter (isOwnRow serialno)).map
        fun head => described modDav uri serialno head
          (privilegesOf order store serialno head) := by
  rw [ownUnprotected, listing, List.filter_map]
  congr 1
  apply List.filter_congr
  intro row _
  show (_ && !row.ace.isProtected) = (_ && !row.ace.isProtected)
  congr 1
  show Option.isNone
    (if row.parRes.resourceId ≠ serialno then _ else none) = _
  by_cases own : row.parRes.resourceId = serialno
  · rw [if_neg (not_not.mpr own), own, beq_self_eq_true]
    rfl
  · rw [if_pos own, beq_eq_false_iff_ne.mpr own]
    rfl

/-- Own unprotected ACEs are listed in the order of their ids. -/
theorem ownHeads_pairwise (store : AceStore) :
    (((heads order store serialno).filter (isOwnRow serialno)).map
        GetAclRow.ace).Pairwise fun first second => first.id < second.id := by
  rw [List.pairwise_map]
  apply (heads_pairwise.filter (isOwnRow serialno)).imp_of_mem
  intro first second firstMember secondMember less
  rw [List.mem_filter, isOwnRow, Bool.and_eq_true, beq_iff_eq,
    Bool.not_eq_true'] at firstMember secondMember
  have firstRow := isRow_of_mem_heads firstMember.1
  have secondRow := isRow_of_mem_heads secondMember.1
  have path : first.parRes = second.parRes := by
    apply List.inj_on_of_nodup_map store.aclInheritancePkey
    · exact mem_aclInheritance_of_mem_inheritedRes firstRow.inherited
    · exact mem_aclInheritance_of_mem_inheritedRes secondRow.inherited
    · rw [firstMember.2.1, secondMember.2.1]
  rw [GetAclRow.sortKey, GetAclRow.sortKey, protectedFirst, protectedFirst,
    charLength, charLength, path, firstMember.2.2, secondMember.2.2] at less
  simpa [Prod.Lex.toLex_lt_toLex] using less

/-- The own unprotected ACEs that are listed are those that were set. -/
theorem ownHeads_eq
    (aces : after.aces = before.aces.filter (keepsAce serialno) ++ rows)
    (stored : List.Forall₂ (IsStored after serialno) acl rows)
    (ascending : rows.Pairwise fun first second => first.id < second.id)
    (ownPath : HasOwnPath after.toAclTables serialno)
    (complete : ∀ ace ∈ acl, ace.isProtected = false →
      IsComplete after.toAclTables ace) :
    ((heads order after serialno).filter (isOwnRow serialno)).map
        GetAclRow.ace =
      rows.filter fun row => !row.isProtected := by
  have irrefl : Std.Irrefl fun first second : Ace => first.id < second.id :=
    ⟨fun ace => lt_irrefl ace.id⟩
  apply List.Pairwise.eq_of_mem_iff (ownHeads_pairwise after)
    (ascending.filter _)
  intro ace
  rw [List.mem_map, List.mem_filter, Bool.not_eq_true']
  constructor
  · rintro ⟨head, member, rfl⟩
    rw [List.mem_filter, isOwnRow, Bool.and_eq_true, beq_iff_eq,
      Bool.not_eq_true'] at member
    have found := isRow_of_mem_heads member.1
    have listed := found.listed
    rw [aces, List.mem_append, List.mem_filter, keepsAce,
      ← found.attached, member.2.1, member.2.2, beq_self_eq_true] at listed
    rcases listed with kept | isNew
    · cases kept.2
    · exact ⟨isNew, member.2.2⟩
  · rintro ⟨member, unprotected⟩
    rcases exists_of_forall₂ stored member with
      ⟨submitted, listed, isStored⟩
    have isComplete := complete submitted listed
      (isStored.isProtected.symm.trans unprotected)
    rcases ownPath with ⟨path, pathListed, pathOwn, inPath⟩
    rcases List.mem_map.mp isComplete.1 with ⟨⟨id, name⟩, named, same⟩
    rcases List.exists_mem_of_ne_nil _ isComplete.2 with
      ⟨privilege, privilegeListed⟩
    have isRow : IsRow after serialno
        { principal := name
          ns := (after.namespaces.find? fun other =>
            other.1 == (after.property ace.id).1).map Prod.snd
          propertyName := (after.property ace.id).2
          ace := ace
          privilegeId := dbmsGetPrivilegeId after.toAclTables privilege
          parRes := path } := by
      constructor
      · rw [aces]
        exact List.mem_append_right _ member
      · exact (isStored.privileges _).mpr ⟨privilege, privilegeListed, rfl⟩
      · have principal := isStored.principalId.trans same.symm
        show (ace.principalId, name) ∈ _
        rw [principal]
        exact named
      · exact mem_inheritedRes.mpr
          ⟨pathListed, path, pathListed, pathOwn, pathOwn.symm ▸ inPath⟩
      · exact pathOwn.trans isStored.resourceId.symm
      · rfl
      · rfl
    have listed : ∃ head ∈ heads order after serialno,
        head.ace = _ ∧ head.parRes = _ :=
      isRow.exists_head
    rcases listed with ⟨head, headListed, sameAce, parRes⟩
    refine ⟨head, List.mem_filter.mpr ⟨headListed, ?_⟩, sameAce⟩
    rw [isOwnRow, sameAce, parRes, unprotected]
    show (path.resourceId == serialno && _) = true
    rw [pathOwn, beq_self_eq_true]
    rfl

/-- A stored ACE is listed as it was submitted. -/
theorem readsAs_described
    {submitted : DavAce} {head : GetAclRow}
    (names : NamesPrincipals modDav after.toAclTables)
    (member : head ∈ heads order after serialno)
    (stored : IsStored after serialno submitted head.ace) :
    ReadsAs after.toAclTables submitted
      (described modDav uri serialno head
        (privilegesOf order after serialno head)) where
  principal := by
    have found := isRow_of_mem_heads member
    have named := names _ found.named
    exact named.trans stored.principalId
  property := by
    have found := isRow_of_mem_heads member
    have name := found.propertyName.trans stored.name
    have ns := stored.ns
    unfold described
    dsimp only
    rw [name, found.ns]
    cases asked : submitted.property with
    | none => rfl
    | some property =>
        rcases property with ⟨askedNs, _ | ⟨first, rest⟩, nonempty⟩
        · exact (nonempty rfl).elim
        rw [asked] at ns
        show some (_, first :: rest) = some (askedNs, first :: rest)
        congr 2
        cases askedNs with
        | none =>
            have zero : (after.property head.ace.id).1 = 0 := ns
            rw [zero, List.find?_eq_none.mpr]
            · rfl
            · intro row listed same
              have id := (after.namespaceIds row listed).1
              exact Int.ne_of_gt id (beq_iff_eq.mp same)
        | some askedNs =>
            have listed : ((after.property head.ace.id).1, askedNs) ∈
              after.namespaces := ns
            rw [Sql.find_key after.namespacesPkey listed]
            rfl
  nodup := nodup_privilegesOf member
  privileges := fun privilegeId =>
    (mem_privilegesOf member).trans (stored.privileges privilegeId)
  isDeny := by
    show (head.ace.grantdeny != aclGrant) = submitted.isDeny
    rw [stored.grantdeny]
    cases submitted.isDeny with
    | false => rfl
    | true => rfl

/-- Setting an ACL leaves the parents whose ACEs are inherited. -/
theorem parentsReached_davReposSetAcl {binds : List Bind}
    (reached : ParentsReached binds before serialno)
    (done : davReposSetAcl modDav before serialno acl = .ok after) :
    ParentsReached binds after serialno := by
  rcases davReposSetAcl_spec done with ⟨grows, -⟩
  have keeps := keepsOthers_davReposSetAcl done
  intro row member other
  have found := mem_getAclRows.mp member
  have notOwn : row.ace.resourceId ≠ serialno := found.attached ▸ other
  have listed := keeps.others row.ace found.listed notOwn
  have isKept : keepsAce serialno row.ace = true := by
    rw [keepsAce, beq_eq_false_iff_ne.mpr notOwn]
    rfl
  have principals : after.principals = before.principals := grows.principals
  have inheritance : after.aclInheritance = before.aclInheritance :=
    grows.aclInheritance
  have isRow : IsRow before serialno
      { row with
        ns := (before.namespaces.find? fun other =>
          other.1 == (before.property row.ace.id).1).map Prod.snd
        propertyName := (before.property row.ace.id).2 } := by
    refine ⟨listed, ?_, ?_, ?_, found.attached, rfl, rfl⟩
    · exact (keeps.privileges row.ace listed isKept _).mp found.carries
    · rw [← principals]
      exact found.named
    · have inherited := found.inherited
      rw [inheritedRes, inheritance] at inherited
      exact inherited
  have reaches := reached _ (mem_getAclRows.mpr isRow)
  exact reaches other

/--
The ACL that is set is the one that is read, nothing else changes, and for
every principal but the superuser the first match of the list decides as the
check does.
-/
theorem dbmsGetAcl_davReposSetAcl
    (modDav : ModDav) (binds : List Bind) (rootPath : Text) (serialno : Id)
    (pathOrder : Sql.RowOrder Bind) (order : Sql.RowOrder GetAclRow)
    (before after : AceStore) (acl : List DavAce) (fuel : Nat)
    (enough : binds.length < fuel)
    (names : NamesPrincipals modDav before.toAclTables)
    (ownPath : HasOwnPath before.toAclTables serialno)
    (reached : ParentsReached binds before serialno)
    (complete : ∀ ace ∈ acl, ace.isProtected = false →
      IsComplete before.toAclTables ace)
    (done : davReposSetAcl modDav before serialno acl = .ok after) :
    KeepsOthers before after serialno acl ∧
      ∃ listed,
        dbmsGetAcl modDav serialno fuel pathOrder binds rootPath order after =
          some listed ∧
        List.Forall₂ (ReadsAs after.toAclTables)
          (acl.filter fun ace => !ace.isProtected) (ownUnprotected listed) ∧
        ∀ (privNsId : Id) (privilege : Text) (principal : DavPrincipal)
          (next : List DavPrincipal),
          davReposGetPrincipalId principal ≠ superUserId →
          (∀ id ∈ membership before.toAclTables
              (davReposGetPrincipalId principal),
            id ∈ before.principals.map Prod.fst) →
            (firstGrants after.toAclTables (davReposGetPrincipalId principal)
                (parPrivIds after.toAclTables fun chi =>
                  chi.name == privilege && chi.privNamespaceId == privNsId)
                listed = true ↔
              (dbmsIsAllow after.toAclTables .succeeds privNsId privilege
                principal next serialno none).1 ≠ 0) := by
  rcases exists_dbmsGetAcl_eq modDav pathOrder rootPath enough
    (parentsReached_davReposSetAcl reached done) with ⟨uri, read⟩
  refine ⟨keepsOthers_davReposSetAcl done,
    listing modDav uri serialno order after, read, ?_⟩
  rcases davReposSetAcl_spec done with
    ⟨grows, rows, aces, stored, ascending⟩
  have principals : after.principals = before.principals := grows.principals
  have namesAfter : NamesPrincipals modDav after.toAclTables := by
    rw [NamesPrincipals, principals]
    exact names
  refine ⟨?_, ?_⟩
  · have listed : ((heads order after serialno).filter
        (isOwnRow serialno)).map GetAclRow.ace = _ :=
      ownHeads_eq aces stored ascending
      (by rw [HasOwnPath, grows.aclInheritance]; exact ownPath)
      (by
        intro ace member unprotected
        rw [IsComplete, principals]
        exact complete ace member unprotected)
    have unprotected : List.Forall₂ (IsStored after serialno)
        (acl.filter fun ace => !ace.isProtected)
        (rows.filter fun row => !row.isProtected) := by
      apply List.rel_filter _ stored
      intro submitted row isStored
      show (!submitted.isProtected) = true ↔ (!row.isProtected) = true
      rw [isStored.isProtected]
    rw [← listed, List.forall₂_map_right_iff] at unprotected
    have heads := ((List.forall₂_and_left _ _).mpr
      ⟨fun head member => List.mem_of_mem_filter member, unprotected.flip⟩).flip
    rw [ownUnprotected_listing, List.forall₂_map_right_iff]
    apply heads.imp
    intro submitted head related
    exact readsAs_described namesAfter related.1 related.2
  · intro privNsId privilege principal next user members
    have membersAfter : ∀ id ∈ membership after.toAclTables
        (davReposGetPrincipalId principal),
        id ∈ after.principals.map Prod.fst := by
      rw [membership, grows.transitiveGroupMembers, principals]
      exact members
    rw [firstGrants_listing namesAfter membersAfter,
      dbmsIsAllow_succeeds_iff after.toAclTables privNsId privilege principal
        next serialno user]
    have named : (fun chi : AclPrivilege => (chi.name == privilege &&
        chi.privNamespaceId == privNsId) = true) =
          IsNamed privNsId privilege := by
      ext chi
      rw [Bool.and_eq_true, beq_iff_eq, beq_iff_eq]
      rfl
    rw [named]

end Reading

/-! ## An ACL of the root collection -/

/-- The root collection with an ACE for `fred` and a protected one. -/
def rootAces : AceStore where
  aces := [⟨1, 'G', true, 2, 1⟩, ⟨2, 'G', false, 2, 9⟩]
  davAcesPrivileges := [(1, 1), (2, 1)]
  aclPrivileges :=
    [⟨1, "read".toList, 1, 1, 2⟩, ⟨2, "write".toList, 1, 3, 4⟩]
  namespaces := [(1, "DAV:".toList)]
  principals := [(1, "limestone".toList), (9, "fred".toList)]
  transitiveGroupMembers := []
  aclInheritance := [⟨2, [2]⟩]
  acesPkey := by decide
  aclPrivilegesPkey := by decide
  aclPrivilegesName := by decide
  namespacesPkey := noEntries.namespacesPkey
  namespacesName := noEntries.namespacesName
  aclInheritancePkey := noEntries.aclInheritancePkey
  fkPrivilegeNamespace := by decide
  property := fun _ => (0, none)
  nextAceId := 3
  nextNamespaceId := 2
  nextAceIdPos := three_pos
  nextNamespaceIdPos := by decide
  aceIds := by decide
  namespaceIds := by decide
  privilegeIds := by decide
  davAcesPrivilegesPkey := by decide
  fkAce := by decide
  principalsPkey := by decide

/-- The principals of `rootAces` by their names. -/
def rootModDav : ModDav where
  principalMakeFromName name :=
    .href (dbmsGetPrincipalIdFromName rootAces.toAclTables (some name))
  privilegeName id := if id = 1 then "read".toList else "write".toList

/-- The superuser may not write, and `fred` may read and write. -/
def rootAcl : List DavAce :=
  [{ principal := .href 1
     principalUri := "/users/limestone".toList
     property := none
     privileges := ⟨[("DAV:".toList, "write".toList)], by decide⟩
     isDeny := true
     isProtected := false },
   { principal := .href 9
     principalUri := "/users/fred".toList
     property := none
     privileges :=
       ⟨[("DAV:".toList, "read".toList), ("DAV:".toList, "write".toList)],
         by decide⟩
     isDeny := false
     isProtected := false }]

/-- The tables with that ACL. -/
def rootAcesSet : AceStore :=
  match davReposSetAcl rootModDav rootAces 2 rootAcl with
  | .ok store => store
  | .error _ => rootAces

theorem davReposSetAcl_rootAces :
    davReposSetAcl rootModDav rootAces 2 rootAcl = .ok rootAcesSet := by
  rfl

/-- The list of `rootAcesSet`. -/
def rootAcesListed : Option (List ListedAce) :=
  dbmsGetAcl rootModDav 2 1 (Sql.RowOrder.stored Bind) [] []
    (Sql.RowOrder.stored GetAclRow) rootAcesSet

/-- All ACEs are the root collection's own. -/
theorem parentsReached_rootAces : ParentsReached [] rootAces 2 := by
  intro row member other
  have listed := mem_aclInheritance_of_mem_inheritedRes
    (mem_getAclRows.mp member).inherited
  have own := List.mem_singleton.mp listed
  exact (other (congrArg AclInheritance.resourceId own)).elim

/-- The ACL is read as it was set, and `fred` may write. -/
theorem dbmsGetAcl_rootAces :
    ∃ listed, rootAcesListed = some listed ∧
      List.Forall₂ (ReadsAs rootAcesSet.toAclTables) rootAcl
        (ownUnprotected listed) ∧
      firstGrants rootAcesSet.toAclTables 9
        (parPrivIds rootAcesSet.toAclTables fun chi =>
          chi.name == "write".toList && chi.privNamespaceId == 1)
        listed = true := by
  have spec := dbmsGetAcl_davReposSetAcl rootModDav [] [] 2
    (Sql.RowOrder.stored Bind) (Sql.RowOrder.stored GetAclRow) rootAces
    rootAcesSet rootAcl 1 (by decide) (by unfold NamesPrincipals; decide)
    (by unfold HasOwnPath; decide) parentsReached_rootAces
    (by unfold IsComplete; decide) davReposSetAcl_rootAces
  rcases spec.2 with ⟨listed, read, same, decides⟩
  refine ⟨listed, read, same, ?_⟩
  exact (decides 1 "write".toList (.href 9) [] (by decide) (by decide)).mpr
    (by decide)

/--
The superuser is denied by the first match of the list, and is allowed by the
check.
-/
theorem firstGrants_ne_dbmsIsAllow_superUser :
    davReposSetAcl rootModDav rootAces 2 rootAcl = .ok rootAcesSet ∧
      rootAcesListed.map (firstGrants rootAcesSet.toAclTables superUserId
        (parPrivIds rootAcesSet.toAclTables fun chi =>
          chi.name == "write".toList && chi.privNamespaceId == 1)) =
        some false ∧
      (dbmsIsAllow rootAcesSet.toAclTables .succeeds 1 "write".toList
        (.href superUserId) [] 2 none).1 ≠ 0 := by
  refine ⟨davReposSetAcl_rootAces, ?_, ?_⟩
  · decide
  · decide

end Limestone.AclRoundTrip
