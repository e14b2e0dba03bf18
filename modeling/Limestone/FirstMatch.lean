import Limestone.AceCache

/-!
# The first match of the access queries

The three queries sort the same rows: those of the ACEs that match a
principal, a privilege and a resource.  Each of them grants iff the first row
in its own order is a grant.
-/

namespace Limestone.FirstMatch

open Library
open DbmsAcl
open AclDecision
open AceCache

/-- A row of the joins for a principal, some privileges and a resource. -/
structure Matches (tables : AclTables) (pId : Id)
    (isChi : AclPrivilege → Prop) (serialno : Id) (row : AceRow) : Prop where
  listed : row.ace ∈ tables.aces
  carries : ∃ par ∈ tables.aclPrivileges, ∃ chi ∈ tables.aclPrivileges,
    (row.ace.id, par.id) ∈ tables.davAcesPrivileges ∧
      par.lft ≤ chi.lft ∧ chi.rgt ≤ par.rgt ∧ isChi chi
  named : row.ace.principalId ∈ membership tables pId
  inherited : row.parRes ∈ inheritedRes tables serialno
  attached : row.parRes.resourceId = row.ace.resourceId

/-- The first row that matches is a grant. -/
def GrantsBy {Key : Type*} [LinearOrder Key] (key : AceRow → Key)
    (among : AceRow → Prop) : Prop :=
  ∃ row, Sql.IsFirst key among row ∧ row.ace.grantdeny = aclGrant

/-- A sort key that is about the ACE and its path, and ends with its id. -/
structure AceKey {Key : Type*} (key : AceRow → Key) : Prop where
  blind : ∀ row pId, key { row with pId := pId } = key row
  aceId : ∀ row other, key row = key other → row.ace.id = other.ace.id

theorem aceKey_protectedFirst : AceKey protectedFirst where
  blind := fun _ _ => rfl
  aceId := fun _ _ same => congrArg (fun key => (ofLex (ofLex key).2).2) same

section Rows

variable {tables : AclTables} {pId serialno : Id}
  {isChi other : AclPrivilege → Prop} {row second : AceRow}

theorem Matches.withPId
    (found : Matches tables pId isChi serialno row) (number : Nat) :
    Matches tables pId isChi serialno { row with pId := number } :=
  ⟨found.listed, found.carries, found.named, found.inherited, found.attached⟩

/-- The privileges are asked for by a key of their table. -/
theorem matches_congr
    (same : ∀ chi ∈ tables.aclPrivileges, isChi chi ↔ other chi) :
    Matches tables pId isChi serialno = Matches tables pId other serialno := by
  ext row
  constructor
  · intro found
    rcases found.carries with
      ⟨par, parListed, chi, chiListed, held, left, right, met⟩
    exact ⟨found.listed, ⟨par, parListed, chi, chiListed, held, left, right,
      (same chi chiListed).mp met⟩, found.named, found.inherited,
      found.attached⟩
  · intro found
    rcases found.carries with
      ⟨par, parListed, chi, chiListed, held, left, right, met⟩
    exact ⟨found.listed, ⟨par, parListed, chi, chiListed, held, left, right,
      (same chi chiListed).mpr met⟩, found.named, found.inherited,
      found.attached⟩

/-- ACEs of rows that sort alike are the same. -/
theorem ace_eq_of_key_eq
    {Key : Type*} {key : AceRow → Key} (aceKey : AceKey key)
    (listed : row.ace ∈ tables.aces) (otherListed : second.ace ∈ tables.aces)
    (same : key row = key second) :
    row.ace = second.ace :=
  List.inj_on_of_nodup_map tables.acesPkey listed otherListed
    (aceKey.aceId _ _ same)

theorem mem_aceRows_iff_matches {isChi : AclPrivilege → Bool} :
    row ∈ aceRows tables ((membership tables pId).map fun groupId =>
        (0, groupId)) (parPrivIds tables isChi)
        (inheritedRes tables serialno) ↔
      row.pId = 0 ∧
        Matches tables pId (fun chi => isChi chi = true) serialno row := by
  rw [mem_aceRows]
  constructor
  · rintro ⟨listed, ⟨priv, container, held⟩, member, inherited, attached⟩
    rcases List.mem_map.mp member with ⟨groupId, named, equal⟩
    rcases Prod.mk.inj equal with ⟨order, rfl⟩
    rcases mem_parPrivIds.mp container with
      ⟨par, parListed, chi, chiListed, rfl, left, right, met⟩
    exact ⟨order.symm, listed,
      ⟨par, parListed, chi, chiListed, held, left, right, met⟩, named,
      inherited, attached⟩
  · rintro ⟨order, found⟩
    rcases found.carries with
      ⟨par, parListed, chi, chiListed, held, left, right, met⟩
    refine ⟨found.listed, ⟨par.id, ?_, held⟩, ?_, found.inherited,
      found.attached⟩
    · exact mem_parPrivIds.mpr
        ⟨par, parListed, chi, chiListed, rfl, left, right, met⟩
    · rw [order]
      exact List.mem_map.mpr ⟨_, found.named, rfl⟩

/-- The first row of the sorted joins is first of the rows that match. -/
theorem isFirst_matches
    {Key : Type*} [LinearOrder Key] {key : AceRow → Key} (aceKey : AceKey key)
    {isChi : AclPrivilege → Bool}
    (found : Sql.limitOne (Sql.orderBy key (aceRows tables
        ((membership tables pId).map fun groupId => (0, groupId))
        (parPrivIds tables isChi) (inheritedRes tables serialno))) =
      some row) :
    Sql.IsFirst key
      (Matches tables pId (fun chi => isChi chi = true) serialno) row := by
  have first := Sql.isFirst_of_limitOne found
  constructor
  · exact (mem_aceRows_iff_matches.mp first.qualifies).2
  · intro other matched
    have least := first.least { other with pId := 0 }
      (mem_aceRows_iff_matches.mpr ⟨rfl, matched.withPId 0⟩)
    rwa [aceKey.blind other] at least

/-- If a row matches, the sorted joins have a first row. -/
theorem exists_limitOne_matches
    {Key : Type*} [LinearOrder Key] (key : AceRow → Key)
    {isChi : AclPrivilege → Bool}
    (matched :
      Matches tables pId (fun chi => isChi chi = true) serialno row) :
    ∃ first, Sql.limitOne (Sql.orderBy key (aceRows tables
        ((membership tables pId).map fun groupId => (0, groupId))
        (parPrivIds tables isChi) (inheritedRes tables serialno))) =
      some first :=
  Sql.exists_limitOne
    (mem_aceRows_iff_matches.mpr ⟨rfl, matched.withPId 0⟩)

/-- First matches of one order are about the same ACE. -/
theorem ace_eq_of_isFirst
    {Key : Type*} [LinearOrder Key] {key : AceRow → Key} (aceKey : AceKey key)
    (first : Sql.IsFirst key (Matches tables pId isChi serialno) row)
    (other : Sql.IsFirst key (Matches tables pId isChi serialno) second) :
    row.ace = second.ace :=
  ace_eq_of_key_eq aceKey first.qualifies.listed other.qualifies.listed
    (first.key_eq other)

/-- A subquery with `LIMIT 1` gives the grant of the first match. -/
theorem limitOne_grants_iff
    {Key : Type*} [LinearOrder Key] {key : AceRow → Key} (aceKey : AceKey key)
    (isChi : AclPrivilege → Bool) :
    (Sql.limitOne (Sql.orderBy key (aceRows tables
        ((membership tables pId).map fun groupId => (0, groupId))
        (parPrivIds tables isChi) (inheritedRes tables serialno)))).map
          (fun row => row.ace.grantdeny) = some aclGrant ↔
      GrantsBy key
        (Matches tables pId (fun chi => isChi chi = true) serialno) := by
  constructor
  · intro granted
    rcases Option.map_eq_some_iff.mp granted with ⟨row, found, grant⟩
    exact ⟨row, isFirst_matches aceKey found, grant⟩
  · rintro ⟨row, first, grant⟩
    rcases exists_limitOne_matches key first.qualifies with ⟨found, limit⟩
    have equal := ace_eq_of_isFirst aceKey first (isFirst_matches aceKey limit)
    rw [limit, ← grant, equal]
    rfl

end Rows

/-! ## The check -/

section Check

variable {tables : AclTables} {privNsId serialno : Id} {privilege : Text}
  {row : AceRow}

/-- The privileges of a name and a namespace. -/
def IsNamed (privNsId : Id) (privilege : Text) (chi : AclPrivilege) : Prop :=
  chi.name = privilege ∧ chi.privNamespaceId = privNsId

theorem mem_isAllowRows_iff_matches {pId : Id} (order : row.pId = 1) :
    row ∈ isAllowRows tables privNsId privilege [.href pId] serialno ↔
      Matches tables pId (IsNamed privNsId privilege) serialno row := by
  rw [mem_isAllowRows]
  constructor
  · rintro ⟨listed, carries, ⟨place, first, found, number, named⟩, inherited,
      attached⟩
    have zero : place = 0 := by omega
    rw [zero] at found
    rcases Option.some.inj found with rfl
    exact ⟨listed, carries, named, inherited, attached⟩
  · intro found
    exact ⟨found.listed, found.carries, ⟨0, .href pId, rfl, order,
      found.named⟩, found.inherited, found.attached⟩

/-- What the ACEs say of a principal is what the first match says. -/
theorem allows_iff_grantsBy {pId : Id} :
    Allows tables privNsId privilege pId serialno ↔
      GrantsBy protectedFirst
        (Matches tables pId (IsNamed privNsId privilege) serialno) := by
  constructor
  · rintro ⟨row, first, grant⟩
    refine ⟨row, ⟨?_, ?_⟩, grant⟩
    · exact (mem_isAllowRows_iff_matches first.qualifies.2).mp
        first.qualifies.1
    · intro other matched
      exact first.least { other with pId := 1 }
        ⟨(mem_isAllowRows_iff_matches rfl).mpr (matched.withPId 1), rfl⟩
  · rintro ⟨row, first, grant⟩
    refine ⟨{ row with pId := 1 }, ⟨⟨?_, rfl⟩, ?_⟩, grant⟩
    · exact (mem_isAllowRows_iff_matches rfl).mpr (first.qualifies.withPId 1)
    · rintro other ⟨listed, order⟩
      exact first.least other ((mem_isAllowRows_iff_matches order).mp listed)

/-- A check whose query succeeds grants iff the first match is a grant. -/
theorem dbmsIsAllow_succeeds_iff
    (tables : AclTables) (privNsId : Id) (privilege : Text)
    (principal : DavPrincipal) (next : List DavPrincipal) (serialno : Id)
    (user : davReposGetPrincipalId principal ≠ superUserId) :
    (dbmsIsAllow tables .succeeds privNsId privilege principal next serialno
        none).1 ≠ 0 ↔
      GrantsBy protectedFirst
        (Matches tables (davReposGetPrincipalId principal)
          (IsNamed privNsId privilege) serialno) := by
  let call : Call := ⟨privNsId, privilege, principal, next, .succeeds⟩
  have other : call.pId ≠ superUserId := user
  have missed : call.hit none = none := rfl
  rcases run_missed tables serialno other missed with
    ⟨allowed, _, run, allows, -⟩
  have value : (dbmsIsAllow tables .succeeds privNsId privilege principal next
      serialno none).1 = truth allowed := congrArg Prod.fst run
  rw [value, truth_ne_zero, ← allows_iff_grantsBy]
  exact allows

end Check

/-! ## Privileges of the table -/

section Listed

variable {tables : AclTables} {privilege : AclPrivilege}

/-- No two privileges have the same name. -/
theorem privilege_eq_of_name
    {other : AclPrivilege}
    (listed : privilege ∈ tables.aclPrivileges)
    (otherListed : other ∈ tables.aclPrivileges)
    (same : privilege.name = other.name) :
    privilege = other :=
  List.inj_on_of_nodup_map tables.aclPrivilegesName listed otherListed same

/-- The check for a privilege allows the superuser and who is granted it. -/
theorem dbmsIsAllow_privilege_iff
    (listed : privilege ∈ tables.aclPrivileges)
    (principal : DavPrincipal) (next : List DavPrincipal) (serialno : Id) :
    (dbmsIsAllow tables .succeeds privilege.privNamespaceId privilege.name
        principal next serialno none).1 ≠ 0 ↔
      davReposGetPrincipalId principal = superUserId ∨
        GrantsBy protectedFirst
          (Matches tables (davReposGetPrincipalId principal)
            (fun chi => chi = privilege) serialno) := by
  by_cases superUser : davReposGetPrincipalId principal = superUserId
  · apply iff_of_true
    · simp only [dbmsIsAllow, if_pos superUser]
      decide
    · exact Or.inl superUser
  · have chosen : ∀ chi ∈ tables.aclPrivileges,
        IsNamed privilege.privNamespaceId privilege.name chi ↔
          chi = privilege := by
      intro chi chiListed
      constructor
      · intro named
        exact privilege_eq_of_name chiListed listed named.1
      · rintro rfl
        exact ⟨rfl, rfl⟩
    rw [dbmsIsAllow_succeeds_iff tables privilege.privNamespaceId
      privilege.name principal next serialno superUser,
      or_iff_right superUser, matches_congr chosen]

end Listed

end Limestone.FirstMatch
