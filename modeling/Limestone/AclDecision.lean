import Limestone.DbmsAcl

/-!
# What the access check asks for

The ACEs that apply to a principal, a privilege and a resource have an order:
protected ACEs come first, then those of the nearest ancestor, then those with
the lowest id.  The query takes the length of an ancestor's path for its
nearness, which is right where the path of an ancestor is the beginning of the
path of what inherits from it.
-/

namespace Limestone.AclDecision

open Library
open DbmsAcl
open DbmsPrincipal

/-! ## Paths -/

/-- A longer path has a longer text. -/
theorem length_pathText_lt
    {path longer : List Id} (nonempty : path ≠ []) (isPrefix : path <+: longer)
    (shorter : path.length < longer.length) :
    (pathText path).length < (pathText longer).length := by
  rcases isPrefix with ⟨rest, rfl⟩
  cases path with
  | nil => exact (nonempty rfl).elim
  | cons first path =>
      cases rest with
      | nil =>
          rw [List.append_nil] at shorter
          exact (Nat.lt_irrefl _ shorter).elim
      | cons next rest =>
          simp only [pathText, List.cons_append, List.map_cons, List.map_append,
            Segments.joined, Segments.slashed_append, Segments.slashed_cons,
            List.length_append, List.length_cons]
          omega

/-- Of two beginnings of one path the longer has the longer text. -/
theorem length_pathText_le_iff
    {path first second : List Id} (nonempty : first ≠ [])
    (otherNonempty : second ≠ [])
    (isPrefix : first <+: path) (otherPrefix : second <+: path) :
    (pathText first).length ≤ (pathText second).length ↔
      first.length ≤ second.length := by
  rcases Nat.lt_trichotomy first.length second.length with
    shorter | same | longer
  · have inside := List.prefix_of_prefix_length_le isPrefix otherPrefix
      shorter.le
    have less := length_pathText_lt nonempty inside shorter
    exact iff_of_true less.le shorter.le
  · have equal := (List.prefix_of_prefix_length_le isPrefix otherPrefix
      same.le).eq_of_length same
    rw [equal]
    exact iff_of_true le_rfl le_rfl
  · have inside := List.prefix_of_prefix_length_le otherPrefix isPrefix
      longer.le
    have less := length_pathText_lt otherNonempty inside longer
    exact iff_of_false less.not_ge longer.not_ge

/-- Where a beginning of a path ends is found at its end. -/
theorem idxOf_of_prefix
    {path first : List Id} {resId : Id}
    (distinct : path.Nodup) (isPrefix : first <+: path)
    (ends : first.getLast? = some resId) :
    path.idxOf resId + 1 = first.length := by
  rcases isPrefix with ⟨rest, rfl⟩
  rcases List.getLast?_eq_some_iff.mp ends with ⟨before, rfl⟩
  have fresh : resId ∉ before := by
    intro member
    rw [List.append_assoc, List.nodup_append] at distinct
    exact distinct.2.2 resId member resId (by simp) rfl
  rw [List.append_assoc, List.idxOf_append_of_notMem fresh,
    List.singleton_append, List.idxOf_cons_self, List.length_append]
  rfl

/-! ## What applies -/

/--
A path ends with its resource, the path of an ancestor is the beginning up to
it, and an ancestor that has ACEs has a path.  No constraint of the schema says
so, and a change of ACL parents can break it.
-/
structure PathsWellFormed (tables : AclTables) : Prop where
  pathEnds : ∀ row ∈ tables.aclInheritance,
    row.path.getLast? = some row.resourceId
  pathNodup : ∀ row ∈ tables.aclInheritance, row.path.Nodup
  pathPrefix : ∀ row ∈ tables.aclInheritance,
    ∀ ancestor ∈ tables.aclInheritance,
      ancestor.resourceId ∈ row.path → ancestor.path <+: row.path
  pathOfAce : ∀ row ∈ tables.aclInheritance, ∀ ace ∈ tables.aces,
    ace.resourceId ∈ row.path →
      ∃ ancestor ∈ tables.aclInheritance,
        ancestor.resourceId = ace.resourceId

/-- An ACE applies to a principal, a privilege and a resource. -/
structure Applies (tables : AclTables) (pId privNsId : Id) (privilege : Text)
    (serialno : Id) (ace : Ace) : Prop where
  listed : ace ∈ tables.aces
  attached : ace.resourceId = serialno ∨
    ∃ row ∈ tables.aclInheritance, row.resourceId = serialno ∧
      ace.resourceId ∈ row.path
  named : ace.principalId = pId ∨
    ∃ row ∈ tables.transitiveGroupMembers,
      row.transitiveGroupId = ace.principalId ∧ row.transitiveMemberId = pId
  carries : ∃ par ∈ tables.aclPrivileges, ∃ chi ∈ tables.aclPrivileges,
    (ace.id, par.id) ∈ tables.davAcesPrivileges ∧
      par.lft ≤ chi.lft ∧ chi.rgt ≤ par.rgt ∧
      chi.name = privilege ∧ chi.privNamespaceId = privNsId

/-- The path of a resource, empty when it has none. -/
def aclPath (tables : AclTables) (serialno : Id) : List Id :=
  ((tables.aclInheritance.filter fun row =>
    row.resourceId == serialno).head?.map AclInheritance.path).getD []

/-- Protected ACEs first, then those of the nearest ancestor, then by id. -/
def precedence (tables : AclTables) (serialno : Id) (ace : Ace) :
    Bool ×ₗ ℕᵒᵈ ×ₗ Int :=
  toLex (!ace.isProtected,
    toLex (OrderDual.toDual ((aclPath tables serialno).idxOf ace.resourceId),
      ace.id))

/-- The first applicable ACE is a grant. -/
def Grants (tables : AclTables) (pId privNsId : Id) (privilege : Text)
    (serialno : Id) : Prop :=
  ∃ ace,
    Sql.IsFirst (precedence tables serialno)
      (Applies tables pId privNsId privilege serialno) ace ∧
    ace.grantdeny = aclGrant

/-! ## The joins -/

section Joins

variable {tables : AclTables} {serialno : Id} {row : AceRow}

theorem mem_membership {pId groupId : Id} :
    groupId ∈ membership tables pId ↔
      groupId = pId ∨
        ∃ row ∈ tables.transitiveGroupMembers,
          row.transitiveGroupId = groupId ∧ row.transitiveMemberId = pId := by
  simp only [membership, Sql.mem_union, List.mem_map, List.mem_filter,
    beq_iff_eq, List.mem_singleton]
  constructor
  · rintro (⟨row, ⟨listed, member⟩, group⟩ | same)
    · exact Or.inr ⟨row, listed, group, member⟩
    · exact Or.inl same
  · rintro (same | ⟨row, listed, group, member⟩)
    · exact Or.inr same
    · exact Or.inl ⟨row, ⟨listed, member⟩, group⟩

theorem mem_parPrivIds {isChi : AclPrivilege → Bool} {privId : Id} :
    privId ∈ parPrivIds tables isChi ↔
      ∃ par ∈ tables.aclPrivileges, ∃ chi ∈ tables.aclPrivileges,
        par.id = privId ∧ par.lft ≤ chi.lft ∧ chi.rgt ≤ par.rgt ∧
          isChi chi = true := by
  simp only [parPrivIds, List.mem_map, List.mem_filter, Sql.mem_crossJoin,
    Bool.and_eq_true, decide_eq_true_eq, Prod.exists]
  constructor
  · rintro ⟨par, chi, ⟨⟨parListed, chiListed⟩, ⟨left, right⟩, met⟩, same⟩
    exact ⟨par, parListed, chi, chiListed, same, left, right, met⟩
  · rintro ⟨par, parListed, chi, chiListed, same, left, right, met⟩
    exact ⟨par, chi, ⟨⟨parListed, chiListed⟩, ⟨left, right⟩, met⟩, same⟩

theorem mem_inheritedRes {ancestor : AclInheritance} :
    ancestor ∈ inheritedRes tables serialno ↔
      ancestor ∈ tables.aclInheritance ∧
        ∃ row ∈ tables.aclInheritance, row.resourceId = serialno ∧
          ancestor.resourceId ∈ row.path := by
  simp only [inheritedRes, List.mem_map, List.mem_filter, Sql.mem_crossJoin,
    Bool.and_eq_true, decide_eq_true_eq, beq_iff_eq, Prod.exists]
  constructor
  · rintro ⟨_, row, ⟨⟨listed, rowListed⟩, inPath, same⟩, rfl⟩
    exact ⟨listed, row, rowListed, same, inPath⟩
  · rintro ⟨listed, row, rowListed, same, inPath⟩
    exact ⟨ancestor, row, ⟨⟨listed, rowListed⟩, inPath, same⟩, rfl⟩

theorem mem_aceRows
    {members : List (Nat × Id)} {privs : List Id}
    {resources : List AclInheritance} :
    row ∈ aceRows tables members privs resources ↔
      row.ace ∈ tables.aces ∧
        (∃ priv ∈ privs, (row.ace.id, priv) ∈ tables.davAcesPrivileges) ∧
        (row.pId, row.ace.principalId) ∈ members ∧
        row.parRes ∈ resources ∧
        row.parRes.resourceId = row.ace.resourceId := by
  rcases row with ⟨pId, ace, parRes⟩
  simp only [aceRows, List.mem_flatMap, List.mem_map, List.mem_filter,
    beq_iff_eq]
  constructor
  · rintro ⟨_, listed, ap, ⟨apListed, apSame⟩, member,
      ⟨memberListed, memberSame⟩, priv, ⟨privListed, privSame⟩, res,
      ⟨resListed, resSame⟩, equal⟩
    rcases AceRow.mk.inj equal with ⟨rfl, rfl, rfl⟩
    refine ⟨listed, ⟨priv, privListed, ?_⟩, ?_, resListed, resSame⟩
    · rw [← apSame, privSame]
      exact apListed
    · rw [← memberSame]
      exact memberListed
  · rintro ⟨listed, ⟨priv, privListed, apListed⟩, memberListed, resListed,
      resSame⟩
    exact ⟨ace, listed, (ace.id, priv), ⟨apListed, rfl⟩,
      (pId, ace.principalId), ⟨memberListed, rfl⟩, priv, ⟨privListed, rfl⟩,
      parRes, ⟨resListed, resSame⟩, rfl⟩

/-- The order of a principal stands for its place in the chain. -/
theorem mem_membersQuery
    {order number : Nat} {principals : List DavPrincipal} {groupId : Id} :
    (number, groupId) ∈ membersQuery tables order principals ↔
      ∃ place principal, principals[place]? = some principal ∧
        number = order + place ∧
        groupId ∈ membership tables (davReposGetPrincipalId principal) := by
  induction principals generalizing order with
  | nil => simp [membersQuery]
  | cons first rest induction =>
      simp only [membersQuery, List.mem_append, List.mem_map, Prod.mk.injEq,
        induction]
      constructor
      · rintro (⟨_, member, rfl, rfl⟩ |
          ⟨place, principal, found, rfl, member⟩)
        · exact ⟨0, first, rfl, rfl, member⟩
        · exact ⟨place + 1, principal, found, by omega, member⟩
      · rintro ⟨place, principal, found, rfl, member⟩
        cases place with
        | zero =>
            rcases Option.some.inj found with rfl
            exact Or.inl ⟨groupId, member, rfl, rfl⟩
        | succ place =>
            exact Or.inr ⟨place, principal, found, by omega, member⟩

end Joins

/-! ## Nearness -/

section Nearness

variable {tables : AclTables}

theorem aclPath_eq
    {row : AclInheritance}
    (listed : row ∈ tables.aclInheritance) :
    aclPath tables row.resourceId = row.path := by
  rw [aclPath]
  rcases Sql.filter_key tables.aclInheritancePkey row.resourceId with
    none | ⟨other, only⟩
  · have member : row ∈ tables.aclInheritance.filter fun other =>
        other.resourceId == row.resourceId :=
      List.mem_filter.mpr ⟨listed, beq_self_eq_true _⟩
    rw [none] at member
    cases member
  · have member : row ∈ tables.aclInheritance.filter fun other =>
        other.resourceId == row.resourceId :=
      List.mem_filter.mpr ⟨listed, beq_self_eq_true _⟩
    rw [only, List.mem_singleton] at member
    rw [only, member]
    rfl

/-- The text of an ancestor's path is longer the nearer the ancestor is. -/
theorem length_pathText_le_iff_idxOf
    {row first second : AclInheritance}
    (wellFormed : PathsWellFormed tables)
    (listed : row ∈ tables.aclInheritance)
    (firstListed : first ∈ tables.aclInheritance)
    (secondListed : second ∈ tables.aclInheritance)
    (inPath : first.resourceId ∈ row.path)
    (otherInPath : second.resourceId ∈ row.path) :
    (pathText first.path).length ≤ (pathText second.path).length ↔
      row.path.idxOf first.resourceId ≤ row.path.idxOf second.resourceId := by
  have distinct := wellFormed.pathNodup row listed
  have firstPrefix := wellFormed.pathPrefix row listed first firstListed inPath
  have secondPrefix :=
    wellFormed.pathPrefix row listed second secondListed otherInPath
  have firstEnds := wellFormed.pathEnds first firstListed
  have secondEnds := wellFormed.pathEnds second secondListed
  have nonempty : first.path ≠ [] := by
    intro empty
    rw [empty] at firstEnds
    cases firstEnds
  have otherNonempty : second.path ≠ [] := by
    intro empty
    rw [empty] at secondEnds
    cases secondEnds
  rw [length_pathText_le_iff nonempty otherNonempty firstPrefix secondPrefix,
    ← idxOf_of_prefix distinct firstPrefix firstEnds,
    ← idxOf_of_prefix distinct secondPrefix secondEnds]
  exact Nat.add_le_add_iff_right

/--
Protected ACEs first, then those whose resource has the longest path text, then
by id.
-/
def textPrecedence (tables : AclTables) (ace : Ace) : Bool ×ₗ ℕᵒᵈ ×ₗ Int :=
  toLex (!ace.isProtected,
    toLex (OrderDual.toDual
      (pathText (aclPath tables ace.resourceId)).length, ace.id))

/-- In well-formed paths longer texts are nearer. -/
theorem textPrecedence_le_iff
    {row first second : AclInheritance} {ace other : Ace}
    (wellFormed : PathsWellFormed tables)
    (listed : row ∈ tables.aclInheritance)
    (firstListed : first ∈ tables.aclInheritance)
    (secondListed : second ∈ tables.aclInheritance)
    (inPath : first.resourceId ∈ row.path)
    (otherInPath : second.resourceId ∈ row.path)
    (same : first.resourceId = ace.resourceId)
    (otherSame : second.resourceId = other.resourceId) :
    textPrecedence tables ace ≤ textPrecedence tables other ↔
      precedence tables row.resourceId ace ≤
        precedence tables row.resourceId other := by
  have nearer := length_pathText_le_iff_idxOf wellFormed listed secondListed
    firstListed otherInPath inPath
  have farther := length_pathText_le_iff_idxOf wellFormed listed firstListed
    secondListed inPath otherInPath
  have equal : (pathText first.path).length = (pathText second.path).length ↔
      row.path.idxOf first.resourceId = row.path.idxOf second.resourceId := by
    rw [le_antisymm_iff, le_antisymm_iff]
    exact and_congr farther nearer
  have path := aclPath_eq listed
  simp only [textPrecedence, precedence, path, ← same, ← otherSame,
    aclPath_eq firstListed, aclPath_eq secondListed, Prod.Lex.toLex_le_toLex',
    OrderDual.toDual_le_toDual, EmbeddingLike.apply_eq_iff_eq]
  rw [equal]
  exact and_congr_right fun _ => imp_congr_right fun _ =>
    and_congr_left fun _ => nearer

end Nearness

/-! ## The rows of the check -/

section Query

variable {privNsId : Id} {privilege : Text} {principals : List DavPrincipal}
  {serialno : Id} {row : AceRow}

theorem mem_isAllowRows
    {tables : AclTables} :
    row ∈ isAllowRows tables privNsId privilege principals serialno ↔
      row.ace ∈ tables.aces ∧
        (∃ par ∈ tables.aclPrivileges, ∃ chi ∈ tables.aclPrivileges,
          (row.ace.id, par.id) ∈ tables.davAcesPrivileges ∧
            par.lft ≤ chi.lft ∧ chi.rgt ≤ par.rgt ∧
            chi.name = privilege ∧ chi.privNamespaceId = privNsId) ∧
        (∃ place principal, principals[place]? = some principal ∧
          row.pId = 1 + place ∧
          row.ace.principalId ∈
            membership tables (davReposGetPrincipalId principal)) ∧
        row.parRes ∈ inheritedRes tables serialno ∧
        row.parRes.resourceId = row.ace.resourceId := by
  rw [isAllowRows, mem_aceRows, mem_membersQuery]
  apply and_congr_right
  intro _
  apply and_congr_left
  intro _
  constructor
  · rintro ⟨priv, container, listed⟩
    rcases mem_parPrivIds.mp container with
      ⟨par, parListed, chi, chiListed, rfl, left, right, met⟩
    rw [Bool.and_eq_true, beq_iff_eq, beq_iff_eq] at met
    exact ⟨par, parListed, chi, chiListed, listed, left, right, met⟩
  · rintro ⟨par, parListed, chi, chiListed, listed, left, right, name, ns⟩
    refine ⟨par.id, mem_parPrivIds.mpr
      ⟨par, parListed, chi, chiListed, rfl, left, right, ?_⟩, listed⟩
    rw [Bool.and_eq_true, beq_iff_eq, beq_iff_eq]
    exact ⟨name, ns⟩

/-- Of the rows for its principal, a row of the query is first. -/
theorem isFirst_of_mem_isAllowQuery
    {tables : AclTables}
    (member : row ∈
      isAllowQuery tables privNsId privilege principals serialno) :
    Sql.IsFirst protectedFirst
      (fun other =>
        other ∈ isAllowRows tables privNsId privilege principals serialno ∧
          other.pId = row.pId) row := by
  have sorted := Sql.orderBy_pairwise principalFirst
    (isAllowRows tables privNsId privilege principals serialno)
  constructor
  · exact ⟨Sql.mem_orderBy.mp (Sql.mem_of_mem_distinctOn member), rfl⟩
  · rintro other ⟨listed, same⟩
    have least := Sql.least_of_mem_distinctOn sorted member
      (Sql.mem_orderBy.mpr listed) same
    rw [principalFirst, principalFirst, same, Prod.Lex.toLex_le_toLex] at least
    exact least.resolve_left (lt_irrefl _) |>.2

end Query

/-- Some row of the query grants to the principal with the number `order`. -/
def RowGrants (query : List AceRow) (order : Nat) : Prop :=
  ∃ row ∈ query, row.pId = order ∧ row.ace.grantdeny = aclGrant

/-! ## Calls -/

/-- The arguments of a call, and what becomes of its query. -/
structure Call where
  privNsId : Id
  privilege : Text
  principal : DavPrincipal
  next : List DavPrincipal
  outcome : QueryOutcome
deriving DecidableEq, Repr

/-- The principal that a call is about. -/
def Call.pId (call : Call) : Id :=
  davReposGetPrincipalId call.principal

/-- `dbms_is_allow` for the resource. -/
def Call.run (tables : AclTables) (serialno : Id)
    (cache : Option AceCache) (call : Call) : Int × Option AceCache :=
  dbmsIsAllow tables call.outcome call.privNsId call.privilege call.principal
    call.next serialno cache

/-- The first ACE that applies to the call is a grant. -/
def Call.Granted (tables : AclTables) (serialno : Id) (call : Call) : Prop :=
  Grants tables call.pId call.privNsId call.privilege serialno

/-- The entry of the cache that answers the call. -/
def Call.hit (cache : Option AceCache) (call : Call) : Option AceCache :=
  cacheHit cache call.pId call.privNsId call.privilege

section Calls

variable {cache : Option AceCache} {call : Call}

theorem hit_eq_some {entry : AceCache} (hit : call.hit cache = some entry) :
    cache = some entry ∧ entry.principalId = call.pId ∧
      entry.privNsId = call.privNsId ∧ entry.privilege = call.privilege := by
  rw [Call.hit, cacheHit, Option.filter_eq_some_iff] at hit
  simp only [Bool.and_eq_true, beq_iff_eq] at hit
  exact ⟨hit.1, hit.2.1.1, hit.2.1.2, hit.2.2⟩

/-- A call that runs its query. -/
theorem run_executed
    (tables : AclTables) (serialno : Id) {cache : Option AceCache} {call : Call}
    (other : call.pId ≠ superUserId)
    (missed : call.hit cache = none)
    (executes : call.outcome ≠ .executeFails) :
    call.run tables serialno cache =
      let principals := call.principal :: call.next
      let result := allowLoop principals.length call.privNsId call.privilege 1
        principals
        { rows := call.outcome.fetched (isAllowQuery tables call.privNsId
            call.privilege principals serialno)
          nextOrder := 0
          nextIsAllow := false
          retVal := false } cache
      (truth result.1, result.2) := by
  rcases call with ⟨privNsId, privilege, principal, next, outcome⟩
  simp only [Call.run, Call.pId, Call.hit] at other missed executes ⊢
  simp only [dbmsIsAllow, if_neg other, missed]

theorem run_superUser
    (tables : AclTables) (serialno : Id) {cache : Option AceCache} {call : Call}
    (superUser : call.pId = superUserId) :
    call.run tables serialno cache = (1, cache) := by
  have equal : davReposGetPrincipalId call.principal = superUserId := superUser
  simp only [Call.run, dbmsIsAllow, if_pos equal]

theorem run_hit
    (tables : AclTables) (serialno : Id) {cache : Option AceCache} {call : Call}
    {entry : AceCache}
    (other : call.pId ≠ superUserId)
    (hit : call.hit cache = some entry) :
    call.run tables serialno cache = (truth entry.isAllow, cache) := by
  have unequal : davReposGetPrincipalId call.principal ≠ superUserId := other
  have found : cacheHit cache (davReposGetPrincipalId call.principal)
      call.privNsId call.privilege = some entry := hit
  simp only [Call.run, dbmsIsAllow, if_neg unequal, found]

theorem run_executeFails
    (tables : AclTables) (serialno : Id) {cache : Option AceCache} {call : Call}
    (other : call.pId ≠ superUserId)
    (missed : call.hit cache = none)
    (fails : call.outcome = .executeFails) :
    call.run tables serialno cache =
      ((httpInternalServerError : Int), cache) := by
  have unequal : davReposGetPrincipalId call.principal ≠ superUserId := other
  have missing : cacheHit cache (davReposGetPrincipalId call.principal)
      call.privNsId call.privilege = none := missed
  simp only [Call.run, dbmsIsAllow, if_neg unequal, missing, fails]

theorem truth_ne_zero {value : Bool} : truth value ≠ 0 ↔ value = true := by
  cases value <;> decide

end Calls

end Limestone.AclDecision
