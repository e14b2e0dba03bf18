import Limestone.FirstMatch

/-!
# The access check is fail-closed but for its error code

The first row that is fetched is the first applicable ACE as the texts of the
paths order them.  What is fetched or cached never grants more than this ACE.
A query that cannot be executed does: the error code is taken for a truth
value.
-/

namespace Limestone.FailClosed

open Library
open DbmsAcl
open AclDecision
open AceCache
open FirstMatch

/-- A value that counts as true is returned to those it is granted to only. -/
def FailsClosed (tables : AclTables) (serialno : Id)
    (cache : Option AceCache) (call : Call) : Prop :=
  (call.run tables serialno cache).1 ≠ 0 →
    call.pId = superUserId ∨ call.Granted tables serialno

/-! ## The order of the query -/

/-- An applicable ACE of an ACL ancestor that has a path itself. -/
structure Inherits (tables : AclTables) (pId privNsId : Id) (privilege : Text)
    (serialno : Id) (ace : Ace) : Prop where
  applies : Applies tables pId privNsId privilege serialno ace
  inPath : ∃ row ∈ tables.aclInheritance, row.resourceId = serialno ∧
    ace.resourceId ∈ row.path
  hasPath : ∃ row ∈ tables.aclInheritance, row.resourceId = ace.resourceId

/-- The first ACE is a grant when longer paths count as nearer. -/
def GrantsByText (tables : AclTables) (pId privNsId : Id) (privilege : Text)
    (serialno : Id) : Prop :=
  ∃ ace,
    Sql.IsFirst (textPrecedence tables)
      (Inherits tables pId privNsId privilege serialno) ace ∧
    ace.grantdeny = aclGrant

section Order

variable {tables : AclTables} {pId privNsId serialno : Id} {privilege : Text}
  {row : AceRow}

theorem inherits_of_matches
    (found : Matches tables pId (IsNamed privNsId privilege) serialno row) :
    Inherits tables pId privNsId privilege serialno row.ace := by
  rcases mem_inheritedRes.mp found.inherited with
    ⟨listed, path, pathListed, ofResource, inPath⟩
  have inherited : ∃ row' ∈ tables.aclInheritance,
      row'.resourceId = serialno ∧ row.ace.resourceId ∈ row'.path :=
    ⟨path, pathListed, ofResource, found.attached ▸ inPath⟩
  exact ⟨⟨found.listed, Or.inr inherited, mem_membership.mp found.named,
    found.carries⟩, inherited, row.parRes, listed, found.attached⟩

theorem Inherits.exists_matches {ace : Ace}
    (inherits : Inherits tables pId privNsId privilege serialno ace) :
    ∃ parRes, Matches tables pId (IsNamed privNsId privilege) serialno
      ⟨0, ace, parRes⟩ := by
  rcases inherits with
    ⟨applies, ⟨path, pathListed, ofResource, inPath⟩, parRes, listed, same⟩
  refine ⟨parRes, applies.listed, applies.carries,
    mem_membership.mpr applies.named, ?_, same⟩
  exact mem_inheritedRes.mpr
    ⟨listed, path, pathListed, ofResource, same ▸ inPath⟩

/-- A row sorts as its ACE does. -/
theorem protectedFirst_eq {isChi : AclPrivilege → Prop}
    (found : Matches tables pId isChi serialno row) :
    protectedFirst row = textPrecedence tables row.ace := by
  have path := aclPath_eq (mem_inheritedRes.mp found.inherited).1
  rw [protectedFirst, charLength, textPrecedence, ← found.attached, path]

/-- The first match grants iff the first ACE does. -/
theorem allows_iff_grantsByText :
    Allows tables privNsId privilege pId serialno ↔
      GrantsByText tables pId privNsId privilege serialno := by
  rw [allows_iff_grantsBy]
  constructor
  · rintro ⟨row, first, grant⟩
    refine ⟨row.ace, ⟨inherits_of_matches first.qualifies, ?_⟩, grant⟩
    intro other inherits
    rcases inherits.exists_matches with ⟨parRes, matched⟩
    have least := first.least _ matched
    rwa [protectedFirst_eq first.qualifies, protectedFirst_eq matched] at least
  · rintro ⟨ace, first, grant⟩
    rcases first.qualifies.exists_matches with ⟨parRes, matched⟩
    refine ⟨⟨0, ace, parRes⟩, ⟨matched, ?_⟩, grant⟩
    intro other otherMatched
    rw [protectedFirst_eq matched, protectedFirst_eq otherMatched]
    exact first.least other.ace (inherits_of_matches otherMatched)

/-- Where the paths are well formed all applicable ACEs are inherited. -/
theorem exists_path_of_applies {ace : Ace} {path : AclInheritance}
    (wellFormed : PathsWellFormed tables)
    (listed : path ∈ tables.aclInheritance)
    (applies : Applies tables pId privNsId privilege path.resourceId ace) :
    ace.resourceId ∈ path.path ∧
      ∃ ancestor ∈ tables.aclInheritance,
        ancestor.resourceId = ace.resourceId := by
  have inPath : ace.resourceId ∈ path.path := by
    rcases applies.attached with own | ⟨other, otherListed, same, inPath⟩
    · rw [own]
      exact List.mem_of_getLast? (wellFormed.pathEnds path listed)
    · have equal : other = path :=
        List.inj_on_of_nodup_map tables.aclInheritancePkey otherListed listed
          same
      exact equal ▸ inPath
  exact ⟨inPath,
    wellFormed.pathOfAce path listed ace applies.listed inPath⟩

/-- Where the paths are well formed their texts tell what is nearer. -/
theorem grants_of_grantsByText
    (wellFormed : PathsWellFormed tables)
    (grants : GrantsByText tables pId privNsId privilege serialno) :
    Grants tables pId privNsId privilege serialno := by
  rcases grants with ⟨ace, first, grant⟩
  rcases first.qualifies with
    ⟨applies, ⟨path, listed, rfl, inPath⟩, ancestor, ancestorListed, same⟩
  refine ⟨ace, ⟨applies, fun other otherApplies => ?_⟩, grant⟩
  rcases exists_path_of_applies wellFormed listed otherApplies with
    ⟨otherInPath, otherAncestor, otherListed, otherSame⟩
  have least := first.least other ⟨otherApplies,
    ⟨path, listed, rfl, otherInPath⟩, otherAncestor, otherListed, otherSame⟩
  exact (textPrecedence_le_iff wellFormed listed ancestorListed otherListed
    (same ▸ inPath) (otherSame ▸ otherInPath) same otherSame).mp least

end Order

/-! ## Calls -/

/-- A call that is told no: by the cache, or by the query that is executed. -/
def Denies (tables : AclTables) (serialno : Id) (cache : Option AceCache)
    (call : Call) : Prop :=
  match call.hit cache with
  | some entry => entry.isAllow = false
  | none => call.outcome = .fetchFails 0 ∨
      call.outcome ≠ .executeFails ∧
        ¬ GrantsByText tables call.pId call.privNsId call.privilege serialno

/-- A grant in the cache is a grant of the tables. -/
def CacheSound (tables : AclTables) (serialno : Id)
    (cache : Option AceCache) : Prop :=
  ∀ entry, cache = some entry → entry.isAllow = true →
    Grants tables entry.principalId entry.privNsId entry.privilege serialno

section Calls

variable {tables : AclTables} {serialno : Id} {cache : Option AceCache}
  {call : Call}

/-- What is fetched are rows of the query. -/
theorem rowGrants_of_fetched {order : Nat}
    (grants : RowGrants (fetched tables serialno call) order) :
    RowGrants (isAllowQuery tables call.privNsId call.privilege
      (call.principal :: call.next) serialno) order := by
  rcases grants with ⟨row, member, found⟩
  refine ⟨row, ?_, found⟩
  rw [fetched] at member
  cases outcome : call.outcome with
  | executeFails =>
      rw [outcome] at member
      cases member
  | fetchFails count =>
      rw [outcome] at member
      exact List.mem_of_mem_take member
  | succeeds =>
      rw [outcome] at member
      exact member

/-- The row for the first principal is fetched first. -/
theorem rowGrants_fetched_one_iff
    (executes : call.outcome ≠ .executeFails) :
    RowGrants (fetched tables serialno call) 1 ↔
      call.outcome ≠ .fetchFails 0 ∧
        RowGrants (isAllowQuery tables call.privNsId call.privilege
          (call.principal :: call.next) serialno) 1 := by
  constructor
  · intro grants
    refine ⟨fun none => ?_, rowGrants_of_fetched grants⟩
    rcases grants with ⟨row, member, -⟩
    rw [fetched, none] at member
    cases member
  · rintro ⟨some, grants⟩
    cases outcome : call.outcome with
    | executeFails => exact (executes outcome).elim
    | succeeds =>
        rw [fetched, outcome]
        exact grants
    | fetchFails count =>
        rw [fetched, outcome]
        have chain : IsChainQuery
            (isAllowQuery tables call.privNsId call.privilege
              (call.principal :: call.next) serialno)
            (call.principal :: call.next).length := isChainQuery_isAllowQuery
        rcases grants with ⟨row, member, order, grant⟩
        refine ⟨row, ?_, order, grant⟩
        have sorted := chain.sorted
        cases query : isAllowQuery tables call.privNsId call.privilege
            (call.principal :: call.next) serialno with
        | nil =>
            rw [query] at member
            cases member
        | cons head rest =>
            rw [query] at member sorted
            have positive := chain.positive head (by simp [query])
            have here : row = head := by
              rcases List.mem_cons.mp member with same | later
              · exact same
              · have less := (List.pairwise_cons.mp sorted).1 row later
                omega
            cases count with
            | zero => exact (some outcome).elim
            | succ count =>
                rw [here]
                exact List.mem_cons_self

/-- Every other call lets in. -/
theorem run_ne_zero_iff
    (other : call.pId ≠ superUserId) :
    (call.run tables serialno cache).1 ≠ 0 ↔
      ¬ Denies tables serialno cache call := by
  rw [Denies]
  cases hit : call.hit cache with
  | some entry =>
      rw [run_hit tables serialno other hit, truth_ne_zero]
      exact (Bool.not_eq_false _).symm.to_iff
  | none =>
      by_cases fails : call.outcome = .executeFails
      · rw [run_executeFails tables serialno other hit fails, fails]
        have nonzero : (httpInternalServerError : Int) ≠ 0 := by decide
        exact iff_of_true nonzero (by simp)
      · rcases run_fetches tables serialno other hit fails with
          ⟨allowed, _, run, returned, _⟩
        have first : (call.principal :: call.next)[0]? = some call.principal :=
          rfl
        have query : RowGrants (isAllowQuery tables call.privNsId
              call.privilege (call.principal :: call.next) serialno) 1 ↔
            GrantsByText tables call.pId call.privNsId call.privilege
              serialno := by
          rw [rowGrants_iff, ← allows_iff_grantsByText]
          exact (allows_iff_firstGrants first).symm
        rw [run, truth_ne_zero, returned, rowGrants_fetched_one_iff fails,
          query, not_or, not_and, not_not]
        exact and_congr_right fun _ => (imp_iff_right fails).symm

/-- One call, whatever the tables and the cache hold. -/
theorem failsClosed_iff
    (tables : AclTables) (serialno : Id) (cache : Option AceCache)
    (call : Call) :
    FailsClosed tables serialno cache call ↔
      call.pId = superUserId ∨ call.Granted tables serialno ∨
        Denies tables serialno cache call := by
  by_cases superUser : call.pId = superUserId
  · exact iff_of_true (fun _ => Or.inl superUser) (Or.inl superUser)
  rw [FailsClosed, or_iff_right superUser, or_iff_right superUser,
    run_ne_zero_iff superUser, not_imp_comm, or_iff_not_imp_left]

/-- Where the paths are well formed only a query that fails lets in. -/
theorem failsClosed_iff_of_wellFormed
    (wellFormed : PathsWellFormed tables) (cache : Option AceCache)
    (call : Call) :
    FailsClosed tables serialno cache call ↔
      call.pId = superUserId ∨ call.Granted tables serialno ∨
        match call.hit cache with
        | some entry => entry.isAllow = false
        | none => call.outcome ≠ .executeFails := by
  rw [failsClosed_iff]
  apply or_congr_right
  rw [Denies]
  cases call.hit cache with
  | some entry => exact Iff.rfl
  | none =>
      constructor
      · rintro (granted | none | ⟨executes, -⟩)
        · exact Or.inl granted
        · exact Or.inr (by simp [none])
        · exact Or.inr executes
      · rintro (granted | executes)
        · exact Or.inl granted
        · by_cases grants : GrantsByText tables call.pId call.privNsId
            call.privilege serialno
          · exact Or.inl (grants_of_grantsByText wellFormed grants)
          · exact Or.inr (Or.inr ⟨executes, grants⟩)

/-- No call leaves a grant in the cache that the tables do not hold. -/
theorem cacheSound_run
    (wellFormed : PathsWellFormed tables)
    (sound : CacheSound tables serialno cache) :
    CacheSound tables serialno (call.run tables serialno cache).2 := by
  by_cases superUser : call.pId = superUserId
  · rw [run_superUser tables serialno superUser]
    exact sound
  cases hit : call.hit cache with
  | some entry =>
      rw [run_hit tables serialno superUser hit]
      exact sound
  | none =>
      by_cases fails : call.outcome = .executeFails
      · rw [run_executeFails tables serialno superUser hit fails]
        exact sound
      · rcases run_fetches tables serialno superUser hit fails with
          ⟨_, entry, run, -, place, principal, found, pId, ns, name, isAllow⟩
        rw [run]
        rintro other cached allowed
        rcases Option.some.inj cached with rfl
        have grants := rowGrants_of_fetched (isAllow.mp allowed)
        rw [rowGrants_iff, ← allows_iff_firstGrants found,
          allows_iff_grantsByText] at grants
        rw [pId, ns, name]
        exact grants_of_grantsByText wellFormed grants

end Calls

/--
One call is fail-closed iff it is the superuser's, is granted or is told no.
Where the paths are well formed, the query tells no to all that is not granted
unless it cannot be executed, and in the calls on one resource, the cache being
empty at first, every answer of the cache is right.
-/
theorem isAllow_failsClosed_iff (tables : AclTables) (serialno : Id) :
    (∀ cache call,
      FailsClosed tables serialno cache call ↔
        call.pId = superUserId ∨ call.Granted tables serialno ∨
          Denies tables serialno cache call) ∧
    (PathsWellFormed tables →
      (∀ cache call,
        FailsClosed tables serialno cache call ↔
          call.pId = superUserId ∨ call.Granted tables serialno ∨
            match call.hit cache with
            | some entry => entry.isAllow = false
            | none => call.outcome ≠ .executeFails) ∧
      ∀ calls,
        Runs.Guarded (fun cache call => (call.run tables serialno cache).2)
            (FailsClosed tables serialno) none calls ↔
          Runs.Guarded (fun cache call => (call.run tables serialno cache).2)
            (fun cache call =>
              call.pId = superUserId ∨ call.Granted tables serialno ∨
                (call.hit cache).isSome = true ∨ call.outcome ≠ .executeFails)
            none calls) := by
  refine ⟨failsClosed_iff tables serialno, fun wellFormed =>
    ⟨failsClosed_iff_of_wellFormed wellFormed, fun calls => ?_⟩⟩
  have empty : CacheSound tables serialno none := nofun
  apply Runs.guarded_congr empty
  · intro cache call sound
    exact cacheSound_run wellFormed sound
  · intro cache call sound
    rw [failsClosed_iff_of_wellFormed wellFormed]
    apply or_congr_right
    cases hit : call.hit cache with
    | none => simp
    | some entry =>
        rcases hit_eq_some hit with ⟨cached, pId, ns, name⟩
        refine iff_of_true ?_ (Or.inr (Or.inl rfl))
        by_cases isAllow : entry.isAllow = true
        · have grants := sound entry cached isAllow
          rw [pId, ns, name] at grants
          exact Or.inl grants
        · exact Or.inr (Bool.eq_false_iff.mpr isAllow)

/-- No ACE at all. -/
def noAces : AclTables where
  __ := noEntries
  aclPrivileges := [⟨1, "all".toList, 1, 1, 2⟩]
  aclPrivilegesPkey := by decide
  aclPrivilegesName := by decide
  fkPrivilegeNamespace := by decide

/-- A query that cannot be executed allows what no ACE grants. -/
theorem isAllow_not_failsClosed :
    ¬ FailsClosed noAces 2 none
      ⟨1, "all".toList, .unauthenticated, [], .executeFails⟩ := by
  intro closed
  rcases closed (by decide) with superUser | ⟨ace, first, -⟩
  · revert superUser
    decide
  · cases first.qualifies.listed

end Limestone.FailClosed
