import Limestone.AclDecision
import Limestone.Library.Runs

/-!
# The cached ACE

One query answers for a chain of principals, and the loop over the chain puts
its rows back to the principals.  The cache then has the answer for the last
principal, as a call for this principal alone would have it.
-/

namespace Limestone.AceCache

open Library
open DbmsAcl AclDecision

variable {tables : AclTables} {privNsId serialno : Id} {privilege : Text}
  {principals : List DavPrincipal} {row : AceRow}

/-! ## The rows for one principal -/

/-- The rows come in the order of the chain, at most one for each principal. -/
theorem isAllowQuery_pairwise :
    (isAllowQuery tables privNsId privilege principals serialno).Pairwise
      fun first second => first.pId < second.pId := by
  have sorted := Sql.orderBy_pairwise principalFirst
    (isAllowRows tables privNsId privilege principals serialno)
  apply (Sql.distinctOn_pairwise sorted).imp
  rintro first second ⟨ordered, different⟩
  rw [principalFirst, principalFirst, Prod.Lex.toLex_le_toLex] at ordered
  rcases ordered with less | ⟨same, -⟩
  · exact less
  · exact (different same.symm).elim

/-- The row that decides for a place in the chain is a grant. -/
def FirstGrants (tables : AclTables) (privNsId : Id) (privilege : Text)
    (principals : List DavPrincipal) (serialno : Id) (order : Nat) : Prop :=
  ∃ row, Sql.IsFirst protectedFirst
      (fun other =>
        other ∈ isAllowRows tables privNsId privilege principals serialno ∧
          other.pId = order) row ∧
    row.ace.grantdeny = aclGrant

/-- Rows with the same sort key are about the same ACE. -/
theorem ace_eq_of_protectedFirst
    {other : AceRow}
    (listed : row.ace ∈ tables.aces)
    (otherListed : other.ace ∈ tables.aces)
    (same : protectedFirst row = protectedFirst other) :
    row.ace = other.ace := by
  simp only [protectedFirst, EmbeddingLike.apply_eq_iff_eq, Prod.mk.injEq]
    at same
  exact List.inj_on_of_nodup_map tables.acesPkey listed otherListed same.2.2

theorem rowGrants_iff {order : Nat} :
    RowGrants (isAllowQuery tables privNsId privilege principals serialno)
        order ↔
      FirstGrants tables privNsId privilege principals serialno order := by
  constructor
  · rintro ⟨row, member, rfl, grant⟩
    exact ⟨row, isFirst_of_mem_isAllowQuery member, grant⟩
  · rintro ⟨row, first, grant⟩
    rcases first.qualifies with ⟨listed, rfl⟩
    have decided : ∃ kept ∈ isAllowQuery tables privNsId privilege principals
        serialno, kept.pId = row.pId :=
      Sql.exists_mem_distinctOn (Sql.mem_orderBy.mpr listed)
    rcases decided with ⟨kept, member, same⟩
    have keptFirst := isFirst_of_mem_isAllowQuery member
    rw [same] at keptFirst
    have equal : kept.ace = row.ace :=
      ace_eq_of_protectedFirst
        (mem_isAllowRows.mp keptFirst.qualifies.1).1
        (mem_isAllowRows.mp listed).1 (keptFirst.key_eq first)
    refine ⟨kept, member, same, ?_⟩
    rw [equal]
    exact grant

/-- The rows for a place in the chain are those for its principal alone. -/
theorem mem_isAllowRows_iff
    {place : Nat} {principal : DavPrincipal} {ace : Ace}
    {parRes : AclInheritance}
    (found : principals[place]? = some principal) :
    ⟨1 + place, ace, parRes⟩ ∈
        isAllowRows tables privNsId privilege principals serialno ↔
      ⟨1, ace, parRes⟩ ∈
        isAllowRows tables privNsId privilege [principal] serialno := by
  rw [mem_isAllowRows, mem_isAllowRows]
  apply and_congr_right
  intro _
  apply and_congr_right
  intro _
  apply and_congr_left
  intro _
  constructor
  · rintro ⟨other, successor, otherFound, same, named⟩
    rcases Nat.add_left_cancel same with rfl
    rw [found] at otherFound
    rcases Option.some.inj otherFound with rfl
    exact ⟨0, principal, rfl, rfl, named⟩
  · rintro ⟨other, successor, otherFound, same, named⟩
    rcases (Nat.add_left_cancel same : 0 = other) with rfl
    rcases Option.some.inj otherFound with rfl
    exact ⟨place, principal, found, rfl, named⟩

theorem firstGrants_place
    {place : Nat} {principal : DavPrincipal}
    (found : principals[place]? = some principal) :
    FirstGrants tables privNsId privilege principals serialno (1 + place) ↔
      FirstGrants tables privNsId privilege [principal] serialno 1 := by
  constructor
  · rintro ⟨⟨_, ace, parRes⟩, first, grant⟩
    rcases first.qualifies with ⟨listed, rfl⟩
    refine ⟨⟨1, ace, parRes⟩, ⟨⟨(mem_isAllowRows_iff found).mp listed, rfl⟩, ?_⟩,
      grant⟩
    rintro ⟨_, otherAce, otherRes⟩ ⟨otherListed, rfl⟩
    exact first.least ⟨1 + place, otherAce, otherRes⟩
      ⟨(mem_isAllowRows_iff found).mpr otherListed, rfl⟩
  · rintro ⟨⟨_, ace, parRes⟩, first, grant⟩
    rcases first.qualifies with ⟨listed, rfl⟩
    refine ⟨⟨1 + place, ace, parRes⟩,
      ⟨⟨(mem_isAllowRows_iff found).mpr listed, rfl⟩, ?_⟩, grant⟩
    rintro ⟨_, otherAce, otherRes⟩ ⟨otherListed, rfl⟩
    exact first.least ⟨1, otherAce, otherRes⟩
      ⟨(mem_isAllowRows_iff found).mp otherListed, rfl⟩

/-! ## The loop over the chain -/

/-- Before the step for a place, no row that matters has been passed by. -/
structure LoopExact (query : List AceRow) (maxOrder order : Nat)
    (loop : AllowLoop) : Prop where
  sorted : loop.rows.Pairwise fun first second => first.pId < second.pId
  reached : order ≤ loop.nextOrder + 1
  begun : 1 < order ∨ loop.nextOrder = 0
  listed : ∀ row ∈ loop.rows, row ∈ query
  ahead : ∀ row ∈ loop.rows, loop.nextOrder < row.pId
  /-- Rows for later places are remembered or yet to be fetched. -/
  complete : ∀ row ∈ query, order ≤ row.pId →
    row ∈ loop.rows ∨ loop.nextOrder = row.pId
  /-- What is remembered is the answer of a row. -/
  known : 0 < loop.nextOrder → loop.nextOrder ≤ maxOrder →
    ∃ row ∈ query, row.pId = loop.nextOrder ∧
      loop.nextIsAllow = (row.ace.grantdeny == aclGrant)
  retVal : loop.retVal = true ↔ 1 < order ∧ RowGrants query 1

section Loop

variable {query : List AceRow} {maxOrder order : Nat} {loop : AllowLoop}

/-- A query that can be put back to its chain. -/
structure IsChainQuery (query : List AceRow) (maxOrder : Nat) : Prop where
  sorted : query.Pairwise fun first second => first.pId < second.pId
  positive : ∀ row ∈ query, 0 < row.pId
  bounded : ∀ row ∈ query, row.pId ≤ maxOrder

theorem IsChainQuery.eq_of_pId
    {other : AceRow}
    (chain : IsChainQuery query maxOrder)
    (member : row ∈ query)
    (otherMember : other ∈ query)
    (same : row.pId = other.pId) :
    row = other := by
  have distinct : (query.map AceRow.pId).Nodup :=
    List.pairwise_map.mpr (chain.sorted.imp fun less => less.ne)
  exact List.inj_on_of_nodup_map distinct member otherMember same

theorem IsChainQuery.rowGrants_iff
    (chain : IsChainQuery query maxOrder)
    (member : row ∈ query) :
    RowGrants query row.pId ↔ row.ace.grantdeny = aclGrant := by
  constructor
  · rintro ⟨other, otherMember, same, grant⟩
    rcases chain.eq_of_pId otherMember member same with rfl
    exact grant
  · intro grant
    exact ⟨row, member, rfl, grant⟩

/-- After the call of `dbms_next` the answer for the place is known. -/
theorem LoopExact.answer
    (exact : LoopExact query maxOrder (order + 1) loop)
    (here : order ≤ loop.nextOrder)
    (chain : IsChainQuery query maxOrder)
    (within : 0 < order ∧ order ≤ maxOrder)
    (found : ∀ row ∈ query, row.pId = order → loop.nextOrder = order) :
    (decide (loop.nextOrder = order) && loop.nextIsAllow) = true ↔
      RowGrants query order := by
  rw [Bool.and_eq_true, decide_eq_true_eq]
  constructor
  · rintro ⟨rfl, isAllow⟩
    rcases exact.known within.1 within.2 with ⟨row, member, same, answer⟩
    rw [answer, beq_iff_eq] at isAllow
    exact ⟨row, member, same, isAllow⟩
  · rintro ⟨row, member, rfl, grant⟩
    have next := found row member rfl
    rcases exact.known (next ▸ within.1) (next ▸ within.2) with
      ⟨other, otherMember, same, answer⟩
    rcases chain.eq_of_pId otherMember member (same.trans next) with rfl
    exact ⟨next, by rw [answer, grant, beq_self_eq_true]⟩

/-- No row of the first principal is left once its place is passed. -/
theorem LoopExact.retVal_passed
    (exact : LoopExact query maxOrder order loop)
    (positive : 0 < order)
    (none : order = 1 → ¬ RowGrants query 1) :
    loop.retVal = true ↔ 1 < order + 1 ∧ RowGrants query 1 := by
  rw [exact.retVal]
  constructor
  · rintro ⟨-, grants⟩
    exact ⟨by omega, grants⟩
  · rintro ⟨-, grants⟩
    refine ⟨?_, grants⟩
    by_contra first
    exact none (by omega) grants

/-- One call of `dbms_next`, if it is needed. -/
theorem LoopExact.advance
    (exact : LoopExact query maxOrder order loop)
    (chain : IsChainQuery query maxOrder)
    (within : 0 < order ∧ order ≤ maxOrder) :
    LoopExact query maxOrder (order + 1) (loop.advance maxOrder order) ∧
      order ≤ (loop.advance maxOrder order).nextOrder ∧
      ∀ row ∈ query, row.pId = order →
        (loop.advance maxOrder order).nextOrder = order := by
  have later : 1 < order + 1 := by omega
  rw [AllowLoop.advance]
  by_cases behind : loop.nextOrder < order
  · rw [if_pos behind]
    split
    next row rows remaining =>
        have isQueryRow := exact.listed row (by simp [remaining])
        have isAhead := exact.ahead row (by simp [remaining])
        have reached := exact.reached
        have sorted := exact.sorted
        rw [remaining, List.pairwise_cons] at sorted
        have complete : ∀ other ∈ query, order ≤ other.pId →
            other = row ∨ other ∈ rows := by
          intro other member notPassed
          rcases exact.complete other member notPassed with listed | same
          · rw [remaining] at listed
            exact List.mem_cons.mp listed
          · omega
        refine ⟨⟨sorted.2, ?_, Or.inl later, ?_, sorted.1, ?_, ?_, ?_⟩, ?_, ?_⟩
        · show order + 1 ≤ row.pId + 1
          omega
        · intro other member
          exact exact.listed other (by simp [remaining, member])
        · intro other member notPassed
          rcases complete other member (by omega) with rfl | listed
          · exact Or.inr rfl
          · exact Or.inl listed
        · intro _ _
          exact ⟨row, isQueryRow, rfl, rfl⟩
        · show (if row.pId = 1 then row.ace.grantdeny == aclGrant
            else loop.retVal) = true ↔ _
          by_cases one : row.pId = 1
          · have grants := chain.rowGrants_iff isQueryRow
            rw [one] at grants
            rw [if_pos one, beq_iff_eq, grants, and_iff_right later]
          · rw [if_neg one]
            apply exact.retVal_passed within.1
            rintro rfl ⟨other, member, isFirst, -⟩
            rcases complete other member (by omega) with rfl | listed
            · exact one isFirst
            · have less := sorted.1 other listed
              have positive := chain.positive row isQueryRow
              omega
        · show order ≤ row.pId
          omega
        · rintro other member rfl
          rcases complete other member le_rfl with rfl | listed
          · rfl
          · have less := sorted.1 other listed
            omega
    next remaining =>
        have complete : ∀ other ∈ query, ¬ order ≤ other.pId := by
          intro other member notPassed
          rcases exact.complete other member notPassed with listed | same
          · rw [remaining] at listed
            cases listed
          · omega
        refine ⟨⟨exact.sorted, ?_, Or.inl later, exact.listed, ?_, ?_, ?_, ?_⟩,
          ?_, ?_⟩
        · show order + 1 ≤ maxOrder + 1 + 1
          omega
        · intro other member
          rw [remaining] at member
          cases member
        · intro other member notPassed
          exact (complete other member (by omega)).elim
        · intro _ bounded
          have beyond : maxOrder + 1 ≤ maxOrder := bounded
          omega
        · apply exact.retVal_passed within.1
          rintro rfl ⟨other, member, isFirst, -⟩
          exact complete other member isFirst.ge
        · show order ≤ maxOrder + 1
          omega
        · rintro other member rfl
          exact (complete other member le_rfl).elim
  · rw [if_neg behind]
    have next : ∀ row ∈ query, row.pId = order → loop.nextOrder = order := by
      rintro row member rfl
      rcases exact.complete row member le_rfl with listed | same
      · have isAhead := exact.ahead row listed
        omega
      · exact same
    refine ⟨⟨exact.sorted, by omega, Or.inl later, exact.listed, exact.ahead,
      ?_, exact.known, ?_⟩, by omega, next⟩
    · intro row member notPassed
      exact exact.complete row member (by omega)
    · apply exact.retVal_passed within.1
      rintro rfl _
      rcases exact.begun with less | zero
      · omega
      · omega

/-- What the loop returns and leaves in the cache. -/
theorem allowLoop_exact
    (chain : IsChainQuery query maxOrder)
    (principal : DavPrincipal)
    (rest : List DavPrincipal)
    (cache : Option AceCache)
    (exact : LoopExact query maxOrder order loop)
    (positive : 0 < order)
    (within : order + rest.length = maxOrder) :
    ((allowLoop maxOrder privNsId privilege order (principal :: rest) loop
        cache).1 = true ↔ RowGrants query 1) ∧
      ∃ entry, (allowLoop maxOrder privNsId privilege order
          (principal :: rest) loop cache).2 = some entry ∧
        entry.principalId =
          davReposGetPrincipalId ((principal :: rest).getLast (by simp)) ∧
        entry.privNsId = privNsId ∧ entry.privilege = privilege ∧
        (entry.isAllow = true ↔ RowGrants query maxOrder) := by
  have bounds : 0 < order ∧ order ≤ maxOrder := ⟨positive, by omega⟩
  rcases exact.advance chain bounds with ⟨advanced, here, found⟩
  have answer := advanced.answer here chain bounds found
  induction rest generalizing order loop principal cache with
  | nil =>
      rcases (show order = maxOrder from within) with rfl
      refine ⟨?_, _, rfl, rfl, rfl, rfl, answer⟩
      show (loop.advance order order).retVal = true ↔ _
      rw [advanced.retVal, and_iff_right (by omega)]
  | cons next rest induction =>
      rw [List.length_cons] at within
      have nextBounds : 0 < order + 1 ∧ order + 1 ≤ maxOrder :=
        ⟨by omega, by omega⟩
      rcases advanced.advance chain nextBounds with
        ⟨nextAdvanced, nextHere, nextFound⟩
      rw [allowLoop, List.getLast_cons (List.cons_ne_nil next rest)]
      exact induction next _ advanced nextBounds.1 (by omega) nextBounds
        nextAdvanced nextHere nextFound
        (nextAdvanced.answer nextHere chain nextBounds nextFound)

end Loop

/-! ## Calls -/

section Calls

variable {cache : Option AceCache} {call : Call}

theorem isChainQuery_isAllowQuery :
    IsChainQuery
      (isAllowQuery tables privNsId privilege principals serialno)
      principals.length := by
  constructor
  · exact isAllowQuery_pairwise
  · intro row member
    rcases (mem_isAllowRows.mp (isFirst_of_mem_isAllowQuery
      member).qualifies.1).2.2.1 with ⟨place, principal, -, order, -⟩
    omega
  · intro row member
    rcases (mem_isAllowRows.mp (isFirst_of_mem_isAllowQuery
      member).qualifies.1).2.2.1 with ⟨place, principal, found, order, -⟩
    have bound := (List.getElem?_eq_some_iff.mp found).1
    omega

/-- The call when the database answers its query. -/
def answered (call : Call) : Call :=
  { call with outcome := .succeeds }

/-- What the ACEs say of one principal. -/
def Allows (tables : AclTables) (privNsId : Id) (privilege : Text)
    (pId serialno : Id) : Prop :=
  FirstGrants tables privNsId privilege [.href pId] serialno 1

/-- An entry of the cache is what the ACEs say. -/
def Valid (tables : AclTables) (serialno : Id) (cache : Option AceCache) :
    Prop :=
  ∀ entry, cache = some entry →
    (entry.isAllow = true ↔ Allows tables entry.privNsId entry.privilege
      entry.principalId serialno)

theorem allows_iff_firstGrants
    {place : Nat} {principal : DavPrincipal}
    (found : principals[place]? = some principal) :
    Allows tables privNsId privilege (davReposGetPrincipalId principal)
        serialno ↔
      FirstGrants tables privNsId privilege principals serialno (1 + place) := by
  rw [firstGrants_place found]
  exact Iff.rfl

/-- The rows that a call fetches. -/
def fetched (tables : AclTables) (serialno : Id) (call : Call) : List AceRow :=
  call.outcome.fetched (isAllowQuery tables call.privNsId call.privilege
    (call.principal :: call.next) serialno)

/-- What is fetched can be put back to the chain, too. -/
theorem isChainQuery_fetched
    (tables : AclTables) (serialno : Id) (call : Call) :
    IsChainQuery (fetched tables serialno call)
      (call.principal :: call.next).length := by
  have chain : IsChainQuery
      (isAllowQuery tables call.privNsId call.privilege
        (call.principal :: call.next) serialno)
      (call.principal :: call.next).length := isChainQuery_isAllowQuery
  rw [fetched]
  cases call.outcome with
  | executeFails => exact ⟨List.Pairwise.nil, nofun, nofun⟩
  | fetchFails count =>
      exact ⟨chain.sorted.sublist (List.take_sublist count _),
        fun row member => chain.positive row (List.mem_of_mem_take member),
        fun row member => chain.bounded row (List.mem_of_mem_take member)⟩
  | succeeds => exact chain

/-- A call that asks the database returns and caches what it fetches. -/
theorem run_fetches
    (tables : AclTables) (serialno : Id)
    (other : call.pId ≠ superUserId)
    (missed : call.hit cache = none)
    (executes : call.outcome ≠ .executeFails) :
    ∃ allowed entry,
      call.run tables serialno cache = (truth allowed, some entry) ∧
        (allowed = true ↔ RowGrants (fetched tables serialno call) 1) ∧
        ∃ place principal,
          (call.principal :: call.next)[place]? = some principal ∧
          entry.principalId = davReposGetPrincipalId principal ∧
          entry.privNsId = call.privNsId ∧ entry.privilege = call.privilege ∧
          (entry.isAllow = true ↔
            RowGrants (fetched tables serialno call) (1 + place)) := by
  have executed := run_executed tables serialno other missed executes
  have chain := isChainQuery_fetched tables serialno call
  have start : LoopExact (fetched tables serialno call)
      (call.principal :: call.next).length 1
      { rows := fetched tables serialno call
        nextOrder := 0
        nextIsAllow := false
        retVal := false } :=
    { sorted := chain.sorted
      reached := le_rfl
      begun := Or.inr rfl
      listed := fun _ => id
      ahead := chain.positive
      complete := fun _ member _ => Or.inl member
      known := nofun
      retVal := by simp }
  rcases allowLoop_exact chain call.principal call.next cache start (by decide)
    (Nat.add_comm _ _) with ⟨returned, entry, cached, pId, ns, name, isAllow⟩
  have last : (call.principal :: call.next)[call.next.length]? =
      some ((call.principal :: call.next).getLast (by simp)) := by
    rw [List.getLast_eq_getElem]
    simp
  refine ⟨_, entry, ?_, returned, _, _, last, pId, ns, name, ?_⟩
  · rw [executed, ← cached]
    rfl
  · rw [isAllow, List.length_cons, Nat.add_comm]

/-- A call that is answered returns and caches what the ACEs say. -/
theorem run_missed
    (tables : AclTables) (serialno : Id)
    (other : call.pId ≠ superUserId)
    (missed : call.hit cache = none) :
    ∃ allowed entry,
      (answered call).run tables serialno cache =
          (truth allowed, some entry) ∧
        (allowed = true ↔ Allows tables call.privNsId call.privilege call.pId
          serialno) ∧
        (entry.isAllow = true ↔ Allows tables entry.privNsId entry.privilege
          entry.principalId serialno) := by
  have otherCall : (answered call).pId ≠ superUserId := other
  have first : (call.principal :: call.next)[0]? = some call.principal := rfl
  rcases run_fetches tables serialno otherCall missed nofun with
    ⟨allowed, entry, run, returned, place, principal, found, pId, ns, name,
      isAllow⟩
  refine ⟨allowed, entry, run, returned.trans ?_, isAllow.trans ?_⟩
  · exact rowGrants_iff.trans (allows_iff_firstGrants first).symm
  · rw [ns, name, pId, allows_iff_firstGrants found]
    exact rowGrants_iff

/-- A valid cache answers with what the ACEs say. -/
theorem run_hit_allows
    {entry : AceCache}
    (valid : Valid tables serialno cache)
    (hit : call.hit cache = some entry) :
    entry.isAllow = true ↔ Allows tables call.privNsId call.privilege call.pId
      serialno := by
  rcases hit_eq_some hit with ⟨cached, pId, ns, name⟩
  rw [valid entry cached, pId, ns, name]

theorem valid_run
    (valid : Valid tables serialno cache) :
    Valid tables serialno ((answered call).run tables serialno cache).2 := by
  by_cases superUser : call.pId = superUserId
  · have sameUser : (answered call).pId = superUserId := superUser
    rw [run_superUser tables serialno sameUser]
    exact valid
  · have otherCall : (answered call).pId ≠ superUserId := superUser
    cases hit : call.hit cache with
    | some entry =>
        rw [run_hit tables serialno otherCall hit]
        exact valid
    | none =>
        rcases run_missed tables serialno superUser hit with
          ⟨_, entry, run, -, isAllow⟩
        rw [run]
        rintro other found
        rcases Option.some.inj found with rfl
        exact isAllow

/-- The value returned does not depend on what a valid cache holds. -/
theorem run_transparent
    (valid : Valid tables serialno cache) :
    ((answered call).run tables serialno cache).1 =
      ((answered call).run tables serialno none).1 := by
  by_cases superUser : call.pId = superUserId
  · have sameUser : (answered call).pId = superUserId := superUser
    rw [run_superUser tables serialno sameUser,
      run_superUser tables serialno sameUser]
  · have otherCall : (answered call).pId ≠ superUserId := superUser
    have noCache : call.hit none = none := rfl
    rcases run_missed tables serialno superUser noCache with
      ⟨allowed, _, uncached, allows, -⟩
    rw [uncached]
    cases hit : call.hit cache with
    | some entry =>
        rw [run_hit tables serialno otherCall hit]
        have same : entry.isAllow = allowed := by
          rw [Bool.eq_iff_iff, allows]
          exact run_hit_allows valid hit
        rw [same]
    | none =>
        rcases run_missed tables serialno superUser hit with
          ⟨other, _, run, otherAllows, -⟩
        rw [run]
        have same : other = allowed := by
          rw [Bool.eq_iff_iff, allows]
          exact otherAllows
        rw [same]

end Calls

/--
In every sequence of calls on one resource, the cache being empty at first and
the database answering the queries, each call returns what it would return
without the cache.
-/
theorem cache_transparent (tables : AclTables) (serialno : Id)
    (calls : List Call) :
    Runs.Guarded
      (fun cache call => ((answered call).run tables serialno cache).2)
      (fun cache call => ((answered call).run tables serialno cache).1 =
        ((answered call).run tables serialno none).1)
      none calls := by
  have runs : ∀ (cache : Option AceCache), Valid tables serialno cache →
      Runs.Guarded
        (fun cache call => ((answered call).run tables serialno cache).2)
        (fun cache call => ((answered call).run tables serialno cache).1 =
          ((answered call).run tables serialno none).1)
        cache calls := by
    induction calls with
    | nil => exact fun _ _ => trivial
    | cons call calls induction =>
        intro cache valid
        exact ⟨run_transparent valid, induction _ (valid_run valid)⟩
  exact runs none nofun

end Limestone.AceCache
