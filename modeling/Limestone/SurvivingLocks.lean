import Limestone.DbmsLocks
import Limestone.ExcludedBinds

/-!
# The locks that survive an unbind

A lock that is not recorded against the binds survives when its root is the
resource or reaches it by a path through neither bind.  The candidates are
those of the tables before the call; paths are those of the tables that the
call leaves, from which expired locks are deleted and with them lock-null
resources.
-/

namespace Limestone.SurvivingLocks

open Library
open DbmsBind
open DbmsLocks
open ExcludedBinds
open PathSearch

/-! ## The rows of the query -/

section Rows

variable {tables : LockTables} {serialno : Id} {rootPath : Text} {now : Int}

/-- A query about one resource returns every lock once. -/
theorem lockRows_nodup
    (database : LockDatabase)
    {whereStr : Id × Id → LockRow → Bool}
    (ofResource : ∀ entry lock, whereStr entry lock = true →
      entry.2 = serialno) :
    ((lockRows database.toLockTables whereStr).map
      fun row => row.1.id).Nodup := by
  have distinct := database.locksResourcesPkey
  rw [lockRows]
  generalize database.locksResources = entries at distinct
  induction entries with
  | nil => exact List.nodup_nil
  | cons entry entries induction =>
      have fresh := (List.nodup_cons.mp distinct).1
      have later := induction (List.nodup_cons.mp distinct).2
      rw [List.flatMap_cons, List.map_append, List.nodup_append]
      refine ⟨?_, later, ?_⟩
      · -- one lock has the id, and one principal owns it
        rcases Sql.filter_key database.locksPkey entry.1 with
          none | ⟨lock, only⟩
        · rw [none]
          exact List.nodup_nil
        · rw [only, List.flatMap_cons, List.flatMap_nil, List.append_nil,
            List.map_map, ← List.filter_filter]
          rcases Sql.filter_key database.principalsKey lock.ownerId with
            none | ⟨principal, owner⟩
          · rw [List.filter_comm, none]
            exact List.nodup_nil
          · rw [List.filter_comm, owner]
            cases met : whereStr entry lock <;> simp
      · intro lockId here other elsewhere same
        simp only [List.mem_map, List.mem_flatMap, List.mem_filter,
          Bool.and_eq_true, beq_iff_eq] at here elsewhere
        rcases here with ⟨_, ⟨lock, ⟨-, sameId⟩, _, ⟨-, -, met⟩, rfl⟩, rfl⟩
        rcases elsewhere with ⟨_, ⟨entry', listed, lock', ⟨-, sameId'⟩, _,
          ⟨-, -, met'⟩, rfl⟩, rfl⟩
        have equal : entry = entry' := by
          apply Prod.ext
          · exact sameId.symm.trans (same.trans sameId')
          · exact (ofResource _ _ met).trans (ofResource _ _ met').symm
        exact fresh (equal ▸ listed)

end Rows

/-! ## Candidates -/

/-- An unexpired lock on the resource that no bind is recorded for. -/
structure Candidate (tables : LockTables) (now : Int) (serialno : Id)
    (bindList : List Id) (lock : LockRow) : Prop where
  present : lock ∈ tables.locks
  onResource : (lock.id, serialno) ∈ tables.locksResources
  unexpired : ¬ Over now lock
  unrecorded : ∀ bindId ∈ bindList, (lock.id, bindId) ∉ tables.bindsLocks

section Candidates

variable {serialno : Id} {rootPath : Text} {now : Int} {bindList : List Id}

theorem notDirectlyThrough_iff
    (database : LockDatabase) {entry : Id × Id} {lock : LockRow} :
    notDirectlyThrough database.toLockTables serialno bindList entry lock =
        true ↔
      entry.2 = serialno ∧
        ∀ bindId ∈ bindList, (lock.id, bindId) ∉ database.bindsLocks := by
  simp only [notDirectlyThrough, Bool.and_eq_true, beq_iff_eq,
    Bool.not_eq_true', List.any_eq_false, decide_eq_true_eq, not_and]
  apply and_congr_right
  intro _
  constructor
  · intro unrecorded bindId listed recorded
    rcases database.bindsLocksBindId _ recorded with ⟨bind, present, same⟩
    rw [← database.bindRows] at present
    have sameBind : bind.id = bindId := same
    have positive : 0 < bindId :=
      sameBind ▸ (database.bindTable.positive _ present).1
    exact unrecorded _ recorded rfl ((mem_excludedIds positive).mpr listed)
  · intro unrecorded row recorded same excluded
    rcases database.bindsLocksBindId _ recorded with ⟨bind, present, sameBind⟩
    rw [← database.bindRows] at present
    have positive : 0 < row.2 :=
      sameBind ▸ (database.bindTable.positive _ present).1
    have listed := (mem_excludedIds positive).mp excluded
    rw [← same] at unrecorded
    exact unrecorded row.2 listed recorded

/-- The locks of the query before the path searches. -/
theorem mem_candidates
    (database : LockDatabase) (order : Sql.RowOrder (LockRow × Text))
    {davLock : DavLock} :
    davLock ∈ (dbmsGetLocksNotDirectlyThroughBinds order now
        database.toLockTables serialno rootPath bindList).1 ↔
      ∃ lock name,
        Candidate database.toLockTables now serialno bindList lock ∧
          (lock.ownerId, name) ∈ database.principals ∧
          davLock = readLock serialno rootPath false lock name := by
  simp only [dbmsGetLocksNotDirectlyThroughBinds, dbmsGetLocksByWhereStr,
    readLocks_resolved, List.mem_filter, List.mem_map,
    Sql.RowOrder.mem_arrange, mem_lockRows, Bool.not_eq_true']
  constructor
  · rintro ⟨⟨⟨lock, name⟩, ⟨entry, listed, present, same, known, met⟩, rfl⟩,
      unexpired⟩
    rcases (notDirectlyThrough_iff database).mp met with
      ⟨onResource, unrecorded⟩
    refine ⟨lock, name, ?_, known, rfl⟩
    constructor
    · exact present
    · have equal : entry = (lock.id, serialno) :=
        Prod.ext same.symm onResource
      exact equal ▸ listed
    · have late : expired now (readLock serialno rootPath false lock name) =
          true ↔ Over now lock :=
        expired_readLock
      rw [← late, unexpired]
      exact Bool.false_ne_true
    · exact unrecorded
  · rintro ⟨lock, name, candidate, known, rfl⟩
    constructor
    · exact ⟨(lock, name), ⟨(lock.id, serialno), candidate.onResource,
        candidate.present, rfl, known,
        (notDirectlyThrough_iff database).mpr ⟨rfl, candidate.unrecorded⟩⟩,
        rfl⟩
    · exact Bool.eq_false_iff.mpr (mt expired_readLock.mp candidate.unexpired)

/-- Every candidate is returned once. -/
theorem candidates_nodup
    (database : LockDatabase) (order : Sql.RowOrder (LockRow × Text)) :
    ((dbmsGetLocksNotDirectlyThroughBinds order now database.toLockTables
      serialno rootPath bindList).1.map DavLock.lockId).Nodup := by
  have ofResource : ∀ entry lock,
      notDirectlyThrough database.toLockTables serialno bindList entry lock =
        true → entry.2 = serialno :=
    fun _ _ met => ((notDirectlyThrough_iff database).mp met).1
  have rows := lockRows_nodup database ofResource
  have arranged := ((order.perm 0 _).map fun row => row.1.id).nodup_iff.mpr rows
  simp only [dbmsGetLocksNotDirectlyThroughBinds, dbmsGetLocksByWhereStr,
    readLocks_resolved]
  apply List.Nodup.sublist (List.filter_sublist.map DavLock.lockId)
  rw [List.map_map]
  exact arranged

/-! ## What the call leaves of the tables -/

/-- The tables after expired locks were deleted, unless that has failed. -/
def cleaned (tables : LockTables) (now : Int) (serialno : Id)
    (bindList : List Id) : Option LockTables :=
  (dbmsGetLocksNotDirectlyThroughBinds (Sql.RowOrder.stored _) now tables
    serialno [] bindList).2

theorem dbmsDeleteExpLocks_congr
    (tables : LockTables) {lockIds otherIds : List Id}
    (same : ∀ lockId, lockId ∈ lockIds ↔ lockId ∈ otherIds) :
    dbmsDeleteExpLocks tables lockIds = dbmsDeleteExpLocks tables otherIds := by
  have decided : ∀ lockId,
      decide (lockId ∈ lockIds) = decide (lockId ∈ otherIds) :=
    fun lockId => decide_eq_decide.mpr (same lockId)
  simp only [dbmsDeleteExpLocks, deleteLocks, decided]
  rfl

/-- What is deleted does not depend on the order of the rows. -/
theorem tables_eq_cleaned
    (order : Sql.RowOrder (LockRow × Text)) (now : Int) (tables : LockTables)
    (serialno : Id) (rootPath : Text) (bindList : List Id) :
    (dbmsGetLocksNotDirectlyThroughBinds order now tables serialno rootPath
      bindList).2 = cleaned tables now serialno bindList := by
  have member : ∀ (order : Sql.RowOrder (LockRow × Text)) rootPath lockId,
      lockId ∈ ((readLocks serialno rootPath true false (order.arrange 0
          (lockRows tables (notDirectlyThrough tables serialno
            bindList)))).filter (expired now)).map DavLock.lockId ↔
        ∃ row ∈ lockRows tables (notDirectlyThrough tables serialno bindList),
          Over now row.1 ∧ row.1.id = lockId := by
    intro order rootPath lockId
    simp only [readLocks_resolved, List.mem_map, List.mem_filter,
      Sql.RowOrder.mem_arrange]
    constructor
    · rintro ⟨_, ⟨⟨row, listed, rfl⟩, late⟩, rfl⟩
      exact ⟨row, listed, expired_readLock.mp late, rfl⟩
    · rintro ⟨row, listed, late, rfl⟩
      exact ⟨_, ⟨⟨row, listed, rfl⟩, expired_readLock.mpr late⟩, rfl⟩
  have same := fun lockId => (member order rootPath lockId).trans
    (member (Sql.RowOrder.stored _) [] lockId).symm
  simp only [cleaned, dbmsGetLocksNotDirectlyThroughBinds,
    dbmsGetLocksByWhereStr]
  rw [dbmsDeleteExpLocks_congr tables same]
  simp only [List.eq_nil_iff_forall_not_mem, same]

theorem deleteResource_binds (tables : LockTables) (resId : Id) :
    (deleteResource tables resId).binds =
      tables.binds.filter fun bind => !touches resId bind :=
  rfl

/-- The binds that are left are binds of the table. -/
theorem binds_of_cleaned
    {tables after : LockTables}
    (left : cleaned tables now serialno bindList = some after) :
    ∃ kept, after.binds = tables.binds.filter kept := by
  have whole : ∃ kept, tables.binds = tables.binds.filter kept :=
    ⟨fun _ => true, (List.filter_true tables.binds).symm⟩
  simp only [cleaned, dbmsGetLocksNotDirectlyThroughBinds,
    dbmsGetLocksByWhereStr] at left
  split at left
  · rcases Option.some.inj left with rfl
    exact whole
  · rw [dbmsDeleteExpLocks] at left
    split at left
    · rcases Option.some.inj left with rfl
      exact whole
    · split at left
      · rcases Option.some.inj left with rfl
        exact whole
      · rcases Option.some.inj left with rfl
        exact ⟨_, deleteResource_binds _ _⟩
    · cases left

end Candidates

/-! ## The path searches -/

/-- The search for a path from the root of a lock finds one. -/
def Found (after : Option LockTables) (bindList : List Id)
    (rootId serialno : Id) : Prop :=
  ∃ tables, after = some tables ∧
    FirstRound tables.binds bindList serialno ∧
    (bindGraph tables.binds).Reaches rootId serialno

/-- The binds among which the paths of the locks are. -/
def bindsLeft (tables : LockTables) (after : Option LockTables) : List Bind :=
  (after.getD tables).binds

section Returned

variable {serialno : Id} {now : Int} {bindList : List Id}

theorem findsPath_eq
    (now : Int) (bindList : List Id) {tables : LockTables} {fuel : Nat}
    (order : Sql.RowOrder Bind) {lock : DavLock}
    (enough : tables.binds.length < fuel)
    (other : lock.resId ≠ serialno) :
    ∃ found, findsPath fuel order (cleaned tables now serialno bindList) lock
        serialno bindList = some found ∧
      (found = true ↔
        Found (cleaned tables now serialno bindList) bindList lock.resId
          serialno) := by
  cases left : cleaned tables now serialno bindList with
  | none =>
      refine ⟨false, rfl, iff_of_false Bool.false_ne_true ?_⟩
      rintro ⟨_, missing, -⟩
      cases missing
  | some after =>
      rcases binds_of_cleaned left with ⟨kept, binds⟩
      have search : ∃ result, Returns order after.binds lock.resId serialno
            bindList result ∧
          (result.isSome = true ↔ FirstRound after.binds bindList serialno ∧
            (bindGraph after.binds).Reaches lock.resId serialno) :=
        exists_returns_isSome order after.binds other
      rcases search with ⟨result, returns, found⟩
      have fewer : after.binds.length ≤ tables.binds.length := by
        rw [binds]
        exact List.length_filter_le _ _
      have returned := returns fuel (Nat.lt_of_le_of_lt fewer enough)
      refine ⟨result.isSome, ?_, ?_⟩
      · rw [findsPath, returned]
        rfl
      · rw [found]
        constructor
        · intro both
          exact ⟨after, rfl, both⟩
        · rintro ⟨_, same, both⟩
          rcases Option.some.inj same with rfl
          exact both

theorem unlinkLocks_eq
    {keeps : DavLock → Option Bool} {kept : DavLock → Bool}
    {locks : List DavLock}
    (decided : ∀ lock ∈ locks, keeps lock = some (kept lock)) :
    unlinkLocks keeps locks = some (locks.filter kept) := by
  induction locks with
  | nil => rfl
  | cons lock locks induction =>
      have rest := induction fun other member =>
        decided other (List.mem_cons_of_mem _ member)
      have first := decided lock List.mem_cons_self
      rw [List.filter_cons]
      simp only [unlinkLocks, first, rest, Option.map_some]

/-- What the call returns, in whatever order the rows come. -/
theorem exists_returned
    (database : LockDatabase) (order : Sql.RowOrder (LockRow × Text))
    (orders : Id → Sql.RowOrder Bind) (now : Int) (serialno : Id)
    (rootPath : Text) (bind1 : Id × Text) (bind2 : Option (Id × Text)) :
    ∃ locks,
      (∀ fuel, database.binds.length < fuel →
        davReposGetLocksNotThroughBinds fuel order orders now
            database.toLockTables serialno rootPath (some bind1) bind2 =
          .returned locks (cleaned database.toLockTables now serialno
            (bindIds database.binds bind1 bind2))) ∧
      (locks.map DavLock.lockId).Nodup ∧
      ∀ lockId, lockId ∈ locks.map DavLock.lockId ↔
        ∃ lock, lock.id = lockId ∧
          Candidate database.toLockTables now serialno
            (bindIds database.binds bind1 bind2) lock ∧
          (lock.resourceId = serialno ∨
            Found (cleaned database.toLockTables now serialno
                (bindIds database.binds bind1 bind2))
              (bindIds database.binds bind1 bind2) lock.resourceId
              serialno) := by
  classical
  generalize list : bindIds database.binds bind1 bind2 = bindList
  generalize left : cleaned database.toLockTables now serialno bindList = after
  let kept : DavLock → Bool := fun lock =>
    decide (lock.resId = serialno ∨ Found after bindList lock.resId serialno)
  have searched : ∀ fuel, database.binds.length < fuel → ∀ lock : DavLock,
      (if lock.resId = serialno then some true
        else findsPath fuel (orders lock.lockId) after lock serialno
          bindList) = some (kept lock) := by
    intro fuel enough lock
    by_cases own : lock.resId = serialno
    · rw [if_pos own]
      exact congrArg some (decide_eq_true (Or.inl own)).symm
    · rcases findsPath_eq now bindList (orders lock.lockId) enough own with
        ⟨found, returned, meaning⟩
      rw [left] at returned meaning
      rw [if_neg own, returned]
      apply congrArg some
      apply Bool.eq_iff_iff.mpr
      rw [meaning, decide_eq_true_eq]
      exact (or_iff_right own).symm
  have tables := tables_eq_cleaned order now database.toLockTables serialno
    rootPath bindList
  refine ⟨(dbmsGetLocksNotDirectlyThroughBinds order now
    database.toLockTables serialno rootPath bindList).1.filter kept, ?_, ?_, ?_⟩
  · intro fuel enough
    simp only [davReposGetLocksNotThroughBinds, list, tables, left,
      unlinkLocks_eq fun lock _ => searched fuel enough lock]
  · apply List.Nodup.sublist (List.filter_sublist.map DavLock.lockId)
    exact candidates_nodup database order
  · intro lockId
    simp only [List.mem_map, List.mem_filter, mem_candidates]
    constructor
    · rintro ⟨_, ⟨⟨lock, name, candidate, -, rfl⟩, keeps⟩, rfl⟩
      exact ⟨lock, rfl, candidate, of_decide_eq_true keeps⟩
    · rintro ⟨lock, rfl, candidate, keeps⟩
      rcases List.mem_map.mp (database.locksOwnerId lock candidate.present)
        with ⟨principal, known, owner⟩
      have listed : (lock.ownerId, principal.2) ∈ database.principals := by
        rw [← owner]
        exact known
      exact ⟨_, ⟨⟨lock, principal.2, candidate, listed, rfl⟩,
        decide_eq_true keeps⟩, rfl⟩

end Returned

/-! ## Exactness -/

/-- The call returns exactly the locks that survive. -/
def LocksExactly (database : LockDatabase)
    (order : Sql.RowOrder (LockRow × Text)) (orders : Id → Sql.RowOrder Bind)
    (now : Int) (serialno : Id) (rootPath : Text) (bind1 : Id × Text)
    (bind2 : Option (Id × Text)) : Prop :=
  ∃ locks after,
    (∀ fuel, database.binds.length < fuel →
      davReposGetLocksNotThroughBinds fuel order orders now
          database.toLockTables serialno rootPath (some bind1) bind2 =
        .returned locks after) ∧
    (locks.map DavLock.lockId).Nodup ∧
    ∀ lockId, lockId ∈ locks.map DavLock.lockId ↔
      ∃ lock, lock.id = lockId ∧
        Candidate database.toLockTables now serialno
          (bindIds database.binds bind1 bind2) lock ∧
        (lock.resourceId = serialno ∨
          (avoiding (bindsLeft database.toLockTables after)
            (bindIds database.binds bind1 bind2)).Reaches
              lock.resourceId serialno)

/--
The roots elsewhere of the candidates: a root that reaches the resource, into
which a bind leads from elsewhere that is neither of the two, reaches it by a
path through neither; and none does if the transaction has failed.
-/
def RootsAvoid (tables : LockTables) (now : Int) (serialno : Id)
    (bindList : List Id) : Prop :=
  ∀ lock, Candidate tables now serialno bindList lock →
    lock.resourceId ≠ serialno →
      match cleaned tables now serialno bindList with
      | none =>
          ¬ (avoiding tables.binds bindList).Reaches lock.resourceId serialno
      | some after =>
          FirstRound after.binds bindList serialno →
            (bindGraph after.binds).Reaches lock.resourceId serialno →
              (avoiding after.binds bindList).Reaches lock.resourceId serialno

section Exactly

variable {now : Int} {serialno : Id} {bindList : List Id}

/-- One candidate: what is found against what is there. -/
theorem found_iff_avoiding
    (database : LockDatabase) {lock : LockRow}
    (other : lock.resourceId ≠ serialno) :
    (Found (cleaned database.toLockTables now serialno bindList) bindList
          lock.resourceId serialno ↔
        (avoiding (bindsLeft database.toLockTables
          (cleaned database.toLockTables now serialno bindList))
            bindList).Reaches lock.resourceId serialno) ↔
      match cleaned database.toLockTables now serialno bindList with
      | none =>
          ¬ (avoiding database.binds bindList).Reaches lock.resourceId serialno
      | some after =>
          FirstRound after.binds bindList serialno →
            (bindGraph after.binds).Reaches lock.resourceId serialno →
              (avoiding after.binds bindList).Reaches lock.resourceId
                serialno := by
  cases left : cleaned database.toLockTables now serialno bindList with
  | none =>
      have missing : ¬ Found none bindList lock.resourceId serialno := by
        rintro ⟨_, none, -⟩
        cases none
      rw [iff_false_left missing]
      exact Iff.rfl
  | some after =>
      rcases binds_of_cleaned left with ⟨kept, binds⟩
      have rows : (database.bindTable.keep kept).rows = after.binds := by
        rw [binds, ← database.bindRows]
        rfl
      have first : (avoiding after.binds bindList).Reaches lock.resourceId
          serialno → FirstRound after.binds bindList serialno := by
        rw [← rows]
        exact firstRound_of_avoiding (database.bindTable.keep kept) other
      have found : Found (some after) bindList lock.resourceId serialno ↔
          FirstRound after.binds bindList serialno ∧
            (bindGraph after.binds).Reaches lock.resourceId serialno := by
        constructor
        · rintro ⟨_, same, both⟩
          rcases Option.some.inj same with rfl
          exact both
        · intro both
          exact ⟨after, rfl, both⟩
      rw [found]
      constructor
      · intro same isFirst reaches
        exact same.mp ⟨isFirst, reaches⟩
      · intro avoids
        constructor
        · rintro ⟨isFirst, reaches⟩
          exact avoids isFirst reaches
        · intro reaches
          exact ⟨first reaches, avoiding_reaches reaches⟩

theorem locksExactly_iff
    (database : LockDatabase) (order : Sql.RowOrder (LockRow × Text))
    (orders : Id → Sql.RowOrder Bind) (now : Int) (serialno : Id)
    (rootPath : Text) (bind1 : Id × Text) (bind2 : Option (Id × Text)) :
    LocksExactly database order orders now serialno rootPath bind1 bind2 ↔
      RootsAvoid database.toLockTables now serialno
        (bindIds database.binds bind1 bind2) := by
  rcases exists_returned database order orders now serialno rootPath bind1
    bind2 with ⟨locks, returned, distinct, members⟩
  constructor
  · rintro ⟨others, after, otherReturned, -, survivors⟩ lock candidate other
    have same := (returned _ (Nat.lt_succ_self _)).symm.trans
      (otherReturned _ (Nat.lt_succ_self _))
    rcases LocksResult.returned.inj same with ⟨rfl, rfl⟩
    apply (found_iff_avoiding database other).mp
    have both := (members lock.id).symm.trans (survivors lock.id)
    -- the key of `locks` makes the witnesses this lock
    have unique : ∀ row : LockRow, row.id = lock.id →
        row ∈ database.locks → row = lock := fun row sameId present =>
      List.inj_on_of_nodup_map database.locksPkey present candidate.present
        sameId
    constructor
    · intro found
      rcases both.mp ⟨lock, rfl, candidate, Or.inr found⟩ with
        ⟨row, sameId, rowCandidate, own | avoids⟩
      · rcases unique row sameId rowCandidate.present with rfl
        exact (other own).elim
      · rcases unique row sameId rowCandidate.present with rfl
        exact avoids
    · intro avoids
      rcases both.mpr ⟨lock, rfl, candidate, Or.inr avoids⟩ with
        ⟨row, sameId, rowCandidate, own | found⟩
      · rcases unique row sameId rowCandidate.present with rfl
        exact (other own).elim
      · rcases unique row sameId rowCandidate.present with rfl
        exact found
  · intro avoid
    refine ⟨locks, _, returned, distinct, fun lockId => ?_⟩
    rw [members]
    apply exists_congr
    intro lock
    apply and_congr_right
    intro _
    apply and_congr_right
    intro candidate
    by_cases own : lock.resourceId = serialno
    · exact iff_of_true (Or.inl own) (Or.inl own)
    · rw [or_iff_right own, or_iff_right own]
      exact (found_iff_avoiding database own).mpr (avoid lock candidate own)

end Exactly

/--
The path search with excluded binds and the locks that survive, each with
the exact condition under which it is about the chains that avoid the binds.
-/
theorem excludedBinds_locks_iff
    (database : LockDatabase) (fromResId toResId : Id) (exclBinds : List Id)
    (now : Int) (serialno : Id) (rootPath : Text) (bind1 : Id × Text)
    (bind2 : Option (Id × Text)) :
    ((∀ order,
        AvoidsExactly order database.binds fromResId toResId exclBinds) ↔
      fromResId = toResId ∨ ¬ FirstRound database.binds exclBinds toResId ∨
        LightestAvoid database.binds fromResId toResId exclBinds) ∧
    ((∀ bind ∈ database.binds, Segments.IsSegment '/' bind.name) →
      (LightestAvoid database.binds fromResId toResId exclBinds ↔
        ∀ chain,
          (bindGraph database.binds).Lightest
              (bindWeight exclBinds toResId) fromResId chain toResId →
            ∀ bind ∈ chain, bind.id ∉ exclBinds)) ∧
    ((∀ order orders,
        LocksExactly database order orders now serialno rootPath bind1
          bind2) ↔
      RootsAvoid database.toLockTables now serialno
        (bindIds database.binds bind1 bind2)) := by
  refine ⟨?_, ?_, ?_⟩
  · rw [← database.bindRows]
    exact forall_avoidsExactly_iff database.bindTable fromResId toResId
      exclBinds
  · rw [← database.bindRows]
    exact lightestAvoid_iff_of_segments database.bindTable fromResId toResId
      exclBinds
  · constructor
    · intro exactly
      exact (locksExactly_iff database _ _ now serialno rootPath bind1
        bind2).mp (exactly (Sql.RowOrder.stored _)
          fun _ => Sql.RowOrder.stored _)
    · intro avoid order orders
      exact (locksExactly_iff database order orders now serialno rootPath
        bind1 bind2).mpr avoid

/-- The collection `a` in the root collection and `b` in `a`. -/
def nestedBinds : BindTable where
  rows := [⟨1, "a".toList, 2, 3, none⟩, ⟨2, "b".toList, 3, 4, none⟩]
  pkey := by decide
  collectionIdKey := by decide
  positive := by decide

/-- A lock on the root collection that covers `b`. -/
def nestedLock : LockDatabase where
  resources := [(2, .collection), (3, .collection), (4, .resource)]
  principals := [(1, "root".toList)]
  binds := nestedBinds.rows
  locks := [⟨1, [], 2, 1, 'X', 1, 0, [], "/".toList⟩]
  locksResources := [(1, 2), (1, 3), (1, 4)]
  bindsLocks := []
  bindTable := nestedBinds
  bindRows := rfl
  locksPkey := by decide
  locksResourcesPkey := by decide
  bindsLocksBindId := by decide
  principalsKey := by decide
  locksOwnerId := by decide

theorem nestedLock_not_reaches
    (exclBinds : List Id) (excluded : 1 ∈ exclBinds) :
    ¬ (avoiding nestedLock.binds exclBinds).Reaches 2 4 := by
  intro reaches
  have atRoot : (4 : Id) = 2 := by
    apply reaches.mem_of_closed (S := fun resId : Id => resId = 2) rfl
    rintro bind ⟨present, avoided⟩ leaves
    rcases List.mem_cons.mp present with rfl | later
    · exact (avoided excluded).elim
    · rcases List.mem_singleton.mp later with rfl
      cases leaves
  revert atRoot
  decide

/--
The bind `a` is excluded, but the second query uses it: the path `/a/b` is
returned, and the lock survives the removal of `a`.
-/
theorem excludedBinds_not_avoided :
    ¬ AvoidsExactly (Sql.RowOrder.stored Bind) nestedLock.binds 2 4 [1] ∧
      ¬ LocksExactly nestedLock (Sql.RowOrder.stored _)
        (fun _ => Sql.RowOrder.stored _) 0 4 [] (2, "a".toList)
        (some (2, "a".toList)) := by
  constructor
  · rintro ⟨result, returns, missing, -⟩
    have returned := returns 3 (by decide)
    have path : dbmsFindShortestPathExclBinds 3 (Sql.RowOrder.stored Bind)
        nestedLock.binds 2 4 [1] = some (some "/a/b".toList) := by
      decide
    rw [path] at returned
    rcases Option.some.inj returned with rfl
    have unreached := nestedLock_not_reaches [1] (by decide)
    cases missing.mpr unreached
  · rintro ⟨locks, after, returned, -, survivors⟩
    have list : davReposGetLocksNotThroughBinds 3 (Sql.RowOrder.stored _)
        (fun _ => Sql.RowOrder.stored _) 0 nestedLock.toLockTables 4 []
        (some (2, "a".toList)) (some (2, "a".toList)) =
          .returned [⟨[], .exclusive, .direct, 2, davInfinity, 0, [],
            "root".toList, 1, "/".toList⟩] (some nestedLock.toLockTables) :=
      rfl
    rcases LocksResult.returned.inj
      (list.symm.trans (returned 3 (by decide))) with ⟨rfl, rfl⟩
    rcases (survivors 1).mp (by decide) with
      ⟨lock, -, candidate, own | reaches⟩
    · rcases List.mem_singleton.mp candidate.present with rfl
      cases own
    · rcases List.mem_singleton.mp candidate.present with rfl
      exact nestedLock_not_reaches [1, 1] (by decide) reaches

end Limestone.SurvivingLocks
