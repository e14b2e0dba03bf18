import Limestone.DbmsNext
import Limestone.Library.NumberList
import Limestone.LockNull
import Limestone.LockRows

/-!
# Expired locks: `dbms_delete_exp_locks`

The lock-null resources among the roots of the locks are read before the locks
are deleted.  Their ids are put into a text, to which each further id is
assigned with a comma before it, so that the text is a list of ids only if
there is at most one.
-/

namespace Limestone.ExpiredLocks

open Library
open Library.NumberList
open DbmsBind
open DbmsDbd
open DbmsLocks
open DbmsNext
open LockRows (joinIds)

/-! ## The function -/

/-- `dav_repos_resource_types[dav_repos_LOCKNULL]`. -/
def lockNullType : Text := "LockNull".toList

/-- The query for the lock-null resources. -/
def selectLocknulls (expLockIds : Text) : DavReposQuery :=
  (dbmsSetString
    (dbmsPrepare ("SELECT id FROM resources WHERE id IN ".toList ++
      "(SELECT resource_id FROM locks WHERE locks.id IN (".toList ++
      expLockIds ++ ")) ".toList ++ " AND type = ? ".toList))
    1 (some lockNullType)).2

/-- The lock-null resources that are roots of the locks. -/
def locknullRoots (tables : LockTables) (lockIds : List Id) : List Id :=
  (tables.resources.filter fun row =>
    row.2 == .lockNull && tables.locks.any fun lock =>
      decide (lock.id ∈ lockIds) && lock.resourceId == row.1).map Prod.fst

/-- The answer to the query. -/
def answerLocknulls (order : Sql.RowOrder Id) (tables : LockTables)
    (expLockIds : Text) : Answer Id :=
  match readNumbers expLockIds with
  | none => .refused
  | some lockIds =>
      .results (order.arrange 0 (locknullRoots tables lockIds)) .last

/-- The assignment to `exp_locknull_ids`; no row is read as zero. -/
def addLocknull (expLocknullIds : Option Text) (row : Option Id) :
    Option (Option Text) :=
  let locknullResId := (toString (row.getD 0)).toList
  some (some (expLocknullIds.elim locknullResId fun _ => ',' :: locknullResId))

/-- The query for lock-null resources and the loop of `dbms_delete_exp_locks`. -/
def locknullLoop (expLockIds : Text) : RowLoop Id (Option Text) where
  query := selectLocknulls expLockIds
  start := none
  body := addLocknull
  onError := true

/-- `DELETE FROM resources WHERE id IN (..)` and no lock has this root. -/
def deleteUnlocked (tables : LockTables) (resIds : List Id) : LockTables :=
  (resIds.filter fun resId =>
    !tables.locks.any fun lock => lock.resourceId == resId).foldl
      deleteResource tables

def retrieveError : DavError :=
  ⟨httpInternalServerError, "DBMS Error retrieving locks"⟩

/-- The statements behind the loop; one that fails takes the others along. -/
def deleteStatements (tables : LockTables) (expLockIds : Text)
    (expLocknullIds : Option Text) : Except DavError LockTables :=
  match readNumbers expLockIds with
  | none => .error retrieveError
  | some lockIds =>
      let tables := deleteLocks tables lockIds
      match expLocknullIds with
      | none => .ok tables
      | some text =>
          match readNumbers text with
          | none => .error retrieveError
          | some resIds => .ok (deleteUnlocked tables resIds)

/-- `dbms_delete_exp_locks`; `none` while the loop is running. -/
def dbmsDeleteExpLocks (fuel : Nat) (order : Sql.RowOrder Id)
    (tables : LockTables) (expLockIds : Text) :
    Option (Except DavError LockTables) :=
  let loop := locknullLoop expLockIds
  let answer := answerLocknulls order tables expLockIds
  (loop.run fuel answer).map fun left =>
    match left with
    | .crashed => .error retrieveError
    | .finished expLocknullIds =>
        if (DbmsNext.dbmsExecute loop.query answer).1 then .error retrieveError
        else deleteStatements tables expLockIds expLocknullIds

/-! ## The lists of ids -/

section Texts

variable {lockIds : List Id} {expLockIds : Text}

theorem joinIds_cons (id next : Id) (ids : List Id) :
    joinIds (id :: next :: ids) =
      (joinIds (next :: ids)).map fun text =>
        (toString id).toList ++ ',' :: text := by
  rw [joinIds, joinIds, Option.map_some, List.flatMap_cons]
  rfl

/-- A list of ids is read as it was written. -/
theorem readNumbers_joinIds
    (written : joinIds lockIds = some expLockIds) :
    readNumbers expLockIds = some lockIds := by
  induction lockIds generalizing expLockIds with
  | nil => cases written
  | cons id ids induction =>
      cases ids with
      | nil =>
          rw [joinIds, List.flatMap_nil, List.append_nil] at written
          rw [← Option.some.inj written]
          exact readNumbers_toString id
      | cons next ids =>
          rw [joinIds_cons] at written
          rcases Option.map_eq_some_iff.mp written with ⟨text, rest, rfl⟩
          rw [readNumbers_cons, induction rest, Option.map_some]

theorem mark_notMem_joinIds
    (written : joinIds lockIds = some expLockIds) :
    '?' ∉ expLockIds := by
  have noMark : ∀ id : Id, '?' ∉ (toString id).toList := by
    intro id member
    rcases SqlText.mem_toString member with digit | minus
    · cases digit
    · cases minus
  induction lockIds generalizing expLockIds with
  | nil => cases written
  | cons id ids induction =>
      cases ids with
      | nil =>
          rw [joinIds, List.flatMap_nil, List.append_nil] at written
          rw [← Option.some.inj written]
          exact noMark id
      | cons next ids =>
          rw [joinIds_cons] at written
          rcases Option.map_eq_some_iff.mp written with ⟨text, rest, rfl⟩
          rw [List.mem_append, List.mem_cons, not_or, not_or]
          exact ⟨noMark id, by decide, induction rest⟩

/-- The query for the lock-null resources is sent iff the ids are plain. -/
theorem escquery_locknullLoop (expLockIds : Text) :
    (escquery (locknullLoop expLockIds).query).isSome =
      decide ('?' ∉ expLockIds) := by
  have count : ("SELECT id FROM resources WHERE id IN ".toList ++
      "(SELECT resource_id FROM locks WHERE locks.id IN (".toList ++
      expLockIds ++ ")) ".toList ++ " AND type = ? ".toList).count '?' =
        expLockIds.count '?' + 1 := by
    have front : ("SELECT id FROM resources WHERE id IN ".toList ++
        "(SELECT resource_id FROM locks WHERE locks.id IN (".toList).count
          '?' = 0 := by
      decide
    have back : (")) ".toList ++ " AND type = ? ".toList).count '?' = 1 := by
      decide
    rw [List.append_assoc, List.count_append, back, List.count_append, front,
      Nat.zero_add]
  exact (escquery_setParameter _ _ count).trans
    (decide_eq_decide.mpr List.count_eq_zero)

end Texts

/-! ## The loop -/

/-- What the loop keeps of its rows: an id, or one behind a comma. -/
def locknullText : List Id → Option Text
  | [] => none
  | [resId] => some (toString resId).toList
  | _ :: next :: rest =>
      some (',' :: (toString ((next :: rest).getLast
        (List.cons_ne_nil next rest))).toList)

theorem foldl_addLocknull (resIds : List Id) :
    resIds.foldl
        (fun ids resId => some (ids.elim (toString resId).toList
          fun _ => ',' :: (toString resId).toList))
        none =
      locknullText resIds := by
  induction resIds using List.reverseRecOn with
  | nil => rfl
  | append_singleton resIds last induction =>
      rw [List.foldl_append, induction]
      rcases resIds with _ | ⟨first, _ | ⟨next, rest⟩⟩
      · rfl
      · rfl
      · show some (',' :: (toString last).toList) =
          some (',' :: (toString (((next :: rest) ++ [last]).getLast
            (List.cons_ne_nil _ _))).toList)
        rw [List.getLast_concat]

/-- What the call comes to. -/
theorem dbmsDeleteExpLocks_eq
    {lockIds : List Id} {expLockIds : Text}
    (written : joinIds lockIds = some expLockIds)
    (order : Sql.RowOrder Id) (tables : LockTables) {fuel : Nat}
    (enough : (locknullRoots tables lockIds).length < fuel) :
    dbmsDeleteExpLocks fuel order tables expLockIds =
      some (deleteStatements tables expLockIds
        (locknullText (order.arrange 0 (locknullRoots tables lockIds)))) := by
  have plain := escquery_locknullLoop expLockIds
  rw [decide_eq_true (mark_notMem_joinIds written)] at plain
  rcases Option.isSome_iff_exists.mp plain with ⟨text, sent⟩
  have length : (order.arrange 0 (locknullRoots tables lockIds)).length =
      (locknullRoots tables lockIds).length :=
    (order.perm 0 _).length_eq
  have answer : answerLocknulls order tables expLockIds =
      .results (order.arrange 0 (locknullRoots tables lockIds)) .last := by
    unfold answerLocknulls
    rw [readNumbers_joinIds written]
  have runs := @RowLoop.run_results Id (Option Text)
    (locknullLoop expLockIds)
    (fun ids resId => some (ids.elim (toString resId).toList
      fun _ => ',' :: (toString resId).toList))
    text (fun _ _ => rfl) sent
    (order.arrange 0 (locknullRoots tables lockIds))
  rw [length] at runs
  unfold dbmsDeleteExpLocks
  dsimp only
  rw [answer, RowLoop.run_mono runs enough, Option.map_some]
  dsimp only
  rw [dbmsExecute_results sent, if_neg Bool.false_ne_true]
  exact congrArg (fun ids => some (deleteStatements tables expLockIds ids))
    (foldl_addLocknull _)

/-! ## What is deleted -/

section Deleting

variable {tables left : LockTables} {lockIds : List Id} {expLockIds : Text}

/-- A lock-null resource goes unless a lock has it as its root. -/
theorem deleteUnlocked_singleton (resId : Id) :
    deleteUnlocked tables [resId] =
      if tables.locks.any fun lock => lock.resourceId == resId then tables
      else deleteResource tables resId := by
  rw [deleteUnlocked]
  cases locked : tables.locks.any fun lock => lock.resourceId == resId with
  | true => simp [locked]
  | false => simp [locked]

/-- The resource is a root of the locks and of no other lock. -/
structure LosesLastLock (tables : LockTables) (lockIds : List Id)
    (row : Id × ResourceType) : Prop where
  lockNull : row.2 = .lockNull
  root : ∃ lock ∈ tables.locks, lock.id ∈ lockIds ∧ lock.resourceId = row.1
  last : ∀ lock ∈ tables.locks, lock.resourceId = row.1 → lock.id ∈ lockIds

/-- The locks go, and the lock-null resources that lose their last lock. -/
structure DeletesExactly (tables : LockTables) (lockIds : List Id)
    (left : LockTables) : Prop where
  locks : ∀ lock, lock ∈ left.locks ↔ lock ∈ tables.locks ∧ lock.id ∉ lockIds
  resources : ∀ row, row ∈ left.resources ↔
    row ∈ tables.resources ∧ ¬ LosesLastLock tables lockIds row

theorem mem_locknullRoots {resId : Id} :
    resId ∈ locknullRoots tables lockIds ↔
      (resId, ResourceType.lockNull) ∈ tables.resources ∧
        ∃ lock ∈ tables.locks, lock.id ∈ lockIds ∧
          lock.resourceId = resId := by
  rw [locknullRoots, List.mem_map]
  constructor
  · rintro ⟨⟨id, type⟩, member, rfl⟩
    rcases List.mem_filter.mp member with ⟨listed, met⟩
    rw [Bool.and_eq_true, beq_iff_eq, List.any_eq_true] at met
    rcases met with ⟨rfl, lock, here, both⟩
    rw [Bool.and_eq_true, decide_eq_true_eq, beq_iff_eq] at both
    exact ⟨listed, lock, here, both.1, both.2⟩
  · rintro ⟨listed, lock, here, expired, root⟩
    refine ⟨_, List.mem_filter.mpr ⟨listed, ?_⟩, rfl⟩
    rw [Bool.and_eq_true, beq_iff_eq, List.any_eq_true]
    exact ⟨rfl, lock, here, by simp [expired, root]⟩

@[simp]
theorem deleteLocks_nil : deleteLocks tables [] = tables := by
  simp [deleteLocks]

/-- A resource without a lock, and no principal, takes no lock along. -/
theorem touchedLocks_eq_nil
    {resId : Id}
    (unlocked : ∀ lock ∈ tables.locks, lock.resourceId ≠ resId)
    (owners : ∀ lock ∈ tables.locks, lock.ownerId ≠ resId) :
    (tables.locks.filter fun lock =>
      lock.resourceId == resId || lock.ownerId == resId) = [] := by
  rw [List.filter_eq_nil_iff]
  intro lock member touched
  rw [Bool.or_eq_true, beq_iff_eq, beq_iff_eq] at touched
  exact touched.elim (unlocked lock member) (owners lock member)

theorem locks_deleteResource
    {resId : Id}
    (unlocked : ∀ lock ∈ tables.locks, lock.resourceId ≠ resId)
    (owners : ∀ lock ∈ tables.locks, lock.ownerId ≠ resId) :
    (deleteResource tables resId).locks = tables.locks := by
  unfold deleteResource
  dsimp only
  rw [touchedLocks_eq_nil unlocked owners, List.map_nil, deleteLocks_nil]

theorem locksResources_deleteResource
    {resId : Id}
    (unlocked : ∀ lock ∈ tables.locks, lock.resourceId ≠ resId)
    (owners : ∀ lock ∈ tables.locks, lock.ownerId ≠ resId) :
    (deleteResource tables resId).locksResources =
      tables.locksResources.filter fun entry => entry.2 != resId := by
  unfold deleteResource
  dsimp only
  rw [touchedLocks_eq_nil unlocked owners, List.map_nil, deleteLocks_nil]

/-- What loses its last lock is one of the resources that are read. -/
theorem LosesLastLock.mem_roots
    {row : Id × ResourceType}
    (loses : LosesLastLock tables lockIds row)
    (listed : row ∈ tables.resources) :
    row.1 ∈ locknullRoots tables lockIds := by
  rw [mem_locknullRoots, ← loses.lockNull]
  exact ⟨listed, loses.root⟩

/-- Nothing but the locks goes when no lock-null resource loses its last. -/
theorem deletesExactly_deleteLocks
    (kept : ∀ resId ∈ locknullRoots tables lockIds,
      ∃ lock ∈ (deleteLocks tables lockIds).locks, lock.resourceId = resId) :
    DeletesExactly tables lockIds (deleteLocks tables lockIds) := by
  constructor
  · intro lock
    exact LockNull.mem_deleteLocks
  · intro row
    constructor
    · intro listed
      refine ⟨listed, fun loses => ?_⟩
      rcases kept row.1 (loses.mem_roots listed) with ⟨lock, left, root⟩
      rcases LockNull.mem_deleteLocks.mp left with ⟨member, unexpired⟩
      exact unexpired (loses.last lock member root)
    · exact And.left

/-- A lock-null resource that is left without a lock goes with them. -/
theorem deletesExactly_deleteResource
    {resId : Id}
    (resourcesPkey : (tables.resources.map Prod.fst).Nodup)
    (owners : ∀ lock ∈ tables.locks,
      (lock.ownerId, ResourceType.lockNull) ∉ tables.resources)
    (only : ∀ other, other ∈ locknullRoots tables lockIds ↔ other = resId)
    (unlocked : ∀ lock ∈ (deleteLocks tables lockIds).locks,
      lock.resourceId ≠ resId) :
    DeletesExactly tables lockIds
      (deleteResource (deleteLocks tables lockIds) resId) := by
  rcases mem_locknullRoots.mp ((only resId).mpr rfl) with ⟨lockNull, root⟩
  constructor
  · intro lock
    have locks := locks_deleteResource unlocked (by
      intro lock left owner
      apply owners lock (LockNull.mem_deleteLocks.mp left).1
      rw [owner]
      exact lockNull)
    rw [locks]
    exact LockNull.mem_deleteLocks
  · intro row
    rw [LockNull.mem_resources_deleteResource]
    apply and_congr_right
    intro listed
    constructor
    · intro other loses
      exact other ((only row.1).mp (loses.mem_roots listed))
    · rintro stays same
      apply stays
      have equal : row = (resId, ResourceType.lockNull) :=
        List.inj_on_of_nodup_map resourcesPkey listed lockNull same
      subst equal
      refine ⟨rfl, root, fun lock member isRoot => ?_⟩
      by_contra unexpired
      exact unlocked lock
        (LockNull.mem_deleteLocks.mpr ⟨member, unexpired⟩) isRoot

/-- Without a lock nothing is deleted. -/
theorem dbmsDeleteExpLocks_nil :
    DbmsLocks.dbmsDeleteExpLocks tables [] = some tables := by
  have roots : locknullRoots tables [] = [] := by
    rw [List.eq_nil_iff_forall_not_mem]
    intro resId member
    rcases mem_locknullRoots.mp member with ⟨-, lock, -, expired, -⟩
    cases expired
  unfold locknullRoots at roots
  unfold DbmsLocks.dbmsDeleteExpLocks
  dsimp only
  rw [roots, deleteLocks_nil]

/-- The deletion fails iff there are two lock-null roots. -/
theorem dbmsDeleteExpLocks_eq_none_iff :
    DbmsLocks.dbmsDeleteExpLocks tables lockIds = none ↔
      2 ≤ (locknullRoots tables lockIds).length := by
  unfold DbmsLocks.dbmsDeleteExpLocks locknullRoots
  dsimp only
  split
  · next none =>
      rw [none]
      apply iff_of_false
      · intro failed
        cases failed
      · decide
  · next one =>
      rw [one]
      apply iff_of_false
      · split
        · intro failed
          cases failed
        · intro failed
          cases failed
      · exact Nat.not_succ_le_self 1
  · next several =>
      rw [several]
      exact iff_of_true rfl (Nat.le_add_left 2 _)

/-- The locks go alone, or with the one lock-null resource they leave. -/
theorem dbmsDeleteExpLocks_cases
    (done : DbmsLocks.dbmsDeleteExpLocks tables lockIds = some left) :
    (left = deleteLocks tables lockIds ∧
        ∀ resId ∈ locknullRoots tables lockIds,
          ∃ lock ∈ (deleteLocks tables lockIds).locks,
            lock.resourceId = resId) ∨
      ∃ resId, locknullRoots tables lockIds = [resId] ∧
        (∀ lock ∈ (deleteLocks tables lockIds).locks,
          lock.resourceId ≠ resId) ∧
        left = deleteResource (deleteLocks tables lockIds) resId := by
  unfold DbmsLocks.dbmsDeleteExpLocks at done
  dsimp only at done
  split at done
  · next empty =>
      refine Or.inl ⟨(Option.some.inj done).symm, ?_⟩
      intro resId member
      rw [locknullRoots, empty] at member
      cases member
  · next only one =>
      split at done
      · next still =>
          refine Or.inl ⟨(Option.some.inj done).symm, ?_⟩
          intro resId member
          rw [locknullRoots, one] at member
          rcases List.any_eq_true.mp still with ⟨lock, kept, root⟩
          refine ⟨lock, kept, ?_⟩
          rw [List.mem_singleton.mp member]
          exact beq_iff_eq.mp root
      · next gone =>
          refine Or.inr ⟨only, one, ?_, (Option.some.inj done).symm⟩
          intro lock kept root
          exact gone (List.any_eq_true.mpr ⟨lock, kept, beq_iff_eq.mpr root⟩)
  · cases done

/-- What is recorded for a lock after the deletion. -/
theorem mem_locksResources_dbmsDeleteExpLocks
    (consistent : LockNull.Consistent tables)
    (done : DbmsLocks.dbmsDeleteExpLocks tables lockIds = some left)
    {entry : Id × Id} :
    entry ∈ left.locksResources ↔
      entry ∈ tables.locksResources ∧ entry.1 ∉ lockIds ∧
        ¬ ((entry.2, ResourceType.lockNull) ∈ tables.resources ∧
          LosesLastLock tables lockIds (entry.2, .lockNull)) := by
  have recorded : entry ∈ (deleteLocks tables lockIds).locksResources ↔
      entry ∈ tables.locksResources ∧ entry.1 ∉ lockIds := by
    rw [deleteLocks, List.mem_filter, Bool.not_eq_true',
      decide_eq_false_iff_not]
  rcases dbmsDeleteExpLocks_cases done with
    ⟨rfl, kept⟩ | ⟨resId, only, unlocked, rfl⟩
  · rw [recorded, ← and_assoc]
    refine (and_iff_left ?_).symm
    rintro ⟨listed, loses⟩
    rcases kept entry.2 (loses.mem_roots listed) with ⟨lock, left, root⟩
    rcases LockNull.mem_deleteLocks.mp left with ⟨member, unexpired⟩
    exact unexpired (loses.last lock member root)
  · have isRoot : resId ∈ locknullRoots tables lockIds := by
      rw [only]
      exact List.mem_singleton_self resId
    rcases mem_locknullRoots.mp isRoot with ⟨lockNull, root⟩
    have owners : ∀ lock ∈ (deleteLocks tables lockIds).locks,
        lock.ownerId ≠ resId := by
      intro lock left owner
      have listed := (LockNull.mem_deleteLocks.mp left).1
      rcases List.mem_map.mp (consistent.locksOwnerId lock listed) with
        ⟨row, principal, same⟩
      apply consistent.principalsType row principal
      rw [same, owner]
      exact lockNull
    rw [locksResources_deleteResource unlocked owners, List.mem_filter,
      bne_iff_ne, recorded, and_assoc]
    apply and_congr_right
    intro _
    apply and_congr_right
    intro _
    apply not_congr
    constructor
    · rintro same
      rw [same]
      refine ⟨lockNull, rfl, root, fun lock member isRoot => ?_⟩
      by_contra unexpired
      exact unlocked lock
        (LockNull.mem_deleteLocks.mpr ⟨member, unexpired⟩) isRoot
    · rintro ⟨listed, loses⟩
      have member := loses.mem_roots listed
      rw [only] at member
      exact List.mem_singleton.mp member

/-- The binds that are left are binds of the table. -/
theorem mem_binds_of_dbmsDeleteExpLocks
    (done : DbmsLocks.dbmsDeleteExpLocks tables lockIds = some left)
    {bind : DbmsBind.Bind} (member : bind ∈ left.binds) :
    bind ∈ tables.binds := by
  rcases dbmsDeleteExpLocks_cases done with ⟨rfl, -⟩ | ⟨resId, -, -, rfl⟩
  · exact member
  · exact List.mem_of_mem_filter member

/--
The call succeeds and deletes what it should iff the locks have at most one
lock-null resource among their roots.
-/
theorem deletesExactly_iff
    (written : joinIds lockIds = some expLockIds)
    (resourcesPkey : (tables.resources.map Prod.fst).Nodup)
    (owners : ∀ lock ∈ tables.locks,
      (lock.ownerId, ResourceType.lockNull) ∉ tables.resources)
    (order : Sql.RowOrder Id) {fuel : Nat}
    (enough : (locknullRoots tables lockIds).length < fuel) :
    (∃ left, dbmsDeleteExpLocks fuel order tables expLockIds =
        some (.ok left) ∧ DeletesExactly tables lockIds left) ↔
      (locknullRoots tables lockIds).length ≤ 1 := by
  have perm := order.perm 0 (locknullRoots tables lockIds)
  rw [dbmsDeleteExpLocks_eq written order tables enough]
  unfold deleteStatements
  rw [readNumbers_joinIds written]
  dsimp only
  rcases roots : locknullRoots tables lockIds with
    _ | ⟨resId, _ | ⟨second, rest⟩⟩
  · rw [roots] at perm
    rw [perm.eq_nil]
    refine iff_of_true ⟨_, rfl, deletesExactly_deleteLocks ?_⟩ (Nat.zero_le 1)
    rw [roots]
    intro resId member
    cases member
  · rw [roots] at perm
    rw [List.perm_singleton.mp perm, locknullText]
    dsimp only
    rw [readNumbers_toString]
    dsimp only
    refine iff_of_true ⟨_, rfl, ?_⟩ (Nat.le_refl 1)
    rw [deleteUnlocked_singleton]
    split
    · next locked =>
        rcases List.any_eq_true.mp locked with ⟨lock, left, root⟩
        apply deletesExactly_deleteLocks
        rw [roots]
        intro other member
        rw [List.mem_singleton.mp member]
        exact ⟨lock, left, beq_iff_eq.mp root⟩
    · next unlocked =>
        apply deletesExactly_deleteResource resourcesPkey owners
        · intro other
          rw [roots, List.mem_singleton]
        · intro lock left root
          exact unlocked (List.any_eq_true.mpr
            ⟨lock, left, beq_iff_eq.mpr root⟩)
  · rw [roots] at perm
    have several := perm.length_eq
    generalize order.arrange 0 (resId :: second :: rest) = resIds at several
    apply iff_of_false
    · rintro ⟨left, done, -⟩
      rcases resIds with _ | ⟨first, _ | ⟨next, later⟩⟩
      · cases several
      · cases several
      · rw [locknullText] at done
        dsimp only at done
        rw [readNumbers_comma] at done
        cases done
    · intro few
      have two : (resId :: second :: rest).length = rest.length + 2 := rfl
      omega

end Deleting

/-- A lock with this id on the resource; `fred` owns it. -/
def lockOn (id resourceId : Id) (lockroot : String) : LockRow where
  id := id
  uuid := []
  resourceId := resourceId
  ownerId := 9
  form := 'X'
  depth := 0
  expiresAt := 1
  ownerInfo := []
  lockroot := lockroot.toList

/-- `/a` and `/b` are lock-null, and `/a` has two locks. -/
def lockedNulls : LockTables where
  resources := [(rootCollectionId, .collection), (9, .user),
    (10, .lockNull), (11, .lockNull)]
  principals := [(9, "fred".toList)]
  binds := [⟨1, "a".toList, rootCollectionId, 10, none⟩,
    ⟨2, "b".toList, rootCollectionId, 11, none⟩]
  locks := [lockOn 1 10 "/a", lockOn 2 10 "/a", lockOn 3 11 "/b"]
  locksResources := [(1, 10), (2, 10), (3, 11)]
  bindsLocks := [(1, 1), (2, 1), (3, 2)]

/-- `/a` loses both its locks. -/
theorem deletesExactly_lockedNulls :
    ∃ left, dbmsDeleteExpLocks 2 (Sql.RowOrder.stored Id) lockedNulls
        "1,2".toList = some (.ok left) ∧
      DeletesExactly lockedNulls [1, 2] left :=
  (@deletesExactly_iff lockedNulls [1, 2] "1,2".toList rfl (by decide)
    (by decide) (Sql.RowOrder.stored Id) 2 (by decide)).mpr (by decide)

/-- With a lock of each the call fails. -/
theorem not_deletesExactly_lockedNulls :
    ¬ ∃ fuel left, dbmsDeleteExpLocks fuel (Sql.RowOrder.stored Id)
        lockedNulls "1,2,3".toList = some (.ok left) ∧
      DeletesExactly lockedNulls [1, 2, 3] left := by
  rintro ⟨fuel, left, done, -⟩
  have failed : dbmsDeleteExpLocks 3 (Sql.RowOrder.stored Id) lockedNulls
      "1,2,3".toList = some (.error retrieveError) := by
    rfl
  unfold dbmsDeleteExpLocks at done failed
  rcases Option.map_eq_some_iff.mp done with ⟨first, stopped, returned⟩
  rcases Option.map_eq_some_iff.mp failed with ⟨second, left, refused⟩
  rcases Nat.le_total fuel 3 with less | more
  · have same := (RowLoop.run_mono stopped less).symm.trans left
    rcases Option.some.inj same with rfl
    rw [returned] at refused
    cases refused
  · have same := (RowLoop.run_mono left more).symm.trans stopped
    rcases Option.some.inj same with rfl
    rw [returned] at refused
    cases refused

end Limestone.ExpiredLocks
