import Limestone.LockNull
import Limestone.UriLookup
import Mathlib.Algebra.Order.BigOperators.Group.List
import Mathlib.Algebra.Order.Group.Nat

/-!
# A lock root and a bind on its path: `dbms_detect_bind`

The names of the path are resolved one by one until a name is that of the bind.
What is behind the names that have been read is taken from the lock root by
its length.
-/

namespace Limestone.DetectBind

open Library
open Library.Segments
open DbmsBind
open DbmsLocks
open LockNull (dbmsGetPathBinds)
open UriLookup

/-! ## The functions -/

/-- `dbms_bind_list`, as far as `dbms_get_bind` uses it. -/
structure DbmsBindList where
  parentId : Id
  /-- `none` is NULL. -/
  bindName : Option Text
  bindId : Id
  resourceId : Id
  updatedAt : Option Text
deriving DecidableEq, Repr

/-- `dbms_get_bind`: no row is read as zeros and NULL. -/
def dbmsGetBind (binds : List Bind) (bind : DbmsBindList) : DbmsBindList :=
  let row := bind.bindName.bind fun bindName =>
    bindNamed binds bind.parentId bindName
  { bind with
    bindId := (row.map Bind.id).getD 0
    resourceId := (row.map Bind.resourceId).getD 0
    updatedAt := row.bind Bind.updatedAt }

/-- The variables of the loop. -/
structure Detecting where
  nextBind : DbmsBindList
  /-- `prefix`. -/
  front : Text
  /-- What `apr_strtok` keeps in `state`. -/
  state : Text
deriving DecidableEq, Repr

/-- The loop of `dbms_detect_bind` at its condition. -/
def detectStep (binds : List Bind) (bindId : Id) (loop : Detecting) :
    Text ⊕ Detecting :=
  match loop.nextBind.bindName with
  | none => .inl loop.front
  | some bindName =>
      let front := loop.front ++ '/' :: bindName
      if loop.nextBind.bindId = bindId then .inl front
      else
        let (token, state) := strtok '/' loop.state
        .inr
          { nextBind := dbmsGetBind binds
              { loop.nextBind with
                parentId := loop.nextBind.resourceId
                bindName := token }
            front := front
            state := state }

/--
`dbms_detect_bind`: what is left in `pprefix`, or `none` while the loop is
running.  The bind that is on the stack has no ids yet.
-/
def dbmsDetectBind (fuel : Nat) (binds : List Bind) (bindId : Id)
    (path : Text) : Option Text :=
  let (token, state) := strtok '/' path
  Loop.run (detectStep binds bindId) fuel
    { nextBind := dbmsGetBind binds ⟨rootCollectionId, token, 0, 0, none⟩
      front := []
      state := state }

/-- The `where_str` for the locks of a bind. -/
def throughBind (tables : LockTables) (bindId : Id) (entry : Id × Id)
    (lock : LockRow) : Bool :=
  (tables.bindsLocks.any fun row => row.1 == lock.id && row.2 == bindId) &&
    lock.resourceId == entry.2

/-- The `post_bind_uri` of a lock. -/
def postBindUri (fuel : Nat) (binds : List Bind) (rootPath : Text)
    (bindId : Id) (lock : DavLock) : Option Text :=
  let lockroot := lock.lockroot.drop rootPath.length
  (dbmsDetectBind fuel binds bindId lockroot).map fun front =>
    lockroot.drop front.length

/--
`dbms_get_locks_through_bind`: the locks with their `post_bind_uri`, unless the
transaction has failed or a loop is running.
-/
def dbmsGetLocksThroughBind (fuel : Nat)
    (order : Sql.RowOrder (LockRow × Text)) (now : Int) (tables : LockTables)
    (serialno : Id) (rootPath : Text) (bindId : Id) :
    Option (List (DavLock × Text) × LockTables) :=
  let (locks, after) := dbmsGetLocksByWhereStr order now tables serialno
    rootPath true (throughBind tables bindId)
  after.bind fun tables =>
    (locks.mapM fun lock =>
      (postBindUri fuel tables.binds rootPath bindId lock).map
        (Prod.mk lock)).map fun locks => (locks, tables)

/-! ## The loop -/

/-- The loop before the name of a token is looked up in a collection. -/
def loopAt (binds : List Bind) (collId : Id) (front path : Text) :
    Detecting where
  nextBind := dbmsGetBind binds ⟨collId, (strtok '/' path).1, 0, 0, none⟩
  front := front
  state := (strtok '/' path).2

section Loop

variable {binds : List Bind} {collId bindId : Id} {front path name : Text}
  {names : List Text}

theorem detectStep_of_no_tokens
    (nothing : tokens '/' path = []) :
    detectStep binds bindId (loopAt binds collId front path) =
      .inl front := by
  rw [loopAt, strtok_of_no_tokens nothing]
  rfl

/-- A name is put behind the others, and the loop ends if it is the bind's. -/
theorem detectStep_of_tokens
    (first : tokens '/' path = name :: names) :
    ∃ later, tokens '/' later = names ∧
      detectStep binds bindId (loopAt binds collId front path) =
        if dbmsGetBindId binds collId name = bindId then
          .inl (front ++ '/' :: name)
        else .inr (loopAt binds (dbmsGetBindResourceId binds collId name)
          (front ++ '/' :: name) later) := by
  rcases strtok_of_tokens first with ⟨later, found, rest⟩
  refine ⟨later, rest, ?_⟩
  rw [loopAt, found, dbmsGetBindId_eq, dbmsGetBindResourceId_eq]
  rfl

/--
For every path the loop ends with the names through the first one whose bind
has the id, or with all names.
-/
theorem run_detectStep
    {fuel : Nat} (enough : (tokens '/' path).length < fuel) :
    Loop.run (detectStep binds bindId) fuel
        (loopAt binds collId front path) =
      some (front ++ slashed '/' ((tokens '/' path).take
        ((dbmsGetPathBinds binds collId (tokens '/' path)).findIdx
          (· == bindId) + 1))) := by
  rcases Nat.exists_eq_add_one_of_ne_zero (Nat.ne_zero_of_lt enough) with
    ⟨fuel, rfl⟩
  generalize read : tokens '/' path = names at enough ⊢
  induction names generalizing path collId front fuel with
  | nil =>
      rw [Loop.run, detectStep_of_no_tokens read, List.take_nil, slashed_nil,
        List.append_nil]
  | cons name names induction =>
      rw [List.length_cons, Nat.add_lt_add_iff_right] at enough
      rcases Nat.exists_eq_add_one_of_ne_zero (Nat.ne_zero_of_lt enough) with
        ⟨fuel, rfl⟩
      rcases detectStep_of_tokens read with ⟨later, rest, step⟩
      rw [Loop.run, step, dbmsGetPathBinds, List.findIdx_cons]
      by_cases detected : dbmsGetBindId binds collId name = bindId
      · rw [if_pos detected, detected, beq_self_eq_true, cond_true,
          List.take_succ_cons, List.take_zero, slashed_cons, slashed_nil,
          List.append_nil]
      · have other : (dbmsGetBindId binds collId name == bindId) = false :=
          beq_eq_false_iff_ne.mpr detected
        rw [if_neg detected, other, cond_false, List.take_succ_cons,
          slashed_cons]
        show Loop.run _ (fuel + 1) _ = _
        rw [induction fuel rest enough, List.append_assoc]

/-- What `dbms_detect_bind` returns, for every path. -/
theorem dbmsDetectBind_eq
    {fuel : Nat} (enough : (tokens '/' path).length < fuel) :
    dbmsDetectBind fuel binds bindId path =
      some (slashed '/' ((tokens '/' path).take
        ((dbmsGetPathBinds binds rootCollectionId (tokens '/' path)).findIdx
          (· == bindId) + 1))) :=
  run_detectStep enough

end Loop

/-! ## Paths that resolve -/

/-- The first step that uses the bind. -/
def FirstUse (chain : List Bind) (bind : Bind) (step : Nat) : Prop :=
  chain[step]? = some bind ∧ ∀ before < step, chain[before]? ≠ some bind

/-- The binds of a path that resolves are those of the walk. -/
theorem dbmsGetPathBinds_eq
    {binds : List Bind} {collId : Id} {names : List Text}
    (resolves : (walkBinds binds collId names).length = names.length) :
    dbmsGetPathBinds binds collId names =
      (walkBinds binds collId names).map Bind.id := by
  induction names generalizing collId with
  | nil => rfl
  | cons name names induction =>
      rw [walkBinds] at resolves ⊢
      rw [dbmsGetPathBinds, dbmsGetBindId_eq, dbmsGetBindResourceId_eq]
      cases found : bindNamed binds collId name with
      | none =>
          rw [found] at resolves
          cases resolves
      | some bind =>
          rw [found] at resolves
          have rest : (walkBinds binds bind.resourceId names).length =
              names.length := Nat.succ.inj resolves
          exact congrArg (bind.id :: ·) (induction rest)

section Resolving

variable {table : BindTable} {names : List Text} {bind : Bind}

/-- The ids of the binds tell where one is used first. -/
theorem firstUse_findIdx
    {chain : List Bind} (listed : ∀ other ∈ chain, other ∈ table.rows)
    (onPath : bind ∈ chain) :
    FirstUse chain bind
      ((chain.map Bind.id).findIdx (· == bind.id)) := by
  have isBind : ∀ other ∈ chain, other.id = bind.id → other = bind := by
    intro other member same
    exact List.inj_on_of_nodup_map table.pkey (listed other member)
      (listed bind onPath) same
  rw [List.findIdx_map]
  have found : ∃ other ∈ chain, ((· == bind.id) ∘ Bind.id) other = true :=
    ⟨bind, onPath, beq_self_eq_true bind.id⟩
  have inside := List.findIdx_lt_length_of_exists found
  constructor
  · have here := @List.findIdx_getElem _ ((· == bind.id) ∘ Bind.id) chain
      inside
    rw [List.getElem?_eq_getElem inside]
    exact congrArg some (isBind _ (List.getElem_mem inside)
      (beq_iff_eq.mp here))
  · intro before less used
    have earlier := List.not_of_lt_findIdx less
    rw [List.getElem?_eq_getElem (less.trans inside)] at used
    rw [Option.some.inj used] at earlier
    rw [Function.comp_apply, beq_self_eq_true] at earlier
    cases earlier

/-- What is taken from a text by the length of its front is its rest. -/
theorem slashed_take_append_drop (names : List Text) (count : Nat) :
    slashed '/' (names.take count) ++
        (slashed '/' names).drop (slashed '/' (names.take count)).length =
      slashed '/' names := by
  have whole : slashed '/' (names.take count) ++
      slashed '/' (names.drop count) = slashed '/' names := by
    rw [← slashed_append, List.take_append_drop]
  rw [← whole, List.drop_left]

/-- An unexpired lock that is recorded against the bind. -/
structure IsThrough (tables : LockTables) (now : Int) (bindId : Id)
    (lock : LockRow) : Prop where
  present : lock ∈ tables.locks
  recorded : (lock.id, bindId) ∈ tables.bindsLocks
  onResource : (lock.id, lock.resourceId) ∈ tables.locksResources
  owned : ∃ name, (lock.ownerId, name) ∈ tables.principals
  unexpired : ¬ Over now lock

section Listing

variable {tables : LockTables} {now : Int} {bindId serialno : Id}
  {rootPath : Text}

theorem throughBind_iff {entry : Id × Id} {lock : LockRow} :
    throughBind tables bindId entry lock = true ↔
      (lock.id, bindId) ∈ tables.bindsLocks ∧
        lock.resourceId = entry.2 := by
  simp only [throughBind, Bool.and_eq_true, List.any_eq_true, beq_iff_eq]
  apply and_congr_left
  intro _
  constructor
  · rintro ⟨row, recorded, same, sameBind⟩
    rw [← same, ← sameBind]
    exact recorded
  · intro recorded
    exact ⟨_, recorded, rfl, rfl⟩

/-- The locks of the query are those recorded against the bind. -/
theorem mem_locksThrough
    (order : Sql.RowOrder (LockRow × Text)) {davLock : DavLock} :
    davLock ∈ (dbmsGetLocksByWhereStr order now tables serialno rootPath
        true (throughBind tables bindId)).1 ↔
      ∃ lock name, IsThrough tables now bindId lock ∧
        (lock.ownerId, name) ∈ tables.principals ∧
        davLock = readLock serialno rootPath false lock name := by
  rw [dbmsGetLocksByWhereStr, readLocks_resolved, List.mem_filter,
    List.mem_map]
  simp only [(order.perm 0 _).mem_iff, mem_lockRows, throughBind_iff,
    Bool.not_eq_true']
  constructor
  · rintro ⟨⟨row, ⟨entry, listed, present, same, known, recorded, onResource⟩,
      rfl⟩, live⟩
    have resource : (row.1.id, row.1.resourceId) = entry :=
      Prod.ext same onResource
    refine ⟨row.1, row.2, ⟨present, recorded, resource ▸ listed,
      ⟨row.2, known⟩, ?_⟩, known, rfl⟩
    intro late
    rw [expired_readLock.mpr late] at live
    cases live
  · rintro ⟨lock, name, through, known, rfl⟩
    refine ⟨⟨(lock, name), ⟨_, through.onResource, through.present, rfl,
      known, through.recorded, rfl⟩, rfl⟩, ?_⟩
    rw [Bool.eq_false_iff, ne_eq, expired_readLock]
    exact through.unexpired

/-- What is behind the names through the bind. -/
def restOf (binds : List Bind) (bindId : Id) (lockroot : Text) : Text :=
  let names := tokens '/' lockroot
  lockroot.drop (slashed '/' (names.take
    ((dbmsGetPathBinds binds rootCollectionId names).findIdx
      (· == bindId) + 1))).length

/-- Unless the transaction has failed the call returns, with every lock. -/
theorem exists_dbmsGetLocksThroughBind
    {order : Sql.RowOrder (LockRow × Text)} {left : LockTables}
    (after : (dbmsGetLocksByWhereStr order now tables serialno rootPath true
      (throughBind tables bindId)).2 = some left) :
    ∃ passes, ∀ more, passes ≤ more →
      dbmsGetLocksThroughBind more order now tables serialno rootPath
          bindId =
        some ((dbmsGetLocksByWhereStr order now tables serialno rootPath true
          (throughBind tables bindId)).1.map fun lock =>
            (lock, restOf left.binds bindId
              (lock.lockroot.drop rootPath.length)), left) := by
  let locks := (dbmsGetLocksByWhereStr order now tables serialno rootPath
    true (throughBind tables bindId)).1
  let length := fun lock : DavLock =>
    (tokens '/' (lock.lockroot.drop rootPath.length)).length
  refine ⟨(locks.map length).sum + 1, ?_⟩
  intro more enough
  unfold dbmsGetLocksThroughBind
  dsimp only
  rw [after, Option.bind_some, Sql.mapM_eq_some, Option.map_some]
  intro lock member
  have bounded : length lock ≤ (locks.map length).sum :=
    List.le_sum_of_mem (List.mem_map_of_mem member)
  have shorter : length lock < more :=
    (Nat.lt_succ_of_le bounded).trans_le enough
  rw [postBindUri, dbmsDetectBind_eq shorter]
  rfl

end Listing

/--
The prefix of a lock root ends with the first step through the bind.  Unless
the transaction has failed, the locks through the bind are found, and what is
left of the lock root is behind the prefix.
-/
theorem dbmsDetectBind_splits
    (segments : ∀ name ∈ names, IsSegment '/' name)
    (resolves : (walkBinds table.rows rootCollectionId names).length =
      names.length)
    (onPath : bind ∈ walkBinds table.rows rootCollectionId names) :
    ∃ step, FirstUse (walkBinds table.rows rootCollectionId names) bind
        step ∧
      (∀ fuel, names.length < fuel →
        dbmsDetectBind fuel table.rows bind.id (slashed '/' names) =
          some (slashed '/' (names.take (step + 1)))) ∧
      ∀ order now tables serialno rootPath left,
        (dbmsGetLocksByWhereStr order now tables serialno rootPath true
            (throughBind tables bind.id)).2 = some left →
          left.binds = table.rows →
            ∃ found passes,
              (∀ more, passes ≤ more →
                dbmsGetLocksThroughBind more order now tables serialno
                  rootPath bind.id = some (found, left)) ∧
              (∀ lockId lockroot,
                (∃ entry ∈ found, entry.1.lockId = lockId ∧
                    entry.1.lockroot = lockroot) ↔
                  ∃ lock, IsThrough tables now bind.id lock ∧
                    lock.id = lockId ∧
                    rootPath ++ lock.lockroot = lockroot) ∧
              ∀ entry ∈ found,
                entry.1.lockroot = rootPath ++ slashed '/' names →
                  slashed '/' (names.take (step + 1)) ++ entry.2 =
                    slashed '/' names := by
  have read : tokens '/' (slashed '/' names) = names := by
    rw [← List.append_nil (slashed '/' names)]
    exact tokens_slashed segments (Or.inl rfl)
  have listed : ∀ other ∈ walkBinds table.rows rootCollectionId names,
      other ∈ table.rows := fun other => mem_of_mem_walkBinds
  refine ⟨_, firstUse_findIdx listed onPath, ?_, ?_⟩
  · intro fuel enough
    have detected := @dbmsDetectBind_eq table.rows bind.id
      (slashed '/' names) fuel (by rw [read]; exact enough)
    rw [read, dbmsGetPathBinds_eq resolves] at detected
    exact detected
  · intro order now tables serialno rootPath left after same
    rcases exists_dbmsGetLocksThroughBind after with ⟨passes, returns⟩
    refine ⟨_, passes, returns, ?_, ?_⟩
    · intro lockId lockroot
      simp only [List.mem_map, exists_exists_and_eq_and, mem_locksThrough]
      constructor
      · rintro ⟨_, ⟨lock, name, through, -, rfl⟩, rfl, rfl⟩
        exact ⟨lock, through, rfl, rfl⟩
      · rintro ⟨lock, through, rfl, rfl⟩
        rcases through.owned with ⟨name, known⟩
        exact ⟨_, ⟨lock, name, through, known, rfl⟩, rfl, rfl⟩
    · intro entry member root
      rcases List.mem_map.mp member with ⟨lock, -, rfl⟩
      have lockroot : lock.lockroot = rootPath ++ slashed '/' names := root
      dsimp only
      rw [lockroot, List.drop_left, restOf, read, same,
        dbmsGetPathBinds_eq resolves]
      exact slashed_take_append_drop names _

end Resolving

/-- `/a` has itself as its member `b`. -/
def memberOfItself : BindTable where
  rows := [⟨1, "a".toList, rootCollectionId, 10, none⟩,
    ⟨2, "b".toList, 10, 10, none⟩]
  pkey := by decide
  collectionIdKey := by decide
  positive := by decide

/-- A lock on `/a/b/b` that is recorded against the second bind. -/
def lockOfItself : LockTables where
  resources := [(rootCollectionId, .collection), (10, .collection),
    (20, .principal)]
  principals := [(20, "fred".toList)]
  binds := memberOfItself.rows
  locks := [⟨5, "u".toList, 10, 20, 'X', 0, 0, [], "/a/b/b".toList⟩]
  locksResources := [(5, 10)]
  bindsLocks := [(5, 1), (5, 2)]

/-- The path `/a/b/b` uses the second bind twice, and its lock is found. -/
theorem dbmsDetectBind_memberOfItself :
    ∃ step, FirstUse (walkBinds memberOfItself.rows rootCollectionId
        ["a".toList, "b".toList, "b".toList])
        ⟨2, "b".toList, 10, 10, none⟩ step ∧
      dbmsDetectBind 4 memberOfItself.rows 2 "/a/b/b".toList =
        some (slashed '/' (["a".toList, "b".toList, "b".toList].take
          (step + 1))) ∧
      ∃ found passes,
        (∀ more, passes ≤ more →
          dbmsGetLocksThroughBind more (.stored _) 0 lockOfItself 10
            "/dav".toList 2 = some (found, lockOfItself)) ∧
        ∃ entry ∈ found, entry.1.lockId = 5 ∧
          slashed '/' (["a".toList, "b".toList, "b".toList].take
              (step + 1)) ++ entry.2 = "/a/b/b".toList := by
  rcases @dbmsDetectBind_splits memberOfItself
    ["a".toList, "b".toList, "b".toList] ⟨2, "b".toList, 10, 10, none⟩
    (by unfold IsSegment; decide) (by decide) (by decide) with
    ⟨step, first, splits, listing⟩
  rcases listing (.stored _) 0 lockOfItself 10 "/dav".toList lockOfItself rfl rfl
    with ⟨found, passes, returns, complete, rests⟩
  have listed : ∃ entry ∈ found, entry.1.lockId = 5 ∧
      entry.1.lockroot = "/dav/a/b/b".toList := by
    rw [complete]
    exact ⟨⟨5, "u".toList, 10, 20, 'X', 0, 0, [], "/a/b/b".toList⟩,
      ⟨by decide, by decide, by decide, ⟨"fred".toList, by decide⟩,
        fun late => late.1 rfl⟩, rfl, rfl⟩
  rcases listed with ⟨entry, member, sameId, root⟩
  exact ⟨step, first, splits 4 (by decide), found, passes, returns, entry,
    member, sameId, rests entry member root⟩

end Limestone.DetectBind
