import Limestone.GarbageCollection

/-!
# Runs with the garbage collector

Of every request and every pass of the collector it is said when it leaves each
resource on a way from the root or from a listed resource, and deletes none
that can be reached; a run of such steps loses and leaks nothing.  Only moves
can go wrong.
-/

namespace Limestone.GarbageCollection

open Library
open BridgeProperty hiding sabridgeGetProperty
open BridgeUnbind (dbmsGetVhrVersions dbmsUnversionVhrVcrs
  sabridgeDeleteIfOrphaned)
open DbmsBind
open MoveAsRebind
open PathSearch (bindGraph)
open Rebind
open VersionLinks (Libraries)

/-! ## Requests keep everything covered -/

section Requests

variable {store after : RebindStore} {id : Id} {bind : Bind}

theorem isCovered_mono
    (listed : ∀ start ∈ store.cleanup, start ∈ after.cleanup)
    (kept : ∀ bind ∈ store.binds.rows, bind ∈ after.binds.rows)
    (covered : IsCovered store id) : IsCovered after id :=
  covered.of_closed isCovered_root
    (fun start isListed => isCovered_of_mem (listed start isListed))
    fun bind isBound source => source.tail (kept bind isBound)

/-- What `dbms_insert_bind` does when it returns no error. -/
theorem dbmsInsertBind_ok
    {bindId resourceId collectionId : Id} {bindname now : Text}
    (done : dbmsInsertBind store bindId resourceId collectionId bindname now =
      .ok after) :
    (∃ bind, bind.collectionId = collectionId ∧
      bind.resourceId = resourceId ∧
      after.binds.rows = store.binds.rows ++ [bind]) ∧
      after.ids = store.ids ∧ after.cleanup = store.cleanup := by
  unfold dbmsInsertBind at done
  split at done
  next => cases done
  next name taken =>
      dsimp only at done
      split at done
      next =>
          rcases Except.ok.inj done with rfl
          exact ⟨⟨_, rfl, rfl, rfl⟩, rfl, rfl⟩
      next => cases done

theorem leaksNothing_create
    {new : NewRows} {bindId parentId : Id} {bindname now : Text}
    (leaks : LeaksNothing store)
    (done : sabridgeInsertResource store new bindId parentId bindname now =
      .ok after) : LeaksNothing after := by
  unfold sabridgeInsertResource at done
  split at done
  next fresh =>
      rcases dbmsInsertBind_ok done with
        ⟨⟨bind, isParent, isNew, rows⟩, ids, cleanup⟩
      dsimp only at rows cleanup
      have kept : ∀ other ∈ store.binds.rows, other ∈ after.binds.rows := by
        intro other listed
        rw [rows]
        exact List.mem_append_left _ listed
      have listed : ∀ start ∈ store.cleanup, start ∈ after.cleanup := by
        rw [cleanup]
        exact fun _ isListed => isListed
      apply leaksNothing_of_kept leaks listed
        (fun other isBound => Or.inl (kept other isBound))
      intro id present
      rw [ids] at present
      rcases List.mem_map.mp present with ⟨row, isRow, rfl⟩
      rcases List.mem_append.mp isRow with before | isLast
      · exact Or.inl (List.mem_map_of_mem before)
      · right
        rw [List.mem_singleton.mp isLast, ← isNew]
        have parent := isCovered_mono listed kept (leaks _ fresh.2)
        rw [← isParent] at parent
        refine parent.tail ?_
        rw [rows]
        exact List.mem_append_right _ (List.mem_singleton_self bind)
  next => cases done

theorem leaksNothing_bind
    {bindId : Id} {resource collection : DavReposResource}
    {segment now : Text}
    (leaks : LeaksNothing store)
    (done : davReposBindResource store bindId resource collection segment
      now = .ok after) : LeaksNothing after := by
  rcases dbmsInsertBind_ok done with ⟨⟨bind, -, -, rows⟩, ids, cleanup⟩
  apply leaksNothing_of_kept leaks
  · rw [cleanup]
    exact fun _ isListed => isListed
  · intro other isBound
    left
    rw [rows]
    exact List.mem_append_left _ isBound
  · rw [ids]
    exact fun _ present => Or.inl present

theorem mem_dbmsDeleteBind_or
    {collId resId : Id} {bindName : Text}
    (listed : bind ∈ store.binds.rows) :
    bind ∈ (dbmsDeleteBind store collId resId bindName).binds.rows ∨
      bind.resourceId = resId := by
  by_cases same : bind.resourceId = resId
  · exact Or.inr same
  · left
    refine List.mem_filter.mpr ⟨listed, ?_⟩
    rw [beq_false_of_ne same, Bool.and_false, Bool.false_and]
    rfl

theorem leaksNothing_unbind
    {libraries : Libraries} {dbR : DavReposResource}
    (leaks : LeaksNothing store)
    (done : sabridgeUnbindResource libraries store dbR = .ok after) :
    LeaksNothing after := by
  rcases bind_eq_ok.mp done with ⟨deleted, unbinds, inserts⟩
  rcases dbmsInsertCleanupReqs_ok inserts with ⟨rows, cleanup⟩
  have isListed : IsCovered after dbR.serialno :=
    isCovered_of_mem ((cleanup _).mpr (Or.inr (List.mem_singleton_self _)))
  have before : deleted.cleanup = store.cleanup ∧ deleted.ids = store.ids ∧
      ∀ bind ∈ store.binds.rows, bind ∈ deleted.binds.rows ∨
        bind.resourceId = dbR.serialno := by
    unfold deleteBindOf at unbinds
    split at unbinds
    next =>
        rcases Except.ok.inj unbinds with rfl
        exact ⟨rfl, rfl, fun _ listed => Or.inl listed⟩
    next =>
        rcases bind_eq_ok.mp unbinds with ⟨parent, -, deletes⟩
        rcases Except.ok.inj deletes with rfl
        exact ⟨rfl, rfl, fun _ listed => mem_dbmsDeleteBind_or listed⟩
  apply leaksNothing_of_kept leaks
  · intro start listed
    exact (cleanup start).mpr (Or.inl (before.1.symm ▸ listed))
  · intro bind listed
    rw [rows.binds]
    rcases before.2.2 bind listed with kept | same
    · exact Or.inl kept
    · exact Or.inr (same ▸ isListed)
  · intro id present
    rw [rows.ids, before.2.1] at present
    exact Or.inl present

/-! ### Moves -/

/-- The binds and the list after a move with garbage collection. -/
structure MovesBind (move : Move) (after : RebindStore) (base : List Bind)
    (name now : Text) : Prop where
  rows : after.binds.rows = base.map
    (rebound move.parent move.name move.coll name now)
  ids : after.ids = move.store.ids
  listed : ∀ start ∈ move.store.cleanup, start ∈ after.cleanup
  others : ∀ bind ∈ base, bind ∈ move.store.binds.rows ∧
    (bind ≠ move.source → move.target ≠ some bind)
  former : ∀ bind ∈ move.store.binds.rows, bind ∈ base ∨
    move.target = some bind ∧ bind.resourceId ∈ after.cleanup
  cleanup : ∀ start ∈ after.cleanup, start ∈ move.store.cleanup ∨
    move.target.map Bind.resourceId = some start
  target : ∀ target, move.target = some target →
    target.resourceId ∈ after.cleanup ∨ target = move.source

/-- A move without a resource at the target, or of a lock-null resource. -/
theorem movesBind_of_absent
    {request : Request} {fuel : Nat} {move : Move} {result : Rebound}
    {parent read : DavReposResource} {moved : RebindStore}
    (absent : existsResource move.newBind = false)
    (target : ∀ target, move.target = some target → target = move.source)
    (runs : Runs request fuel move.store move.coll move.segment move.href
      move.newBind result parent read moved) :
    ∃ name, MovesBind move result.store move.store.binds.rows name
      request.now := by
  rcases moves_of_absent absent runs with
    ⟨name, -, rows, resources, -, cleanup⟩
  refine ⟨name, ?_⟩
  constructor
  · rw [runs.finishes.binds]
    exact rows
  · rw [runs.finishes.ids]
    exact congrArg (List.map ResourceRow.id) resources
  · rw [runs.finishes.cleanup, cleanup]
    exact fun _ isListed => isListed
  · exact fun bind isBound => ⟨isBound, fun other isTarget =>
      other (target bind isTarget)⟩
  · exact fun _ isBound => Or.inl isBound
  · rw [runs.finishes.cleanup, cleanup]
    exact fun _ isListed => Or.inl isListed
  · exact fun other isOther => Or.inr (target other isOther)

theorem movesBind_of_overwrites
    {request : Request} {fuel : Nat} {move : Move} {result : Rebound}
    {parent read : DavReposResource} {moved : RebindStore} {target : Bind}
    (useGc : request.useGc = true)
    (found : move.target = some target)
    (isThere : move.store.typeOf target.resourceId ≠ some .lockNull)
    (runs : Runs request fuel move.store move.coll move.segment move.href
      move.newBind result parent read moved) :
    ∃ base name, MovesBind move result.store base name request.now := by
  rcases exists_overwrites found isThere runs with
    ⟨changed, overwrites, unbinds⟩
  unfold Rebind.sabridgeUnbindResource at unbinds
  rw [if_pos useGc] at unbinds
  rcases dbmsInsertCleanupReqs_ok unbinds with ⟨rows, cleanup⟩
  rcases overwrites.rows with ⟨base, isBase, members⟩
  have isListed : target.resourceId ∈ result.store.cleanup := by
    rw [runs.finishes.cleanup, cleanup, serialno_target found]
    exact Or.inr (List.mem_singleton_self _)
  refine ⟨base, move.segment, ?_⟩
  constructor
  · rw [runs.finishes.binds, rows.binds]
    exact isBase
  · rw [runs.finishes.ids, rows.ids]
    exact congrArg (List.map ResourceRow.id) overwrites.resources
  · intro start listed
    rw [runs.finishes.cleanup, cleanup, overwrites.cleanup]
    exact Or.inl listed
  · intro bind isMember
    rcases (members bind).mp isMember with ⟨isBound, other⟩
    exact ⟨isBound, fun _ isTarget =>
      other (Option.some.inj (isTarget.symm.trans found))⟩
  · intro bind isBound
    by_cases isTarget : bind = target
    · rw [isTarget]
      exact Or.inr ⟨found, isListed⟩
    · exact Or.inl ((members bind).mpr ⟨isBound, isTarget⟩)
  · intro start isStart
    rw [runs.finishes.cleanup, cleanup, overwrites.cleanup,
      serialno_target found, List.mem_singleton] at isStart
    refine isStart.imp_right fun same => ?_
    rw [found, same]
    rfl
  · intro other isOther
    rcases Option.some.inj (found.symm.trans isOther) with rfl
    exact Or.inl isListed

theorem exists_movesBind
    {request : Request} {fuel : Nat} {move : Move} {result : Rebound}
    (useGc : request.useGc = true)
    (done : davReposRebindResource request fuel move.store move.coll
      move.segment move.href move.newBind = .ok result) :
    ∃ base name, MovesBind move result.store base name request.now := by
  rcases exists_runs done with ⟨parent, read, moved, runs⟩
  cases found : move.target with
  | none =>
      refine ⟨_, movesBind_of_absent (existsResource_of_missing found) ?_
        runs⟩
      intro target isTarget
      cases found.symm.trans isTarget
  | some target =>
      by_cases lockNull : move.store.typeOf target.resourceId =
          some .lockNull
      · refine ⟨_, movesBind_of_absent
          (existsResource_of_lockNull found lockNull) ?_ runs⟩
        intro other isOther
        rcases Option.some.inj (found.symm.trans isOther) with rfl
        exact (rebinds_of_lockNull found lockNull runs).1
      · exact movesBind_of_overwrites useGc found lockNull runs

section Moving

variable {move : Move} {base : List Bind} {name now : Text}

/-- The other binds are left, and the moved one leads from its new place. -/
theorem MovesBind.kept
    (moves : MovesBind move after base name now)
    (isBound : bind ∈ move.store.binds.rows)
    (other : bind ≠ move.source) :
    bind ∈ after.binds.rows ∨ move.target = some bind ∧
      bind.resourceId ∈ after.cleanup := by
  rcases moves.former bind isBound with isBase | isTarget
  · left
    rw [moves.rows]
    refine List.mem_map.mpr ⟨bind, isBase, rebound_of_other ?_⟩
    intro isSource
    exact other (eq_of_key isBound move.key_source.1
      (isSource.trans move.key_source.2.symm))
  · exact Or.inr isTarget

/-- The place of a bind of the changed table. -/
theorem MovesBind.collectionId
    (moves : MovesBind move after base name now)
    (isBase : bind ∈ base) :
    (rebound move.parent move.name move.coll name now bind).collectionId =
      if bind = move.source then move.coll else bind.collectionId := by
  have isBound := (moves.others bind isBase).1
  split
  next isSource =>
      have key : (rebound move.parent move.name move.coll name now
          bind).key = (move.coll, name) := by
        rw [isSource]
        exact key_rebound_of_source move.key_source.2
      exact congrArg Prod.fst key
  next notSource =>
      rw [rebound_of_other fun same => notSource (eq_of_key isBound
        move.key_source.1 (same.trans move.key_source.2.symm))]

theorem MovesBind.moved
    (moves : MovesBind move after base name now)
    (isBase : move.source ∈ base)
    (covered : IsCovered after move.coll) : IsCovered after move.moved := by
  have member : rebound move.parent move.name move.coll name now
      move.source ∈ after.binds.rows := by
    rw [moves.rows]
    exact List.mem_map_of_mem isBase
  have isColl : (rebound move.parent move.name move.coll name now
      move.source).collectionId = move.coll := by
    rw [moves.collectionId isBase, if_pos rfl]
  rw [← isColl] at covered
  have reached := covered.tail member
  rwa [resourceId_rebound] at reached

/-- What there was another way to is covered afterwards. -/
theorem MovesBind.isCovered_of_isSpared
    (moves : MovesBind move after base name now)
    (leaves : move.parent ≠ move.coll)
    (spared : IsSpared move id) : IsCovered after id := by
  rcases spared with ⟨start, starts, reaches⟩
  have covered : IsCovered after start := by
    rcases starts with rfl | listed | overwritten
    · exact isCovered_root
    · exact isCovered_of_mem (moves.listed start listed)
    · rcases Option.map_eq_some_iff.mp overwritten with
        ⟨target, found, rfl⟩
      rcases moves.target target found with listed | rfl
      · exact isCovered_of_mem listed
      · -- a bind at the target is not in another collection
        have key := (Move.key_target found).2
        exact absurd (congrArg Prod.fst (move.key_source.2.symm.trans key))
          leaves
  refine covered.of_restrict ?_ reaches
  rintro other isBound ⟨notSource, notTarget⟩
  exact (moves.kept isBound notSource).resolve_right
    fun isTarget => notTarget isTarget.1

/-- The condition gives a way to the moved resource afterwards. -/
theorem MovesBind.isCovered_moved
    (moves : MovesBind move after base name now)
    (stays : StaysCovered move)
    (isBase : move.source ∈ base)
    (leaves : move.parent ≠ move.coll) : IsCovered after move.moved := by
  rcases stays with spared | spared
  · exact moves.moved isBase (moves.isCovered_of_isSpared leaves spared)
  · exact moves.isCovered_of_isSpared leaves spared

/-- If the moved resource is covered afterwards, the condition is met. -/
theorem MovesBind.staysCovered
    (moves : MovesBind move after base name now)
    (covered : IsCovered after move.moved) : StaysCovered move := by
  -- a way to the moved resource, or one that has come to its new bind
  have either : IsSpared move move.moved ∨ StaysCovered move := by
    refine covered.of_closed (S := fun id =>
      IsSpared move id ∨ StaysCovered move) ?_ ?_ ?_
    · exact Or.inl ⟨_, Or.inl rfl, Multigraph.Reaches.refl _ _⟩
    · intro start listed
      exact Or.inl ⟨start, Or.inr (moves.cleanup start listed),
        Multigraph.Reaches.refl _ _⟩
    · intro bind member reached
      rcases reached with spared | stays
      · rw [moves.rows] at member
        rcases List.mem_map.mp member with ⟨old, isBase, rfl⟩
        rcases moves.others old isBase with ⟨isBound, other⟩
        rw [moves.collectionId isBase] at spared
        rw [resourceId_rebound]
        by_cases isSource : old = move.source
        · rw [if_pos isSource] at spared
          exact Or.inr (Or.inl spared)
        · rw [if_neg isSource] at spared
          exact Or.inl (spared.tail isBound isSource (other isSource))
      · exact Or.inr stays
  rcases either with spared | stays
  · exact Or.inr spared
  · exact stays

/-- The condition is what a move has to meet. -/
theorem leaksNothing_rebind_iff
    (leaks : LeaksNothing move.store)
    (moves : MovesBind move after base name now) :
    LeaksNothing after ↔ StaysCovered move := by
  constructor
  · intro leaksAfter
    refine moves.staysCovered (leaksAfter _ ?_)
    rw [moves.ids]
    exact move.store.fkBindResource move.source move.key_source.1
  intro stays id present
  rw [moves.ids] at present
  refine (leaks id present).of_closed isCovered_root
    (fun start listed => isCovered_of_mem (moves.listed start listed)) ?_
  intro bind isBound source
  by_cases isSource : bind = move.source
  · rcases isSource with rfl
    rcases moves.former move.source isBound with isBase | isTarget
    · by_cases same : move.parent = move.coll
      · have isParent : move.source.collectionId = move.parent :=
          congrArg Prod.fst move.key_source.2
        rw [isParent, same] at source
        exact moves.moved isBase source
      · exact moves.isCovered_moved stays isBase same
    · exact isCovered_of_mem isTarget.2
  · rcases moves.kept isBound isSource with kept | isTarget
    · exact source.tail kept
    · exact isCovered_of_mem isTarget.2

end Moving

end Requests

/-! ## The collector keeps everything covered -/

section Collecting

variable {store after : RebindStore} {orders : CollectorOrders}
  {resourceId id : Id} {rest : List Id} {bind : Bind}

theorem mem_dbmsGetChildBinds :
    id ∈ dbmsGetChildBinds store resourceId ↔
      IsMember store resourceId id := by
  unfold dbmsGetChildBinds
  rw [List.mem_reverse, List.mem_map]
  constructor
  · rintro ⟨bind, member, same⟩
    rcases List.mem_filter.mp member with ⟨listed, kept⟩
    rw [Bool.and_eq_true, beq_iff_eq, bne_iff_ne] at kept
    exact ⟨bind, listed, kept.1, kept.1 ▸ kept.2, same⟩
  · rintro ⟨bind, listed, isColl, other, same⟩
    refine ⟨bind, List.mem_filter.mpr ⟨listed, ?_⟩, same⟩
    rw [Bool.and_eq_true, beq_iff_eq, bne_iff_ne]
    exact ⟨isColl, isColl.symm ▸ other⟩

theorem cleanupRecord_eq_versionHistory :
    (cleanupRecord store resourceId).resourcetype = .versionHistory ↔
      store.typeOf resourceId = some .versionHistory := by
  unfold cleanupRecord
  cases store.typeOf resourceId with
  | none => exact iff_of_false nofun nofun
  | some resourcetype => exact (Option.some_inj).symm

/-- Only a history without versions makes the removal undefined. -/
theorem isBare_of_readsNone
    (reads : UnbindHistories.ReadsNone (graphOf store)
      (cleanupRecord store resourceId)) : IsBare store resourceId := by
  refine ⟨cleanupRecord_eq_versionHistory.mp reads.1, ?_⟩
  intro version listed ofHistory present
  rw [← ids_graphOf] at present
  have none : dbmsGetVhrVersions (dbmsUnversionVhrVcrs (graphOf store)
      resourceId) resourceId = [] :=
    reads.2
  have isRead : version.resourceId ∈ dbmsGetVhrVersions
      (dbmsUnversionVhrVcrs (graphOf store) resourceId) resourceId :=
    UnbindHistories.mem_dbmsGetVhrVersions.mpr
      ⟨_, List.mem_map_of_mem listed, ofHistory, present, rfl⟩
  rw [none] at isRead
  exact List.not_mem_nil isRead

theorem sabridgeDeleteResource_of_plain
    {graph : BridgeUnbind.GraphStore}
    {dbR : DbmsCollection.DavReposResource}
    (plain : dbR.resourcetype ≠ .versionHistory) :
    BridgeUnbind.sabridgeDeleteResource graph dbR =
      some (BridgeUnbind.dbmsDeleteResource graph dbR.serialno) := by
  unfold BridgeUnbind.sabridgeDeleteResource
  rw [if_neg plain]
  rfl

/-- The tables after a pass that deletes its resource. -/
structure Collected (store after : RebindStore) (resourceId : Id)
    (rest : List Id) : Prop where
  ids : ∀ id, id ∈ after.ids ↔ id ∈ store.ids ∧ id ≠ resourceId
  binds : ∀ bind, bind ∈ after.binds.rows ↔ bind ∈ store.binds.rows ∧
    bind.collectionId ≠ resourceId ∧ bind.resourceId ≠ resourceId
  listed : ∀ id, id ∈ rest ∨ IsMember store resourceId id →
    id ≠ resourceId → id ∈ after.cleanup

theorem mem_ids_deleted (taken : RebindStore) (resourceId id : Id) :
    id ∈ (taken.restrict (BridgeUnbind.dbmsDeleteResource (graphOf taken)
        resourceId)).ids ↔ id ∈ taken.ids ∧ id ≠ resourceId := by
  rw [mem_ids_restrict, UnbindCollects.mem_ids_dbmsDeleteResource,
    ids_graphOf]
  exact and_self_left

theorem collected_of_inserts
    (inserts : dbmsInsertCleanupReqs orders.ids
      (RebindStore.restrict { store with cleanup := rest }
        (BridgeUnbind.dbmsDeleteResource (graphOf store) resourceId))
      (dbmsGetChildBinds store resourceId) = .ok after) :
    Collected store after resourceId rest := by
  rcases dbmsInsertCleanupReqs_ok inserts with ⟨rows, cleanup⟩
  have ids (id : Id) : id ∈ after.ids ↔
      id ∈ store.ids ∧ id ≠ resourceId := by
    rw [rows.ids]
    exact mem_ids_deleted { store with cleanup := rest } resourceId id
  constructor
  · exact ids
  · intro bind
    rw [rows.binds, mem_binds_restrict, ← rows.ids, ids, ids]
    constructor
    · rintro ⟨listed, -, left, right⟩
      exact ⟨listed, left.2, right.2⟩
    · rintro ⟨listed, left⟩
      refine ⟨listed, List.mem_filter.mpr ⟨listed, ?_⟩,
        ⟨store.fkBindCollection bind listed, left.1⟩,
        store.fkBindResource bind listed, left.2⟩
      rw [Bool.and_eq_true, bne_iff_ne, bne_iff_ne]
      exact left
  · intro id listed left
    rw [cleanup, mem_dbmsGetChildBinds]
    rcases listed with isRest | isMember
    · left
      refine List.mem_filter.mpr
        ⟨isRest, keeps_eq_true.mpr fun present => ?_⟩
      have known : id ∈ (graphOf store).ids := by
        rw [ids_graphOf]
        exact present
      exact UnbindCollects.mem_ids_dbmsDeleteResource.mpr ⟨known, left⟩
    · exact Or.inr isMember

/-- What one pass does when there is a resource on the list. -/
theorem gcMain_cases
    (orders : CollectorOrders)
    (isNext : store.cleanup = resourceId :: rest) :
    gcMain orders store = .rolledBack ∨
      (IsReached store resourceId ∧
        gcMain orders store = .committed { store with cleanup := rest }) ∨
      ¬ IsReached store resourceId ∧
        (IsBare store resourceId ∧ gcMain orders store = .undefined ∨
          ∃ after, gcMain orders store = .committed after ∧
            Collected store after resourceId rest) := by
  let taken : RebindStore := { store with cleanup := rest }
  let dbR := cleanupRecord taken resourceId
  unfold gcMain
  rw [isNext]
  dsimp only
  by_cases isVersion : readsVersion taken dbR = true
  · exact Or.inl (if_pos isVersion)
  rw [if_neg isVersion]
  by_cases reached : IsReached store resourceId
  · have path : BridgeUnbind.pathFromRoot orders.rows (graphOf taken)
        dbR.serialno ≠ none :=
      fun missing => UnbindCollects.pathFromRoot_eq_none.mp missing reached
    rcases Option.ne_none_iff_exists'.mp path with ⟨text, found⟩
    rw [sabridgeDeleteIfOrphaned, found]
    exact Or.inr (Or.inl ⟨reached, rfl⟩)
  have missing : BridgeUnbind.pathFromRoot orders.rows (graphOf taken)
      dbR.serialno = none :=
    UnbindCollects.pathFromRoot_eq_none.mpr reached
  rw [sabridgeDeleteIfOrphaned, missing]
  by_cases history : dbR.resourcetype = .versionHistory
  · by_cases reads : UnbindHistories.ReadsNone (graphOf taken) dbR
    · rw [UnbindHistories.sabridgeDeleteResource_eq_none reads]
      exact Or.inr (Or.inr
        ⟨reached, Or.inl ⟨isBare_of_readsNone reads, rfl⟩⟩)
    · rw [UnbindHistories.sabridgeDeleteResource_eq reads]
      exact Or.inl (if_pos history)
  · rw [sabridgeDeleteResource_of_plain history]
    dsimp only [Option.map_some]
    rw [if_neg history]
    split
    next after inserts =>
        exact Or.inr (Or.inr
          ⟨reached, Or.inr ⟨after, rfl, collected_of_inserts inserts⟩⟩)
    next => exact Or.inl rfl

/-- The members are listed when their collection is deleted. -/
theorem Collected.leaksNothing
    (leaks : LeaksNothing store)
    (isNext : store.cleanup = resourceId :: rest)
    (collected : Collected store after resourceId rest) :
    LeaksNothing after := by
  intro id present
  rcases (collected.ids id).mp present with ⟨before, left⟩
  have either : id = resourceId ∨ IsCovered after id := by
    refine (leaks id before).of_closed
      (S := fun id => id = resourceId ∨ IsCovered after id)
      (Or.inr isCovered_root) ?_ ?_
    · intro start listed
      by_cases isGone : start = resourceId
      · exact Or.inl isGone
      · rw [isNext] at listed
        have isRest := (List.mem_cons.mp listed).resolve_left isGone
        exact Or.inr (isCovered_of_mem
          (collected.listed start (Or.inl isRest) isGone))
    · intro bind isBound source
      by_cases isGone : bind.resourceId = resourceId
      · exact Or.inl isGone
      · right
        by_cases isColl : bind.collectionId = resourceId
        · have isMember : IsMember store resourceId bind.resourceId :=
            ⟨bind, isBound, isColl, isGone, rfl⟩
          exact isCovered_of_mem
            (collected.listed _ (Or.inr isMember) isGone)
        · exact (source.resolve_left isColl).tail
            ((collected.binds bind).mpr ⟨isBound, isColl, isGone⟩)
  exact either.resolve_left left

/-- A pass that is defined loses and leaks nothing. -/
theorem keeps_collect
    (leaks : LeaksNothing store)
    (does : Does store (.collect orders) after)
    (harmless : IsHarmless store (.collect orders)) :
    LeaksNothing after ∧ LosesNothing store after := by
  have does : (gcMain orders store).Leaves store after := does
  cases isNext : store.cleanup with
  | nil =>
      have same : gcMain orders store = .committed store := by
        unfold gcMain
        rw [isNext]
      rw [same] at does
      rcases does with rfl
      exact ⟨leaks, fun _ present _ => present⟩
  | cons resourceId rest =>
      rcases gcMain_cases orders isNext with
        same | ⟨reached, taken⟩ | ⟨unreached, ⟨bare, -⟩ | ⟨left, done,
          collected⟩⟩
      · rw [same] at does
        rcases does with rfl
        exact ⟨leaks, fun _ present _ => present⟩
      · rw [taken] at does
        rcases does with rfl
        refine ⟨fun id present => ?_, fun _ present _ => present⟩
        have next : IsCovered { store with cleanup := rest } resourceId :=
          IsReached.isCovered reached
        refine (leaks id present).of_closed isCovered_root ?_
          fun bind isBound source => source.tail isBound
        intro start listed
        rw [isNext] at listed
        rcases List.mem_cons.mp listed with rfl | isRest
        · exact next
        · exact isCovered_of_mem isRest
      · exact absurd bare (harmless resourceId rest isNext unreached)
      · rw [done] at does
        rcases does with rfl
        refine ⟨collected.leaksNothing leaks isNext, ?_⟩
        intro id present reached
        exact (collected.ids id).mpr
          ⟨present, fun same => unreached (same ▸ reached)⟩

/-- Only a history can be without versions. -/
theorem isHarmless_of_noHistories
    (plain : ResourceType.versionHistory ∉
      store.resources.map ResourceRow.type) :
    IsHarmless store (.collect orders) := by
  intro resourceId rest _ _ bare
  rcases Option.map_eq_some_iff.mp bare.1 with ⟨row, found, isHistory⟩
  exact plain (isHistory ▸
    List.mem_map_of_mem (List.mem_of_find?_eq_some found))

end Collecting

/-! ## Runs lose and leak nothing -/

/-- What is to hold of an action. -/
def Keeps (store : RebindStore) (action : Action) (after : RebindStore) :
    Prop :=
  LeaksNothing after ∧
    ∀ orders, action = .collect orders → LosesNothing store after

/-- An action that meets its condition does what it is to do. -/
theorem keeps_of_isHarmless
    {store after : RebindStore} {action : Action}
    (leaks : LeaksNothing store)
    (does : Does store action after)
    (harmless : IsHarmless store action) : Keeps store action after := by
  cases action with
  | create new bindId parentId bindname now =>
      exact ⟨leaksNothing_create leaks does, nofun⟩
  | bind bindId resource collection segment now =>
      exact ⟨leaksNothing_bind leaks does, nofun⟩
  | unbind libraries dbR =>
      exact ⟨leaksNothing_unbind leaks does, nofun⟩
  | rebind request fuel move =>
      rcases does with ⟨useGc, rfl, result, done, rfl⟩
      rcases exists_movesBind useGc done with ⟨base, name, moves⟩
      exact ⟨(leaksNothing_rebind_iff leaks moves).mpr harmless, nofun⟩
  | collect orders =>
      have keeps := keeps_collect leaks does harmless
      exact ⟨keeps.1, fun _ _ => keeps.2⟩

/-- Of a move, the condition says whether it does what it is to do. -/
theorem keeps_rebind_iff
    {store after : RebindStore} {request : Request} {fuel : Nat}
    {move : Move}
    (leaks : LeaksNothing store)
    (does : Does store (.rebind request fuel move) after) :
    Keeps store (.rebind request fuel move) after ↔
      IsHarmless store (.rebind request fuel move) := by
  refine ⟨fun keeps => ?_, keeps_of_isHarmless leaks does⟩
  rcases does with ⟨useGc, rfl, result, done, rfl⟩
  rcases exists_movesBind useGc done with ⟨base, name, moves⟩
  exact (leaksNothing_rebind_iff leaks moves).mp keeps.1

theorem leaksNothing_of_run
    {start store : RebindStore}
    (reachable : ∀ id ∈ start.ids, IsReached start id)
    (run : Run IsHarmless start store) : LeaksNothing store := by
  induction run with
  | refl => exact fun id present => (reachable id present).isCovered
  | step _ meets does leaks => exact (keeps_of_isHarmless leaks does meets).1

/--
A run whose moves leave another way to their resources, and whose passes are
defined, loses and leaks nothing.
-/
theorem run_keeps
    (start store : RebindStore)
    (reachable : ∀ id ∈ start.ids, IsReached start id)
    (run : Run IsHarmless start store) :
    LeaksNothing store ∧
      (store.cleanup = [] → ∀ id ∈ store.ids, IsReached store id) ∧
      ∀ orders after, IsHarmless store (.collect orders) →
        Does store (.collect orders) after → LosesNothing store after := by
  have leaks := leaksNothing_of_run reachable run
  refine ⟨leaks, ?_, fun orders after harmless does =>
    (keeps_collect leaks does harmless).2⟩
  intro nothing id present
  rcases leaks id present with ⟨first, rfl | listed, reaches⟩
  · exact reaches
  · rw [nothing] at listed
    cases listed

/-! ## Collections below one another -/

section Examples

/-- The collections `/a` and `/a/b`. -/
def nested : RebindStore where
  binds :=
    { rows := [⟨1, "a".toList, 2, 20, none⟩, ⟨2, "b".toList, 20, 21, none⟩]
      pkey := by decide
      collectionIdKey := by decide
      positive := by decide }
  resources := [exampleRow 2 .collection, exampleRow 20 .collection,
    exampleRow 21 .collection]
  redirectrefs := []
  collections := [⟨2, none⟩, ⟨20, none⟩, ⟨21, none⟩]
  media := []
  principals := []
  versions := []
  vhrs := []
  vcrs := []
  resourcesPkey := by decide
  fkBindCollection := by decide
  fkBindResource := by decide
  nameLength := by decide
  acl := ⟨[⟨2, "2".toList⟩, ⟨20, "2,20".toList⟩, ⟨21, "2,20,21".toList⟩],
    by decide⟩
  cleanup := []

theorem isReached_nested : ∀ id ∈ nested.ids, IsReached nested id := by
  have root : IsReached nested 2 := Multigraph.Reaches.refl _ _
  have isOuter : (⟨1, "a".toList, 2, 20, none⟩ : Bind) ∈
      nested.binds.rows := List.mem_cons_self
  have isInner : (⟨2, "b".toList, 20, 21, none⟩ : Bind) ∈
      nested.binds.rows := List.mem_cons_of_mem _ List.mem_cons_self
  have outer : IsReached nested 20 := IsReached.tail root isOuter
  have inner : IsReached nested 21 := IsReached.tail outer isInner
  intro id present
  have either : id = 2 ∨ id = 20 ∨ id = 21 := by
    simpa [RebindStore.ids, nested, exampleRow] using present
  rcases either with rfl | rfl | rfl
  · exact root
  · exact outer
  · exact inner

/-- The tables after `/a` has been unbound. -/
def unbound : Option RebindStore :=
  (sabridgeUnbindResource exampleRequest.libraries nested
    (recordAt nested "/a".toList)).toOption

/-- What a pass of the collector leaves. -/
def pass (store : RebindStore) : RebindStore :=
  match gcMain ⟨exampleRequest.orders, Sql.RowOrder.stored _⟩ store with
  | .committed after => after
  | _ => store

theorem does_pass (store : RebindStore) :
    Does store (.collect ⟨exampleRequest.orders, Sql.RowOrder.stored _⟩)
      (pass store) := by
  show Pass.Leaves store (pass store) _
  unfold pass
  cases gcMain ⟨exampleRequest.orders, Sql.RowOrder.stored _⟩ store with
  | committed after => rfl
  | rolledBack => rfl
  | undefined => trivial

/-- The collector comes twice, and both collections are gone. -/
theorem run_keeps_nested :
    ∃ store, Run IsHarmless nested store ∧
      store.ids = [2] ∧ store.cleanup = [] ∧ LeaksNothing store := by
  have outcome : unbound.map (fun store =>
      (store.resources.map ResourceRow.type,
        (pass store).resources.map ResourceRow.type,
        (pass (pass store)).ids, (pass (pass store)).cleanup)) =
      some ([.collection, .collection, .collection],
        [.collection, .collection], [2], []) := by
    decide +kernel
  rcases Option.map_eq_some_iff.mp outcome with ⟨store, isUnbound, same⟩
  simp only [Prod.mk.injEq] at same
  rcases same with ⟨before, between, ids, cleanup⟩
  have does : Does nested (.unbind exampleRequest.libraries
      (recordAt nested "/a".toList)) store :=
    ok_of_toOption isUnbound
  have harmless : IsHarmless nested (.unbind exampleRequest.libraries
      (recordAt nested "/a".toList)) := trivial
  have run : Run IsHarmless nested store := Run.refl.step harmless does
  have first : Run IsHarmless nested (pass store) := by
    refine run.step (isHarmless_of_noHistories ?_) (does_pass store)
    rw [before]
    decide
  have second : Run IsHarmless nested (pass (pass store)) := by
    refine first.step (isHarmless_of_noHistories ?_) (does_pass _)
    rw [between]
    decide
  exact ⟨_, second, ids, cleanup,
    (run_keeps nested _ isReached_nested second).1⟩

/-- A request with garbage collection. -/
def collecting : Request := { exampleRequest with useGc := true }

/-- A MOVE of `/a` to `/a/b/c`. -/
def moveBelow : Move where
  store := nested
  rootPath := []
  collPath := "/a/b".toList
  coll := 21
  segment := "c".toList
  parentPath := []
  parent := 2
  name := "a".toList
  source := ⟨1, "a".toList, 2, 20, none⟩
  href := recordAt nested "/a".toList
  newBind := recordAt nested "/a/b/c".toList
  rootEnds := rootEnds_nil
  isSegment := ⟨by decide, by decide⟩
  isName := isSegment_a
  collLeads := ⟨by decide, by decide, by decide⟩
  collType := by decide
  parentLeads := ⟨by decide, by decide, by decide⟩
  parentType := by decide
  isSource := by decide
  hrefRead := read_recordAt (by decide +kernel)
  newBindRead := read_recordAt (by decide +kernel)

/-- Both collections are cut off, and the collector does not come to them. -/
theorem leaks_moveBelow :
    (∀ id ∈ nested.ids, IsReached nested id) ∧ nested.cleanup = [] ∧
      ∃ store, Run (fun _ _ => True) nested store ∧
        store.cleanup = [] ∧ ¬ LeaksNothing store := by
  refine ⟨isReached_nested, rfl, ?_⟩
  have left : (outcome collecting moveBelow).map (fun result =>
      (result.store.ids, result.store.cleanup,
        result.store.binds.rows.map fun bind =>
          (bind.collectionId, bind.resourceId))) =
        some ([2, 20, 21], [], [(21, 20), (20, 21)]) := by
    decide +kernel
  rcases Option.map_eq_some_iff.mp left with ⟨result, isOutcome, same⟩
  simp only [Prod.mk.injEq] at same
  rcases same with ⟨ids, cleanup, binds⟩
  have does : Does nested (.rebind collecting 9 moveBelow) result.store :=
    ⟨rfl, rfl, result, ok_of_toOption isOutcome, rfl⟩
  refine ⟨result.store, Run.refl.step trivial does, cleanup,
    fun leaks => ?_⟩
  · have present : (20 : Id) ∈ result.store.ids := by
      rw [ids]
      decide
    -- nothing but the root itself can be reached
    have isRoot : (20 : Id) = rootCollectionId := by
      refine (leaks 20 present).of_closed
        (S := fun id => id = rootCollectionId) rfl ?_ ?_
      · intro start listed
        rw [cleanup] at listed
        cases listed
      · intro bind listed source
        have ends : (bind.collectionId, bind.resourceId) ∈
            [((21 : Id), (20 : Id)), (20, 21)] :=
          binds ▸ List.mem_map_of_mem listed
        rw [source] at ends
        revert ends
        simp [rootCollectionId]
    revert isRoot
    decide

end Examples

end Limestone.GarbageCollection
