import Limestone.MoveAsRebind

/-!
# The garbage collector: `gc_main`

With garbage collection a request that takes a bind away lists the resource of
the bind in `cleanup`, and nothing else is deleted.  The collector takes one
row after another, deletes its resource if there is no path from the root, and
then lists the members it had.  Its record has no `resource`, so that no other
record can be made from it: a pass over a version, or over a history that is to
be deleted, writes through NULL.

Every request and every pass of the collector is a transaction: one that fails
leaves no trace.  Bodies, locks and the access control are left out.
-/

namespace Limestone.GarbageCollection

open Library
open BridgeProperty hiding sabridgeGetProperty
open BridgeUnbind (RowOrders sabridgeDeleteIfOrphaned)
open DbmsBind
open MoveAsRebind
open PathSearch (bindGraph)
open Rebind
open VersionLinks (Libraries)

/-! ## Requests -/

/-- `dbms_insert_bind`; `bindId` is what the sequence gives. -/
def dbmsInsertBind (store : RebindStore) (bindId resourceId collectionId : Id)
    (bindname now : Text) : Except Failure RebindStore :=
  match taken : DbmsProperties.varchar BridgeMkcol.maxNameLength bindname with
  | none => failed "Could not insert into binds table."
  | some name =>
      let bind : Bind := ⟨bindId, name, collectionId, resourceId, some now⟩
      if fits : bindId ∉ store.binds.rows.map Bind.id ∧
          bind.key ∉ store.binds.rows.map Bind.key ∧
          resourceId ∈ store.ids ∧ collectionId ∈ store.ids ∧
          0 < bindId ∧ 0 < resourceId then
        .ok
          { store with
            binds :=
              { rows := store.binds.rows ++ [bind]
                pkey := by
                  rw [List.map_append, List.map_singleton,
                    ← List.concat_eq_append]
                  exact store.binds.pkey.concat fits.1
                collectionIdKey := by
                  rw [List.map_append, List.map_singleton,
                    ← List.concat_eq_append]
                  exact store.binds.collectionIdKey.concat fits.2.1
                positive := List.forall_mem_append.mpr
                  ⟨store.binds.positive,
                    List.forall_mem_singleton.mpr fits.2.2.2.2⟩ }
            fkBindCollection := List.forall_mem_append.mpr
              ⟨store.fkBindCollection,
                List.forall_mem_singleton.mpr fits.2.2.2.1⟩
            fkBindResource := List.forall_mem_append.mpr
              ⟨store.fkBindResource,
                List.forall_mem_singleton.mpr fits.2.2.1⟩
            nameLength := List.forall_mem_append.mpr
              ⟨store.nameLength, List.forall_mem_singleton.mpr
                (DbmsProperties.varchar_length taken)⟩ }
      else failed "Could not insert into binds table."

/-- The rows of a new resource, with the id that the sequence gives. -/
structure NewRows where
  row : ResourceRow
  media : List MediaRow
  collections : List CollectionRow
  principals : List PrincipalRow

/--
`sabridge_insert_resource`: the rows of a resource, and its bind in the
collection that its URI names.
-/
def sabridgeInsertResource (store : RebindStore) (new : NewRows)
    (bindId parentId : Id) (bindname now : Text) :
    Except Failure RebindStore :=
  -- the parent has been read before
  if fresh : new.row.id ∉ store.ids ∧ parentId ∈ store.ids then
    dbmsInsertBind
      { store with
        resources := store.resources ++ [new.row]
        media := store.media ++ new.media
        collections := store.collections ++ new.collections
        principals := store.principals ++ new.principals
        resourcesPkey := by
          rw [List.map_append, List.map_singleton, ← List.concat_eq_append]
          exact store.resourcesPkey.concat fresh.1
        fkBindCollection := fun bind listed => by
          rw [List.map_append]
          exact List.mem_append_left _ (store.fkBindCollection bind listed)
        fkBindResource := fun bind listed => by
          rw [List.map_append]
          exact List.mem_append_left _ (store.fkBindResource bind listed) }
      bindId new.row.id parentId bindname now
  else failed "DBMS error during insert to 'resources'"

/-- `dav_repos_bind_resource`. -/
def davReposBindResource (store : RebindStore) (bindId : Id)
    (resource collection : DavReposResource) (segment now : Text) :
    Except Failure RebindStore :=
  dbmsInsertBind store bindId resource.serialno collection.serialno segment now

/-- The bind that the URI of a record ends with is deleted. -/
def deleteBindOf (libraries : Libraries) (store : RebindStore)
    (dbR : DavReposResource) : Except Failure RebindStore :=
  match dbR.uri with
  | none => .ok store
  | some uri => do
      let parent ← sabridgeRetrieveParent libraries store.toPropertyTables dbR
      return dbmsDeleteBind store parent.serialno dbR.serialno (basename uri)

/-- `sabridge_unbind_resource` with garbage collection. -/
def sabridgeUnbindResource (libraries : Libraries) (store : RebindStore)
    (dbR : DavReposResource) : Except Failure RebindStore := do
  let store ← deleteBindOf libraries store dbR
  dbmsInsertCleanupReqs (Sql.RowOrder.stored Id) store [dbR.serialno]

/-! ## The collector -/

/-- `dbms_get_child_binds` with `exclude_self`: the ids of the resources. -/
def dbmsGetChildBinds (store : RebindStore) (serialno : Id) : List Id :=
  ((store.binds.rows.filter fun bind =>
    bind.collectionId == serialno && bind.resourceId != bind.collectionId).map
      Bind.resourceId).reverse

/-- The record of a resource that is to be cleaned up. -/
def cleanupRecord (store : RebindStore) (resourceId : Id) :
    DbmsCollection.DavReposResource where
  serialno := resourceId
  resourcetype := (store.typeOf resourceId).getD .lockNull
  uri := none
  parentId := 0
  bindId := 0
  hasBind := false

/-- The orders in which queries return their rows. -/
structure CollectorOrders where
  rows : RowOrders
  ids : Sql.RowOrder Id

/--
`dbms_get_version_resource_props`: the version number is written to a record
that `sabridge_new_dbr_from_dbr` has left NULL.
-/
def readsVersion (store : RebindStore)
    (dbR : DbmsCollection.DavReposResource) : Bool :=
  (dbR.resourcetype == .version || dbR.resourcetype == .collectionVersion) &&
    store.versions.any fun version => version.resourceId == dbR.serialno

/-- What a pass comes to. -/
inductive Pass where
  | committed (after : RebindStore)
  | rolledBack
  /-- A pointer is used that has not been set. -/
  | undefined

/-- What is left after a pass; nothing is known where it is undefined. -/
def Pass.Leaves (store after : RebindStore) : Pass → Prop
  | .committed left => after = left
  | .rolledBack => after = store
  | .undefined => True

/-- One pass of the loop of `gc_main`. -/
def gcMain (orders : CollectorOrders) (store : RebindStore) : Pass :=
  match store.cleanup with
  | [] => .committed store
  | resourceId :: rest =>
      let taken := { store with cleanup := rest }
      let dbR := cleanupRecord taken resourceId
      -- `sabridge_get_property`
      if readsVersion taken dbR then .rolledBack
      else
        let childBinds := dbmsGetChildBinds taken resourceId
        match sabridgeDeleteIfOrphaned orders.rows (graphOf taken) dbR with
        | none => .undefined
        | some (_, false) => .committed taken
        | some (graph, true) =>
            -- `dbms_get_vhr_versions` writes to records for the versions
            if dbR.resourcetype = .versionHistory then .rolledBack
            else
              match dbmsInsertCleanupReqs orders.ids (taken.restrict graph)
                  childBinds with
              | .ok after => .committed after
              | .error _ => .rolledBack

/-! ## Runs -/

/-- A request, or a pass of the collector. -/
inductive Action where
  | create (new : NewRows) (bindId parentId : Id) (bindname now : Text)
  | bind (bindId : Id) (resource collection : DavReposResource)
      (segment now : Text)
  | unbind (libraries : Libraries) (dbR : DavReposResource)
  | rebind (request : Request) (fuel : Nat) (move : Move)
  | collect (orders : CollectorOrders)

/-- What an action that is committed leaves, or a pass of the collector. -/
def Does (store : RebindStore) : Action → RebindStore → Prop
  | .create new bindId parentId bindname now, after =>
      sabridgeInsertResource store new bindId parentId bindname now =
        .ok after
  | .bind bindId resource collection segment now, after =>
      davReposBindResource store bindId resource collection segment now =
        .ok after
  | .unbind libraries dbR, after =>
      sabridgeUnbindResource libraries store dbR = .ok after
  | .rebind request fuel move, after =>
      request.useGc = true ∧ move.store = store ∧
        ∃ result, davReposRebindResource request fuel move.store move.coll
          move.segment move.href move.newBind = .ok result ∧
            result.store = after
  | .collect orders, after => (gcMain orders store).Leaves store after

/-- A run whose actions all meet a condition on the tables before them. -/
inductive Run (Meets : RebindStore → Action → Prop) (start : RebindStore) :
    RebindStore → Prop
  | refl : Run Meets start start
  | step {store after : RebindStore} {action : Action}
      (run : Run Meets start store)
      (meets : Meets store action)
      (does : Does store action after) : Run Meets start after

/-! ## What is to hold -/

/-- A way of binds leads from the root to the resource. -/
def IsReached (store : RebindStore) (id : Id) : Prop :=
  (bindGraph store.binds.rows).Reaches rootCollectionId id

/-- A way of binds leads from the root or from a listed resource. -/
def IsCovered (store : RebindStore) (id : Id) : Prop :=
  ∃ start, (start = rootCollectionId ∨ start ∈ store.cleanup) ∧
    (bindGraph store.binds.rows).Reaches start id

/-- No resource is left that the collector does not come to. -/
def LeaksNothing (store : RebindStore) : Prop :=
  ∀ id ∈ store.ids, IsCovered store id

/-- No resource is deleted that can be reached from the root. -/
def LosesNothing (store after : RebindStore) : Prop :=
  ∀ id ∈ store.ids, IsReached store id → id ∈ after.ids

/-! ## The condition -/

/--
A way leads to the resource that uses neither the bind that is moved nor the
one that is overwritten: from the root, from a listed resource or from the one
that is overwritten.
-/
def IsSpared (move : Move) (id : Id) : Prop :=
  ∃ start, (start = rootCollectionId ∨ start ∈ move.store.cleanup ∨
      move.target.map Bind.resourceId = some start) ∧
    ((bindGraph move.store.binds.rows).restrict fun bind =>
      bind ≠ move.source ∧ move.target ≠ some bind).Reaches start id

/-- There is such a way to the collection, or to the moved resource. -/
def StaysCovered (move : Move) : Prop :=
  IsSpared move move.coll ∨ IsSpared move move.moved

/-- A member of a collection that is not the collection itself. -/
def IsMember (store : RebindStore) (collectionId id : Id) : Prop :=
  ∃ bind ∈ store.binds.rows, bind.collectionId = collectionId ∧
    bind.resourceId ≠ collectionId ∧ bind.resourceId = id

/-- A version history without versions. -/
def IsBare (store : RebindStore) (resourceId : Id) : Prop :=
  store.typeOf resourceId = some .versionHistory ∧
    ∀ version ∈ store.versions, version.vhrId = resourceId →
      version.resourceId ∉ store.ids

/-- An action that neither loses nor leaks a resource. -/
def IsHarmless (store : RebindStore) : Action → Prop
  | .rebind _ _ move => StaysCovered move
  | .collect _ =>
      ∀ resourceId rest, store.cleanup = resourceId :: rest →
        ¬ IsReached store resourceId → ¬ IsBare store resourceId
  | _ => True

/-! ## Covered resources -/

section Covering

variable {store after : RebindStore} {id : Id} {bind : Bind}

theorem IsReached.tail
    (reached : IsReached store bind.collectionId)
    (listed : bind ∈ store.binds.rows) : IsReached store bind.resourceId :=
  Multigraph.Reaches.tail (G := bindGraph store.binds.rows) reached listed

theorem IsCovered.of_closed
    {S : Id → Prop}
    (covered : IsCovered store id)
    (root : S rootCollectionId)
    (listed : ∀ start ∈ store.cleanup, S start)
    (step : ∀ bind ∈ store.binds.rows, S bind.collectionId →
      S bind.resourceId) : S id := by
  rcases covered with ⟨start, starts, reaches⟩
  refine reaches.mem_of_closed ?_ fun bind present => step bind present
  rcases starts with rfl | isListed
  · exact root
  · exact listed start isListed

theorem isCovered_root : IsCovered store rootCollectionId :=
  ⟨rootCollectionId, Or.inl rfl, Multigraph.Reaches.refl _ _⟩

theorem isCovered_of_mem (listed : id ∈ store.cleanup) : IsCovered store id :=
  ⟨id, Or.inr listed, Multigraph.Reaches.refl _ _⟩

theorem IsCovered.tail
    (covered : IsCovered store bind.collectionId)
    (listed : bind ∈ store.binds.rows) :
    IsCovered store bind.resourceId := by
  rcases covered with ⟨start, starts, reaches⟩
  exact ⟨start, starts, Multigraph.Reaches.tail
    (G := bindGraph store.binds.rows) reaches listed⟩

theorem IsReached.isCovered (reached : IsReached store id) :
    IsCovered store id :=
  ⟨rootCollectionId, Or.inl rfl, reached⟩

/-- Ways of binds that there still are. -/
theorem IsCovered.of_restrict
    {keep : Bind → Prop} {start : Id}
    (covered : IsCovered after start)
    (kept : ∀ bind ∈ store.binds.rows, keep bind → bind ∈ after.binds.rows)
    (reaches : ((bindGraph store.binds.rows).restrict keep).Reaches start
      id) : IsCovered after id := by
  refine reaches.mem_of_closed (S := IsCovered after) covered ?_
  rintro other ⟨present, keeps⟩ source
  exact IsCovered.tail source (kept other present keeps)

theorem IsSpared.tail
    {move : Move}
    (spared : IsSpared move bind.collectionId)
    (listed : bind ∈ move.store.binds.rows)
    (notSource : bind ≠ move.source)
    (notTarget : move.target ≠ some bind) :
    IsSpared move bind.resourceId := by
  rcases spared with ⟨start, starts, reaches⟩
  exact ⟨start, starts, Multigraph.Reaches.tail
    (G := (bindGraph move.store.binds.rows).restrict fun other =>
      other ≠ move.source ∧ move.target ≠ some other) reaches
    ⟨listed, notSource, notTarget⟩⟩

/-- An action that takes no bind away, or only to listed resources. -/
theorem leaksNothing_of_kept
    (leaks : LeaksNothing store)
    (listed : ∀ start ∈ store.cleanup, start ∈ after.cleanup)
    (kept : ∀ bind ∈ store.binds.rows, bind ∈ after.binds.rows ∨
      IsCovered after bind.resourceId)
    (known : ∀ id ∈ after.ids, id ∈ store.ids ∨ IsCovered after id) :
    LeaksNothing after := by
  intro id present
  rcases known id present with before | covered
  · refine (leaks id before).of_closed isCovered_root
      (fun start isListed => isCovered_of_mem (listed start isListed)) ?_
    intro bind isBound source
    rcases kept bind isBound with isKept | covered
    · exact source.tail isKept
    · exact covered
  · exact covered

end Covering

end Limestone.GarbageCollection
