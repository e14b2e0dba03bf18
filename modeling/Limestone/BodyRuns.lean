import Limestone.CopyTreeSteps
import Limestone.MediumUncheckout
import Limestone.UnbindBodies
import Mathlib.Logic.Relation

/-!
# Runs over the bodies

What the creation, the replacement, the copying and the deletion of resources
do to the rows of `media` and to the files, and what holds after any number of
them.  Nothing removes the body that a PUT replaces.
-/

namespace Limestone.BodyRuns

open Library
open BridgeMkcol (Stop)
open BridgeProperty (DavReposResource MediaRow)
open CopyMedium
open CopyTree (HasBodies)
open DbmsBind
open InsertResource (hasBody sabridgeInsertResource)
open MediumUncheckout (Body davReposCloseStream dbmsSetProperty)
open UnbindBodies (BodyItem BodyStore IsCurrent withBody)

/-- The rows of `media`, each with its resource and its hash, and the files. -/
structure Pool where
  rows : List (Id × Text)
  files : List Text

def pool (store : ContentStore) : Pool where
  rows := store.media.map fun row => (row.resourceId, row.sha1)
  files := store.files

def poolOf (store : BodyStore) : Pool where
  rows := store.media.map fun row => (row.resourceId, row.sha1)
  files := store.files

/-- No row has lost its file. -/
def Pool.Backed (pool : Pool) : Prop :=
  SharedFiles.Backed Prod.snd pool.rows pool.files

/-- No file is left without a row. -/
def Pool.Used (pool : Pool) : Prop :=
  SharedFiles.Used Prod.snd pool.rows pool.files

section Pools

variable {store : ContentStore} {bodies : BodyStore}

theorem backed_pool : (pool store).Backed ↔ HasBodies store := by
  simp [Pool.Backed, SharedFiles.Backed, pool, HasBodies]

theorem backed_poolOf :
    (poolOf bodies).Backed ↔
      SharedFiles.Backed MediaRow.sha1 bodies.media bodies.files := by
  simp [Pool.Backed, SharedFiles.Backed, poolOf]

end Pools

/-! ## Creating and replacing -/

section Writing

variable {libraries : VersionLinks.Libraries} {request : Request}
  {store middle after : ContentStore} {parentId : Id} {type : ResourceType}
  {r newR dbR : DavReposResource} {body : Body}

/-- The row and the file of an empty body. -/
theorem media_sabridgeCreateEmptyBody
    (created : sabridgeCreateEmptyBody request store r = .ok (after, newR)) :
    newR.serialno = r.serialno ∧
      (∃ row : MediaRow, row.resourceId = r.serialno ∧ row.sha1 = emptySha1 ∧
        after.media = store.media ++ [row]) ∧
      after.files = store.files.insert emptySha1 := by
  unfold sabridgeCreateEmptyBody at created
  rcases bind_eq_ok.mp created with ⟨⟨inserted, record⟩, isInserted, ends⟩
  rcases Prod.mk.inj (Except.ok.inj ends) with ⟨rfl, rfl⟩
  rcases Prod.mk.inj (Except.ok.inj isInserted) with ⟨rfl, rfl⟩
  exact ⟨rfl, ⟨_, rfl, rfl, rfl⟩, rfl⟩

theorem hasBodies_sabridgeCreateEmptyBody
    (created : sabridgeCreateEmptyBody request store r = .ok (after, newR))
    (has : HasBodies store) : HasBodies after := by
  rcases media_sabridgeCreateEmptyBody created with
    ⟨-, ⟨new, -, isEmpty, rows⟩, files⟩
  intro row listed
  rw [rows] at listed
  rw [files, List.mem_insert_iff]
  rcases List.mem_append.mp listed with old | single
  · exact Or.inr (has row old)
  · rw [List.mem_singleton.mp single]
    exact Or.inl isEmpty

theorem hasBodies_sabridgeInsertResource
    (inserted : sabridgeInsertResource libraries request store parentId type
      r = .ok (after, newR))
    (has : HasBodies store) : HasBodies after := by
  unfold sabridgeInsertResource at inserted
  rcases bind_eq_ok.mp inserted with ⟨parent, -, rest⟩
  rcases bind_eq_ok.mp rest with ⟨⟨withBody, record⟩, stepped, rest⟩
  have first : HasBodies withBody := by
    split at stepped
    · exact hasBodies_sabridgeCreateEmptyBody stepped has
    · rcases Prod.mk.inj (Except.ok.inj stepped) with ⟨rfl, rfl⟩
      exact has
  rcases bind_eq_ok.mp rest with ⟨⟨collected, record'⟩, collects, rest⟩
  have second : HasBodies collected := by
    split at collects
    · split at collects
      · cases collects
      · rcases Prod.mk.inj (Except.ok.inj collects) with ⟨rfl, rfl⟩
        exact first
    · rcases Prod.mk.inj (Except.ok.inj collects) with ⟨rfl, rfl⟩
      exact first
  dsimp only at rest
  split at rest
  · rcases Prod.mk.inj (Except.ok.inj rest) with ⟨rfl, rfl⟩
    exact second
  · cases rest
  · split at rest
    · cases rest
    next bound =>
      rcases Prod.mk.inj (Except.ok.inj rest) with ⟨rfl, rfl⟩
      rcases InsertResource.dbmsInsertBind_eq_ok bound with ⟨⟨binds, rfl⟩, -⟩
      exact second

/-- What a PUT writes for a resource that has a row. -/
def replaced (dbR : DavReposResource) (body : Body) (row : MediaRow) :
    MediaRow :=
  if row.resourceId = dbR.serialno then
    { row with
      size := body.getcontentlength
      mimetype := body.getcontenttype
      sha1 := body.sha1str }
  else row

/-- The part of a PUT that writes the rows. -/
theorem media_closed
    (closed : (do
      let dbR := { dbR with
        getcontenttype := body.getcontenttype
        sha1str := some body.sha1str
        getcontentlength := body.getcontentlength }
      let store ← dbmsSetProperty store dbR
      let (store, _) ← dbmsUpdateMediaProps request store dbR
      return MediumUncheckout.sabridgePutResourceFile store body.sha1str) =
        .ok after) :
    after.media = store.media.map (replaced dbR body) ∧
      after.files = store.files.insert body.sha1str := by
  rcases bind_eq_ok.mp closed with ⟨written, set, rest⟩
  rcases bind_eq_ok.mp rest with ⟨⟨updated, _⟩, isUpdated, put⟩
  have kept : written.media = store.media ∧ written.files = store.files := by
    unfold dbmsSetProperty at set
    simp only at set
    split at set
    · rcases Except.ok.inj set with rfl
      exact ⟨rfl, rfl⟩
    · cases set
  rcases Except.ok.inj put with rfl
  rcases Prod.mk.inj (Except.ok.inj isUpdated) with ⟨rfl, -⟩
  constructor
  · show written.media.map _ = _
    rw [kept.1]
    rfl
  · show written.files.insert _ = _
    rw [kept.2]

/-- A PUT over a resource with a body. -/
theorem media_davReposCloseStream
    (isMedium : dbR.resourcetype = some .resource ∨
      dbR.resourcetype = some .versioned)
    (closed : davReposCloseStream request store dbR body = .ok after) :
    after.media = store.media.map (replaced dbR body) ∧
      after.files = store.files.insert body.sha1str := by
  have noLockNull : ¬ dbR.resourcetype = some .lockNull := by
    rcases isMedium with type | type <;> simp [type]
  unfold davReposCloseStream at closed
  rw [if_neg noLockNull] at closed
  rcases bind_eq_ok.mp closed with ⟨⟨same, record⟩, unchanged, rest⟩
  rcases Prod.mk.inj (Except.ok.inj unchanged) with ⟨rfl, rfl⟩
  dsimp only at rest
  rw [if_pos isMedium] at rest
  exact media_closed rest

theorem hasBodies_replaced
    (rows : after.media = store.media.map (replaced dbR body))
    (files : after.files = store.files.insert body.sha1str)
    (has : HasBodies store) : HasBodies after := by
  intro row listed
  rw [rows] at listed
  rcases List.mem_map.mp listed with ⟨old, isOld, rfl⟩
  rw [files, List.mem_insert_iff]
  unfold replaced
  split
  · exact Or.inl rfl
  · exact Or.inr (has old isOld)

theorem hasBodies_davReposCloseStream
    (closed : davReposCloseStream request store dbR body = .ok after)
    (has : HasBodies store) : HasBodies after := by
  unfold davReposCloseStream at closed
  rcases bind_eq_ok.mp closed with ⟨⟨middle, record⟩, made, rest⟩
  have first : HasBodies middle := by
    split at made
    · rcases bind_eq_ok.mp made with ⟨⟨created, created'⟩, isCreated, ends⟩
      rcases Prod.mk.inj (Except.ok.inj ends) with ⟨rfl, rfl⟩
      exact hasBodies_sabridgeCreateEmptyBody isCreated has
    · rcases Prod.mk.inj (Except.ok.inj made) with ⟨rfl, rfl⟩
      exact has
  dsimp only at rest
  split at rest
  · rcases media_closed rest with ⟨rows, files⟩
    exact hasBodies_replaced rows files first
  · rcases Except.ok.inj rest with rfl
    exact first

/--
A PUT leaves the file of the body that it replaces.  All files are still in
use just if the body is the same, or is the body of another resource, too.
-/
theorem davReposCloseStream_used_iff
    (isMedium : dbR.resourcetype = some .resource ∨
      dbR.resourcetype = some .versioned)
    (hasRow : dbR.serialno ∈ store.media.map MediaRow.resourceId)
    (has : HasBodies store)
    (used : (pool store).Used)
    (closed : davReposCloseStream request store dbR body = .ok after) :
    (pool after).Used ↔
      ∀ row ∈ store.media, row.resourceId = dbR.serialno →
        row.sha1 = body.sha1str ∨ ∃ other ∈ store.media,
          other.resourceId ≠ dbR.serialno ∧ other.sha1 = row.sha1 := by
  rcases media_davReposCloseStream isMedium closed with ⟨rows, files⟩
  have usedAfter : (pool after).Used ↔ ∀ file ∈ store.files.insert body.sha1str,
      ∃ row ∈ store.media, (replaced dbR body row).sha1 = file := by
    simp [Pool.Used, SharedFiles.Used, pool, rows, files]
  have usedBefore : ∀ file ∈ store.files, ∃ row ∈ store.media,
      row.sha1 = file := by
    simpa [Pool.Used, SharedFiles.Used, pool] using used
  have isNew : ∀ row, row.resourceId = dbR.serialno →
      (replaced dbR body row).sha1 = body.sha1str := by
    intro row same
    simp [replaced, same]
  have isOld : ∀ row, row.resourceId ≠ dbR.serialno →
      (replaced dbR body row).sha1 = row.sha1 := by
    intro row other
    simp [replaced, other]
  rw [usedAfter]
  constructor
  · intro still row listed same
    rcases still row.sha1 (List.mem_insert_of_mem (has row listed)) with
      ⟨other, otherListed, isHash⟩
    by_cases mine : other.resourceId = dbR.serialno
    · exact Or.inl (isHash.symm.trans (isNew other mine))
    · exact Or.inr ⟨other, otherListed, mine,
        (isOld other mine).symm.trans isHash⟩
  · intro shared file filed
    rcases List.mem_map.mp hasRow with ⟨mine, mineListed, isMine⟩
    rcases List.mem_insert_iff.mp filed with rfl | old
    · exact ⟨mine, mineListed, isNew mine isMine⟩
    · rcases usedBefore file old with ⟨row, listed, rfl⟩
      by_cases same : row.resourceId = dbR.serialno
      · rcases shared row listed same with
          isBody | ⟨other, there, differ, hash⟩
        · exact ⟨row, listed, (isNew row same).trans isBody.symm⟩
        · exact ⟨other, there, (isOld other differ).trans hash⟩
      · exact ⟨row, listed, isOld row same⟩

end Writing

/-! ## Records -/

/-- The hash of the record is the one of a row of its resource. -/
def IsOwn (store : ContentStore) (dbR : DavReposResource) : Prop :=
  ∀ sha1, dbR.sha1str = some sha1 →
    ∃ row ∈ store.media, row.resourceId = dbR.serialno ∧ row.sha1 = sha1

/-! ## Runs -/

/--
What a call of the bridge that ends without a fault does to the bodies.  A copy
is given a record of its destination, and what is deleted is as it has been
read.
-/
inductive BodyStep : Pool → Pool → Prop
  | insertResource
      {libraries : VersionLinks.Libraries} {request : Request}
      {parentId : Id} {type : ResourceType} {store after : ContentStore}
      {r newR : DavReposResource}
      (inserted : sabridgeInsertResource libraries request store parentId type
        r = .ok (after, newR)) :
      BodyStep (pool store) (pool after)
  | closeStream
      {request : Request} {store after : ContentStore}
      {dbR : DavReposResource} {body : Body}
      (closed : davReposCloseStream request store dbR body = .ok after) :
      BodyStep (pool store) (pool after)
  | copyMedium
      {request : Request} {store after : ContentStore}
      {src dest newDest : DavReposResource}
      (own : IsOwn store dest)
      (copied : sabridgeCopyMedium request store src dest =
        .ok (after, newDest)) :
      BodyStep (pool store) (pool after)
  | deleteResource
      {keepFiles : Bool} {store after : BodyStore}
      {dbR : DbmsCollection.DavReposResource}
      (typed : UnbindBodies.IsTyped store)
      (row : (dbR.serialno, dbR.resourcetype) ∈ store.resources)
      (deleted : UnbindBodies.sabridgeDeleteResource keepFiles store
        (withBody store dbR) = some after) :
      BodyStep (poolOf store) (poolOf after)
  | unbindResource
      {keepFiles : Bool} {fuel : Nat} {orders : BridgeUnbind.RowOrders}
      {store after : BodyStore} {dbR : DbmsCollection.DavReposResource}
      (typed : UnbindBodies.IsTyped store)
      (hang : ∀ id, UnbindBodies.SharesBody store id →
        UnbindBodies.HangsOnce store.toGraphStore after.ids id)
      (row : (dbR.serialno, dbR.resourcetype) ∈ store.resources)
      (unbound : UnbindBodies.sabridgeUnbindResource keepFiles fuel orders
        store (withBody store dbR) = some after) :
      BodyStep (poolOf store) (poolOf after)

section Runs

variable {before after : Pool}

/-- What is stored but not exactly. -/
theorem isStored_of_backed
    {store : BodyStore}
    (backed : (poolOf store).Backed) : UnbindBodies.IsStored False store :=
  ⟨backed_poolOf.mp backed, False.elim⟩

theorem BodyStep.backed
    (step : BodyStep before after)
    (backed : before.Backed) : after.Backed := by
  cases step with
  | insertResource inserted =>
      rw [backed_pool] at backed ⊢
      exact hasBodies_sabridgeInsertResource inserted backed
  | closeStream closed =>
      rw [backed_pool] at backed ⊢
      exact hasBodies_davReposCloseStream closed backed
  | copyMedium own copied =>
      rw [backed_pool] at backed ⊢
      rcases sabridgeCopyMedium_spec copied with ⟨name, destName, spec⟩
      exact CopyTree.hasBodies_of_copiedMedium spec own backed
  | @deleteResource keepFiles store after dbR typed row deleted =>
      rcases UnbindBodies.eq_afterDelete deleted with rfl
      have isItem := UnbindBodies.isItem_withBody row
      have stored := @UnbindBodies.IsStored.delete keepFiles False store store
        (withBody store dbR) False.elim (isStored_of_backed backed) typed
        (UnbindBodies.Shrinks.refl store) isItem
        fun _ => List.mem_map_of_mem row
      exact backed_poolOf.mpr stored.backed
  | unbindResource typed hang row unbound =>
      have kept := UnbindBodies.isStored_sabridgeUnbindResource False.elim
        (isStored_of_backed backed) typed hang row unbound
      exact backed_poolOf.mpr kept.backed

/-- No run of calls loses a body that a row refers to. -/
theorem backed_of_run
    (run : Relation.ReflTransGen BodyStep before after)
    (backed : before.Backed) : after.Backed := by
  induction run with
  | refl => exact backed
  | tail _ step induction => exact step.backed induction

end Runs

/-! ## One medium and two -/

section Examples

open MediumUncheckout (inHistory oneMedium)

/-- The record of `/m`, and what is put there. -/
def mediumRecord : DavReposResource where
  serialno := 3
  resourcetype := some .versioned
  createdAt := some "2007".toList
  uuid := some "3".toList
  displayname := some "m".toList
  sha1str := some "a".toList

def otherBody : Body where
  getcontentlength := 2
  getcontenttype := none
  sha1str := "b".toList

theorem closeStream_used_oneMedium :
    ∃ after, davReposCloseStream RestoreVcc.someRequest
        (oneMedium inHistory (by decide)) mediumRecord otherBody = .ok after ∧
      ((pool after).Used ↔
        ∀ row ∈ (oneMedium inHistory (by decide)).media, row.resourceId = 3 →
          row.sha1 = "b".toList ∨
            ∃ other ∈ (oneMedium inHistory (by decide)).media,
              other.resourceId ≠ 3 ∧ other.sha1 = row.sha1) := by
  have has : HasBodies (oneMedium inHistory (by decide)) := by
    unfold HasBodies
    decide
  have used : (pool (oneMedium inHistory (by decide))).Used := by
    unfold Pool.Used SharedFiles.Used
    decide
  have hasRow : mediumRecord.serialno ∈
      (oneMedium inHistory (by decide)).media.map MediaRow.resourceId := by
    decide
  exact ⟨_, rfl, davReposCloseStream_used_iff (Or.inr rfl) hasRow has used
    rfl⟩

/-- `/a` is deleted, and the body that `/n` shares is still there. -/
theorem backed_hanging :
    ∃ after, Relation.ReflTransGen BodyStep (poolOf UnbindBodies.hanging)
        after ∧
      after.Backed := by
  have backed : (poolOf UnbindBodies.hanging).Backed := by
    unfold Pool.Backed SharedFiles.Backed
    decide
  have stops : (UnbindBodies.sabridgeUnbindResource false 12
      UnbindBodies.storedOrders UnbindBodies.hanging
      (withBody UnbindBodies.hanging UnbindBodies.folder)).isSome = true := by
    decide +kernel
  rcases Option.isSome_iff_exists.mp stops with ⟨after, unbound⟩
  have run := Relation.ReflTransGen.single (BodyStep.unbindResource
    UnbindBodies.isTyped_hanging
    (fun id _ => UnbindBodies.hangsOnce_hanging after.ids id) (by decide)
    unbound)
  exact ⟨poolOf after, run, backed_of_run run backed⟩

end Examples

end Limestone.BodyRuns
