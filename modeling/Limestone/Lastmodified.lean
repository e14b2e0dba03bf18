import Limestone.AncestorNotification
import Mathlib.Data.List.MinMax
import Mathlib.Logic.Relation

/-!
# The column `lastmodified`

A script fills the column for an old database: one recursive query walks up
from all media at once, and what it comes by gets the latest of their times.
Afterwards every statement that writes a row of `media` sets the column for
the ancestors of the medium.  Both together keep the column of a collection at
the latest time of the media below it.

The times of the media are kept beside the tables.  The database reads texts
as timestamps, which are in a linear order.
-/

namespace Limestone.Lastmodified

open Library DbmsBind BridgeProperty CopyMedium PathSearch
open AncestorNotification (aboveHome IsNotified)
open BridgeMkcol (Stop)

/-! ## The script -/

/-- A row of `bus(resource_id, updated_at, visited)`. -/
structure Bus where
  resourceId : Id
  updatedAt : Text
  visited : List Id
deriving DecidableEq, Repr

/-- The collection of a bind behind the resources that a row has come by. -/
def Bus.next (row : Bus) (bind : Bind) : Bus :=
  ⟨bind.collectionId, row.updatedAt, row.visited ++ [bind.collectionId]⟩

/-- The binds with which the recursive part joins a row. -/
def joins (row : Bus) (bind : Bind) : Bool :=
  bind.resourceId == row.resourceId &&
    !decide (bind.collectionId ∈ row.visited)

/-- The rows that a row is joined to. -/
def expand (binds : List Bind) (row : Bus) : List Bus :=
  (binds.filter (joins row)).map row.next

/-- The row of a medium, with its `updated_at`. -/
def seed (medium : Id × Text) : Bus :=
  ⟨medium.1, medium.2, [medium.1]⟩

section Script

variable {Time : Type} [LinearOrder Time] (timestamp : Text → Time)

/-- `MAX(updated_at)` of the rows of a resource. -/
def maxUpdatedAt (rows : List Bus) (id : Id) : Option Text :=
  ((rows.filter fun row => row.resourceId == id).map Bus.updatedAt).argmax
    timestamp

/-- The groups; each is of another resource, so that their order is free. -/
def groups (rows : List Bus) : List (Id × Text) :=
  (rows.map Bus.resourceId).dedup.filterMap fun id =>
    (maxUpdatedAt timestamp rows id).map fun text => (id, text)

/-- The UPDATE for one group. -/
def updateLastmodified (store : ContentStore) (group : Id × Text) :
    ContentStore :=
  store.updateResources
    (fun row =>
      if row.id = group.1 then { row with lastmodified := some group.2 }
      else row)
    (fun row => by split <;> rfl)

/--
`set_resource_lastmodified.rb`, unless the number of rounds is too small for
its query.
-/
def setResourceLastmodified (rounds : Nat) (store : ContentStore)
    (media : List (Id × Text)) : Option ContentStore :=
  (RecursiveUnion.evaluate (expand store.binds.rows) rounds
      (media.map seed)).map fun rows =>
    (groups timestamp rows).foldl updateLastmodified store

end Script

/-! ## Media below a collection -/

/-- The medium is the resource, or binds lead to it from there. -/
def IsBelow (binds : List Bind) (id medium : Id) : Prop :=
  (bindGraph binds).Reaches id medium

/-- The text is a time of a medium below, and none of them is later. -/
structure IsLatest {Time : Type} [LinearOrder Time] (timestamp : Text → Time)
    (binds : List Bind) (media : List (Id × Text)) (id : Id) (text : Text) :
    Prop where
  isTime : ∃ medium ∈ media, IsBelow binds id medium.1 ∧ medium.2 = text
  latest : ∀ medium ∈ media, IsBelow binds id medium.1 →
    timestamp medium.2 ≤ timestamp text

/-- There is something below the resource. -/
def HasMedia (binds : List Bind) (media : List (Id × Text)) (id : Id) : Prop :=
  ∃ medium ∈ media, IsBelow binds id medium.1

section Query

variable {binds : List Bind} {bind : Bind} {row next : Bus} {rows : List Bus}
  {media : List (Id × Text)} {id : Id} {text : Text} {rounds : Nat}

theorem mem_expand :
    next ∈ expand binds row ↔
      ∃ bind ∈ binds, bind.resourceId = row.resourceId ∧
        bind.collectionId ∉ row.visited ∧ row.next bind = next := by
  simp [expand, joins, and_assoc]

/-- The binds whose collections a row has not come by. -/
def rank (binds : List Bind) (row : Bus) : Nat :=
  Loop.unvisited Bind.collectionId binds row.visited

theorem rank_lowers (joined : next ∈ expand binds row) :
    rank binds next < rank binds row := by
  rcases mem_expand.mp joined with ⟨bind, member, -, unseen, rfl⟩
  exact Loop.unvisited_lt member unseen

/-- The row is one of a resource above the medium of its time. -/
theorem isBelow_of_derives
    (derives : RecursiveUnion.Derives (expand binds) (media.map seed) row) :
    ∃ medium ∈ media, IsBelow binds row.resourceId medium.1 ∧
      medium.2 = row.updatedAt := by
  apply RecursiveUnion.Derives.invariant _ _ derives
  · intro row member
    rcases List.mem_map.mp member with ⟨medium, listed, rfl⟩
    exact ⟨medium, listed, Multigraph.Reaches.refl _ _, rfl⟩
  · rintro row ⟨medium, listed, reaches, isTime⟩ next joined
    rcases mem_expand.mp joined with ⟨bind, member, isBound, -, rfl⟩
    refine ⟨medium, listed, ?_, isTime⟩
    apply @Multigraph.Reaches.head _ _ (bindGraph binds) medium.1 bind
    · exact member
    · show (bindGraph binds).Reaches bind.resourceId medium.1
      rw [isBound]
      exact reaches

/-- A row has come by resources of other rows with its time. -/
theorem exists_row_of_visited
    (derives : RecursiveUnion.Derives (expand binds) (media.map seed) row)
    (visited : id ∈ row.visited) :
    ∃ other, RecursiveUnion.Derives (expand binds) (media.map seed) other ∧
      other.resourceId = id ∧ other.updatedAt = row.updatedAt := by
  induction derives with
  | seed member =>
      rcases List.mem_map.mp member with ⟨medium, listed, rfl⟩
      exact ⟨seed medium, .seed member, (List.mem_singleton.mp visited).symm,
        rfl⟩
  | joined earlier member induction =>
      rcases mem_expand.mp member with ⟨bind, -, -, -, rfl⟩
      rcases List.mem_append.mp visited with before | last
      · exact induction before
      · exact ⟨_, .joined earlier member, (List.mem_singleton.mp last).symm,
          rfl⟩

/-- Wherever binds lead to a medium from, there is a row with its time. -/
theorem exists_row_of_isBelow
    {medium : Id × Text}
    (listed : medium ∈ media)
    (below : IsBelow binds id medium.1) :
    ∃ row, RecursiveUnion.Derives (expand binds) (media.map seed) row ∧
      row.resourceId = id ∧ row.updatedAt = medium.2 := by
  apply below.mem_of_closed_back (S := fun id =>
    ∃ row, RecursiveUnion.Derives (expand binds) (media.map seed) row ∧
      row.resourceId = id ∧ row.updatedAt = medium.2)
  · exact ⟨seed medium, .seed (List.mem_map_of_mem listed), rfl, rfl⟩
  · rintro bind member ⟨row, derives, isTarget, isTime⟩
    by_cases seen : bind.collectionId ∈ row.visited
    · -- the row has come by the collection before, with the same time
      rcases exists_row_of_visited derives seen with
        ⟨other, otherDerives, isCollection, sameTime⟩
      exact ⟨other, otherDerives, isCollection, sameTime.trans isTime⟩
    · have joined : row.next bind ∈ expand binds row :=
        mem_expand.mpr ⟨bind, member, isTarget.symm, seen, rfl⟩
      exact ⟨row.next bind, .joined derives joined, rfl, isTime⟩

theorem exists_mem_rows_iff
    (ended : RecursiveUnion.evaluate (expand binds) rounds (media.map seed) =
      some rows) :
    (∃ row ∈ rows, row.resourceId = id ∧ row.updatedAt = text) ↔
      ∃ medium ∈ media, IsBelow binds id medium.1 ∧ medium.2 = text := by
  constructor
  · rintro ⟨row, member, rfl, rfl⟩
    exact isBelow_of_derives ((RecursiveUnion.mem_iff_derives ended).mp member)
  · rintro ⟨medium, listed, below, rfl⟩
    rcases exists_row_of_isBelow listed below with
      ⟨row, derives, isRow, isTime⟩
    exact ⟨row, (RecursiveUnion.mem_iff_derives ended).mpr derives, isRow,
      isTime⟩

end Query

/-! ## What the script writes -/

section Groups

variable {Time : Type} [LinearOrder Time] {timestamp : Text → Time}
  {binds : List Bind} {rows : List Bus} {media : List (Id × Text)} {id : Id}
  {text : Text} {rounds : Nat}

theorem isLatest_of_maxUpdatedAt
    (ended : RecursiveUnion.evaluate (expand binds) rounds (media.map seed) =
      some rows)
    (isMax : maxUpdatedAt timestamp rows id = some text) :
    IsLatest timestamp binds media id text := by
  have listed (other : Text) :
      other ∈ (rows.filter fun row => row.resourceId == id).map
          Bus.updatedAt ↔
        ∃ medium ∈ media, IsBelow binds id medium.1 ∧ medium.2 = other := by
    rw [← exists_mem_rows_iff ended]
    simp [and_assoc]
  constructor
  · exact (listed text).mp (List.argmax_mem isMax)
  · intro medium member below
    exact List.le_of_mem_argmax
      ((listed medium.2).mpr ⟨medium, member, below, rfl⟩) isMax

theorem exists_maxUpdatedAt_iff
    (ended : RecursiveUnion.evaluate (expand binds) rounds (media.map seed) =
      some rows) :
    (∃ text, maxUpdatedAt timestamp rows id = some text) ↔
      HasMedia binds media id := by
  rw [← Option.isSome_iff_exists, Option.isSome_iff_ne_none, maxUpdatedAt,
    ne_eq, List.argmax_eq_none, List.map_eq_nil_iff, List.filter_eq_nil_iff]
  constructor
  · intro some
    push Not at some
    rcases some with ⟨row, member, isRow⟩
    rcases (exists_mem_rows_iff ended).mp
      ⟨row, member, beq_iff_eq.mp isRow, rfl⟩ with ⟨medium, listed, below, -⟩
    exact ⟨medium, listed, below⟩
  · rintro ⟨medium, listed, below⟩ none
    rcases (exists_mem_rows_iff ended).mpr ⟨medium, listed, below, rfl⟩ with
      ⟨row, member, isRow, -⟩
    exact none row member (beq_iff_eq.mpr isRow)

theorem mem_groups_iff :
    (id, text) ∈ groups timestamp rows ↔
      maxUpdatedAt timestamp rows id = some text := by
  unfold groups
  rw [List.mem_filterMap]
  constructor
  · rintro ⟨other, -, isGroup⟩
    rcases Option.map_eq_some_iff.mp isGroup with ⟨found, isMax, same⟩
    rcases Prod.mk.inj same with ⟨rfl, rfl⟩
    exact isMax
  · intro isMax
    refine ⟨id, ?_, by rw [isMax]; rfl⟩
    rcases List.mem_map.mp (List.argmax_mem isMax) with ⟨row, member, -⟩
    rcases List.mem_filter.mp member with ⟨listed, isRow⟩
    rw [List.mem_dedup, ← beq_iff_eq.mp isRow]
    exact List.mem_map_of_mem listed

/-- The row of a resource after the UPDATEs. -/
def writtenRow (groups : List (Id × Text)) (row : ResourceRow) : ResourceRow :=
  groups.foldl
    (fun row group =>
      if row.id = group.1 then { row with lastmodified := some group.2 }
      else row)
    row

theorem id_writtenRow (groups : List (Id × Text)) (row : ResourceRow) :
    (writtenRow groups row).id = row.id := by
  induction groups generalizing row with
  | nil => rfl
  | cons group groups induction =>
      refine (induction _).trans ?_
      dsimp only
      split
      · rfl
      · rfl

theorem updateResources_updateResources
    {store : ContentStore} {first second : ResourceRow → ResourceRow}
    {keepsFirst : ∀ row, (first row).id = row.id}
    {keepsSecond : ∀ row, (second row).id = row.id} :
    (store.updateResources first keepsFirst).updateResources second
        keepsSecond =
      store.updateResources (fun row => second (first row))
        (fun row => (keepsSecond _).trans (keepsFirst row)) := by
  simp [ContentStore.updateResources, Function.comp_def]

theorem foldl_updateLastmodified
    (groups : List (Id × Text)) (store : ContentStore) :
    groups.foldl updateLastmodified store =
      store.updateResources (writtenRow groups) (id_writtenRow groups) := by
  induction groups generalizing store with
  | nil =>
      have same : writtenRow [] = id := rfl
      simp [ContentStore.updateResources, same]
  | cons group groups induction =>
      rw [List.foldl_cons, induction, updateLastmodified,
        updateResources_updateResources]
      rfl

/-- Only a group of the resource changes its row, and only `lastmodified`. -/
theorem writtenRow_spec
    (groups : List (Id × Text)) (row : ResourceRow) :
    (writtenRow groups row = row ∧ ∀ group ∈ groups, group.1 ≠ row.id) ∨
      ∃ group ∈ groups, group.1 = row.id ∧
        writtenRow groups row =
          { row with lastmodified := some group.2 } := by
  induction groups generalizing row with
  | nil => exact Or.inl ⟨rfl, nofun⟩
  | cons group groups induction =>
      have step : writtenRow (group :: groups) row = writtenRow groups
          (if row.id = group.1 then { row with lastmodified := some group.2 }
          else row) := rfl
      rw [step]
      by_cases same : row.id = group.1
      · rw [if_pos same]
        right
        rcases induction { row with lastmodified := some group.2 } with
          ⟨kept, -⟩ | ⟨later, member, isRow, written⟩
        · exact ⟨group, List.mem_cons_self, same.symm, kept⟩
        · exact ⟨later, List.mem_cons_of_mem _ member, isRow, written⟩
      · rw [if_neg same]
        rcases induction row with ⟨kept, none⟩ | ⟨later, member, written⟩
        · exact Or.inl ⟨kept, List.forall_mem_cons.mpr
            ⟨fun isRow => same isRow.symm, none⟩⟩
        · exact Or.inr ⟨later, List.mem_cons_of_mem _ member, written⟩

end Groups

/-- What the script does to a row of `resources`. -/
structure IsDatedRow {Time : Type} [LinearOrder Time]
    (timestamp : Text → Time) (binds : List Bind) (media : List (Id × Text))
    (row new : ResourceRow) : Prop where
  dated : HasMedia binds media row.id → ∃ text,
    IsLatest timestamp binds media row.id text ∧
      new = { row with lastmodified := some text }
  undated : ¬ HasMedia binds media row.id → new = row

section Dates

variable {Time : Type} [LinearOrder Time] {timestamp : Text → Time}
  {store after : ContentStore} {media : List (Id × Text)} {rounds : Nat}

/-- The rows of `resources` are dated, and nothing else is changed. -/
def Dates (timestamp : Text → Time) (store : ContentStore)
    (media : List (Id × Text)) (after : ContentStore) : Prop :=
  ∃ change keepsId, after = store.updateResources change keepsId ∧
    ∀ row ∈ store.resources,
      IsDatedRow timestamp store.binds.rows media row (change row)

theorem dates_of_eq_some
    (done : setResourceLastmodified timestamp rounds store media =
      some after) :
    Dates timestamp store media after := by
  rcases Option.map_eq_some_iff.mp done with ⟨rows, ended, rfl⟩
  refine ⟨_, _, foldl_updateLastmodified (groups timestamp rows) store, ?_⟩
  intro row _
  have grouped : HasMedia store.binds.rows media row.id ↔
      ∃ text, (row.id, text) ∈ groups timestamp rows := by
    rw [← @exists_maxUpdatedAt_iff Time _ timestamp _ _ _ _ _ ended]
    simp only [mem_groups_iff]
  rcases writtenRow_spec (groups timestamp rows) row with
    ⟨kept, none⟩ | ⟨⟨id, text⟩, member, isRow, written⟩
  · constructor
    · intro has
      rcases grouped.mp has with ⟨text, member⟩
      exact (none _ member rfl).elim
    · exact fun _ => kept
  · have isId : id = row.id := isRow
    rcases isId with rfl
    constructor
    · exact fun _ => ⟨text, isLatest_of_maxUpdatedAt ended
        (mem_groups_iff.mp member), written⟩
    · intro without
      exact (without (grouped.mpr ⟨text, member⟩)).elim

/-- The script ends, and dates what has media below it. -/
theorem setResourceLastmodified_dates
    (timestamp : Text → Time) (store : ContentStore)
    (media : List (Id × Text)) :
    ∃ rounds after, Dates timestamp store media after ∧
      ∀ more, rounds ≤ more →
        setResourceLastmodified timestamp more store media = some after := by
  rcases RecursiveUnion.exists_evaluate (rank store.binds.rows)
    (fun _ _ => rank_lowers) (media.map seed) with ⟨rounds, rows, ended⟩
  have done : ∀ more, rounds ≤ more →
      setResourceLastmodified timestamp more store media =
        some ((groups timestamp rows).foldl updateLastmodified store) := by
    intro more enough
    unfold setResourceLastmodified
    rw [RecursiveUnion.evaluate_mono ended enough]
    rfl
  exact ⟨rounds, _, dates_of_eq_some (done rounds le_rfl), done⟩

end Dates

/-! ## Writing media -/

/-- The tables, with the column `updated_at` of the rows of `media`. -/
structure TimedStore where
  store : ContentStore
  media : List (Id × Text)

/-- `dbms_insert_media`. -/
def dbmsInsertMedia (request : Request) (state : TimedStore)
    (r : DavReposResource) : Except Stop TimedStore := do
  let (store, r) ← CopyMedium.dbmsInsertMedia request state.store r
  return ⟨store, state.media ++ [(r.serialno, request.now)]⟩

/-- `dbms_update_media_props`. -/
def dbmsUpdateMediaProps (request : Request) (state : TimedStore)
    (r : DavReposResource) : Except Stop TimedStore := do
  let (store, r) ← CopyMedium.dbmsUpdateMediaProps request state.store r
  return ⟨store, state.media.map fun medium =>
    if medium.1 = r.serialno then (medium.1, request.now) else medium⟩

/-- `dbms_copy_media_props`. -/
def dbmsCopyMediaProps (request : Request) (state : TimedStore)
    (src dest : DavReposResource) : TimedStore :=
  let kept := state.media.filter fun medium => medium.1 != dest.serialno
  { store :=
      (CopyMedium.dbmsCopyMediaProps request state.store src dest).1
    media := kept ++ (kept.filter fun medium => medium.1 == src.serialno).map
      fun _ => (dest.serialno, request.now) }

/-- `lastmodified` of what is above the home collection is the latest time. -/
def IsDated {Time : Type} [LinearOrder Time] (timestamp : Text → Time)
    (state : TimedStore) : Prop :=
  ∀ row ∈ state.store.resources, homeCollectionId < row.id →
    HasMedia state.store.binds.rows state.media row.id →
      ∃ text, row.lastmodified = some text ∧
        IsLatest timestamp state.store.binds.rows state.media row.id text

/-- From above the home collection no bind leads below it. -/
def StaysAbove (binds : List Bind) : Prop :=
  ∀ bind ∈ binds, homeCollectionId < bind.collectionId →
    homeCollectionId < bind.resourceId

/--
A statement that writes a row of a medium that has one behind it: the clock
is not behind the times of the rows.
-/
inductive MediaStep {Time : Type} [LinearOrder Time]
    (timestamp : Text → Time) : TimedStore → TimedStore → Prop
  | insert
      {request : Request} {state after : TimedStore} {r : DavReposResource}
      (clock : ∀ medium ∈ state.media,
        timestamp medium.2 ≤ timestamp request.now)
      (inserted : dbmsInsertMedia request state r = .ok after) :
      MediaStep timestamp state after
  | update
      {request : Request} {state after : TimedStore} {r : DavReposResource}
      (clock : ∀ medium ∈ state.media,
        timestamp medium.2 ≤ timestamp request.now)
      (present : r.serialno ∈ state.media.map Prod.fst)
      (updated : dbmsUpdateMediaProps request state r = .ok after) :
      MediaStep timestamp state after
  | copy
      {request : Request} {state : TimedStore} {src dest : DavReposResource}
      (clock : ∀ medium ∈ state.media,
        timestamp medium.2 ≤ timestamp request.now)
      (present : src.serialno ∈ state.media.map Prod.fst)
      (differ : src.serialno ≠ dest.serialno) :
      MediaStep timestamp state (dbmsCopyMediaProps request state src dest)

section Runs

variable {Time : Type} [LinearOrder Time] {timestamp : Text → Time}
  {state after : TimedStore} {serialno id : Id} {now : Text}
  {binds : List Bind}

theorem StaysAbove.isNotified
    (above : StaysAbove binds)
    (high : homeCollectionId < id)
    (below : IsBelow binds id serialno) :
    IsNotified binds serialno id := by
  rw [AncestorNotification.isNotified_iff_reaches]
  have both : (aboveHome binds).Reaches id serialno ∧
      homeCollectionId < serialno := by
    apply below.mem_of_closed (S := fun other =>
      (aboveHome binds).Reaches id other ∧ homeCollectionId < other)
    · exact ⟨Multigraph.Reaches.refl _ _, high⟩
    · rintro bind member ⟨reaches, source⟩
      exact ⟨Multigraph.Reaches.tail (G := aboveHome binds) reaches
        ⟨member, source⟩, above bind member source⟩
  exact both.1

theorem isBelow_of_isNotified
    (notified : IsNotified binds serialno id) : IsBelow binds id serialno := by
  rw [AncestorNotification.isNotified_iff_reaches] at notified
  exact notified.of_restrict

/-- What a statement that writes the row of a medium does. -/
structure Writes (state after : TimedStore) (serialno : Id) (now : Text) :
    Prop where
  binds : after.store.binds = state.store.binds
  resources : after.store.resources = state.store.resources.map fun row =>
    if row.id ∈ ancestors state.store.binds.rows
        state.store.binds.rows.length [serialno] then
      { row with lastmodified := some now }
    else row
  written : (serialno, now) ∈ after.media
  others : ∀ medium ∈ state.media, medium.1 ≠ serialno →
    medium ∈ after.media
  only : ∀ medium ∈ after.media, medium = (serialno, now) ∨
    medium ∈ state.media

/-- One statement keeps the dates. -/
theorem IsDated.write
    (dated : IsDated timestamp state)
    (above : StaysAbove state.store.binds.rows)
    (clock : ∀ medium ∈ state.media,
      timestamp medium.2 ≤ timestamp now)
    (writes : Writes state after serialno now) :
    IsDated timestamp after := by
  intro row member high has
  rw [writes.resources] at member
  rw [writes.binds] at has ⊢
  rcases List.mem_map.mp member with ⟨old, listed, rfl⟩
  by_cases notified : IsNotified state.store.binds.rows serialno old.id
  · rw [if_pos (AncestorNotification.mem_ancestors_iff.mpr notified)]
    refine ⟨now, rfl, ⟨_, writes.written, isBelow_of_isNotified notified, rfl⟩,
      ?_⟩
    intro medium later _
    rcases writes.only medium later with rfl | earlier
    · exact le_rfl
    · exact clock medium earlier
  · have unnotified := mt AncestorNotification.mem_ancestors_iff.mp notified
    rw [if_neg unnotified] at high has ⊢
    -- The medium that is written is not below.
    have other : ∀ medium, IsBelow state.store.binds.rows old.id medium →
        medium ≠ serialno := by
      rintro medium below rfl
      exact notified (above.isNotified high below)
    have same : ∀ medium : Id × Text,
        IsBelow state.store.binds.rows old.id medium.1 →
          (medium ∈ after.media ↔ medium ∈ state.media) := by
      intro medium below
      constructor
      · intro later
        rcases writes.only medium later with rfl | earlier
        · exact (other serialno below rfl).elim
        · exact earlier
      · exact fun earlier =>
          writes.others medium earlier (other medium.1 below)
    rcases has with ⟨medium, later, below⟩
    rcases dated old listed high ⟨medium, (same medium below).mp later, below⟩
      with ⟨text, isText, latest⟩
    refine ⟨text, isText, ?_, ?_⟩
    · rcases latest.isTime with ⟨witness, earlier, isBelow, isTime⟩
      exact ⟨witness, (same witness isBelow).mpr earlier, isBelow, isTime⟩
    · exact fun medium later isBelow =>
        latest.latest medium ((same medium isBelow).mp later) isBelow

theorem writes_dbmsInsertMedia
    {request : Request} {r : DavReposResource}
    (inserted : dbmsInsertMedia request state r = .ok after) :
    Writes state after r.serialno request.now := by
  rcases bind_eq_ok.mp inserted with ⟨⟨store, record⟩, isInserted, ends⟩
  rcases Except.ok.inj ends with rfl
  unfold CopyMedium.dbmsInsertMedia at isInserted
  split at isInserted
  · cases isInserted
  · rcases Prod.mk.inj (Except.ok.inj isInserted) with ⟨rfl, rfl⟩
    exact
      { binds := rfl
        resources := rfl
        written := by simp
        others := fun medium earlier _ => List.mem_append_left _ earlier
        only := by
          intro medium later
          rcases List.mem_append.mp later with earlier | last
          · exact Or.inr earlier
          · exact Or.inl (List.mem_singleton.mp last) }

theorem writes_dbmsUpdateMediaProps
    {request : Request} {r : DavReposResource}
    (present : r.serialno ∈ state.media.map Prod.fst)
    (updated : dbmsUpdateMediaProps request state r = .ok after) :
    Writes state after r.serialno request.now := by
  rcases bind_eq_ok.mp updated with ⟨⟨store, record⟩, isUpdated, ends⟩
  rcases Except.ok.inj ends with rfl
  unfold CopyMedium.dbmsUpdateMediaProps at isUpdated
  split at isUpdated
  · cases isUpdated
  · rcases Prod.mk.inj (Except.ok.inj isUpdated) with ⟨rfl, rfl⟩
    exact
      { binds := rfl
        resources := rfl
        written := by
          rcases List.mem_map.mp present with ⟨medium, listed, isRow⟩
          exact List.mem_map.mpr ⟨medium, listed, by simp [isRow]⟩
        others := by
          intro medium earlier other
          exact List.mem_map.mpr ⟨medium, earlier, if_neg other⟩
        only := by
          intro medium later
          rcases List.mem_map.mp later with ⟨old, earlier, rfl⟩
          split
          next isRow => exact Or.inl (Prod.ext isRow rfl)
          next => exact Or.inr earlier }

theorem writes_dbmsCopyMediaProps
    {request : Request} {src dest : DavReposResource}
    (present : src.serialno ∈ state.media.map Prod.fst)
    (differ : src.serialno ≠ dest.serialno) :
    Writes state (dbmsCopyMediaProps request state src dest) dest.serialno
      request.now where
  binds := rfl
  resources := rfl
  written := by
    rcases List.mem_map.mp present with ⟨medium, listed, isRow⟩
    apply List.mem_append_right
    exact List.mem_map.mpr ⟨medium, by simp [listed, isRow, differ], rfl⟩
  others := by
    intro medium earlier other
    apply List.mem_append_left
    simp [earlier, other]
  only := by
    intro medium later
    rcases List.mem_append.mp later with kept | copied
    · exact Or.inr (List.mem_of_mem_filter kept)
    · rcases List.mem_map.mp copied with ⟨_, _, rfl⟩
      exact Or.inl rfl

theorem MediaStep.writes
    (step : MediaStep timestamp state after) :
    ∃ serialno now, Writes state after serialno now ∧
      ∀ medium ∈ state.media, timestamp medium.2 ≤ timestamp now := by
  cases step with
  | insert clock inserted => exact ⟨_, _, writes_dbmsInsertMedia inserted, clock⟩
  | update clock present updated =>
      exact ⟨_, _, writes_dbmsUpdateMediaProps present updated, clock⟩
  | copy clock present differ =>
      exact ⟨_, _, writes_dbmsCopyMediaProps present differ, clock⟩

/-- A run keeps the dates, and the binds. -/
theorem IsDated.run
    (dated : IsDated timestamp state)
    (above : StaysAbove state.store.binds.rows)
    (run : Relation.ReflTransGen (MediaStep timestamp) state after) :
    IsDated timestamp after ∧ after.store.binds = state.store.binds := by
  induction run with
  | refl => exact ⟨dated, rfl⟩
  | tail _ step induction =>
      rcases induction with ⟨between, same⟩
      rcases step.writes with ⟨serialno, now, writes, clock⟩
      exact ⟨between.write (same ▸ above) clock writes,
        writes.binds.trans same⟩

end Runs

/-! ## One medium in a collection that is its own member -/

section Examples

/-- Years as numbers. -/
def year (text : Text) : Nat :=
  text.foldl (fun number char => 10 * number + (char.toNat - '0'.toNat)) 0

end Examples

end Limestone.Lastmodified
