import Limestone.CopyMedium
import Limestone.Library.Loop
import Limestone.Library.RecursiveUnion
import Limestone.PathSearch
import Mathlib.Data.List.Perm.Subperm

/-!
# The ancestors of a resource that changes: `dbms_notify_resource_updated`

A recursive query walks from a resource to the collections that it is bound
in, and from them to theirs.  Every row of it carries the resources that it has
come by, so that it ends in a graph with cycles.  Collections up to the home
collection are left out.
-/

namespace Limestone.AncestorNotification

open Library DbmsBind BridgeProperty CopyMedium PathSearch

/-! ## The statement -/

/-- A row of `ancestors(resource_id, visited)`. -/
structure Ancestor where
  resourceId : Id
  visited : List Id
deriving DecidableEq, Repr

/-- The collection of a bind behind the resources that a row has come by. -/
def Ancestor.next (row : Ancestor) (bind : Bind) : Ancestor :=
  ⟨bind.collectionId, row.visited ++ [bind.collectionId]⟩

/-- The binds with which the recursive part joins a row. -/
def joins (row : Ancestor) (bind : Bind) : Bool :=
  bind.resourceId == row.resourceId &&
    decide (homeCollectionId < bind.collectionId) &&
    !decide (bind.collectionId ∈ row.visited)

/-- The rows that a row is joined to. -/
def expand (binds : List Bind) (row : Ancestor) : List Ancestor :=
  (binds.filter (joins row)).map row.next

/-- `VALUES(?::bigint, ARRAY[?]::bigint[])`. -/
def seed (serialno : Id) : Ancestor :=
  ⟨serialno, [serialno]⟩

/--
`dbms_notify_resource_updated`, unless the number of rounds is too small for
the query.
-/
def dbmsNotifyResourceUpdated (rounds : Nat) (store : ContentStore)
    (r : DavReposResource) : Option ContentStore :=
  (RecursiveUnion.evaluate (expand store.binds.rows) rounds
      [seed r.serialno]).map fun rows =>
    let touched := rows.map Ancestor.resourceId
    store.updateResources (notified touched r.updatedAt)
      (id_notified touched r.updatedAt)

/-! ## Who is to be notified -/

/-- The binds in collections above the home collection. -/
def aboveHome (binds : List Bind) : Multigraph Id Bind :=
  (bindGraph binds).restrict fun bind => homeCollectionId < bind.collectionId

/--
The resource itself, and the collections above the home collection from which
a chain of binds in such collections leads to it.
-/
def IsNotified (binds : List Bind) (serialno id : Id) : Prop :=
  id = serialno ∨
    homeCollectionId < id ∧ (aboveHome binds).Reaches id serialno

/-- `lastmodified` of who is to be notified is set, and nothing else. -/
structure Notifies (store : ContentStore) (r : DavReposResource)
    (after : ContentStore) : Prop where
  only : ∃ change keepsId, after = store.updateResources change keepsId
  resources : List.Forall₂
    (fun row new =>
      (IsNotified store.binds.rows r.serialno row.id →
        new = { row with lastmodified := r.updatedAt }) ∧
      (¬ IsNotified store.binds.rows r.serialno row.id → new = row))
    store.resources after.resources

variable {binds : List Bind} {bind : Bind} {row next : Ancestor}
  {rows : List Ancestor} {serialno id : Id} {rounds : Nat}
  {store after : ContentStore} {r : DavReposResource}

theorem joins_iff :
    joins row bind = true ↔
      bind.resourceId = row.resourceId ∧
        homeCollectionId < bind.collectionId ∧
        bind.collectionId ∉ row.visited := by
  simp [joins, and_assoc]

theorem mem_expand :
    next ∈ expand binds row ↔
      ∃ bind ∈ binds, bind.resourceId = row.resourceId ∧
        homeCollectionId < bind.collectionId ∧
        bind.collectionId ∉ row.visited ∧ row.next bind = next := by
  simp only [expand, List.mem_map, List.mem_filter, joins_iff]
  constructor
  · rintro ⟨bind, ⟨member, binds, above, unseen⟩, rfl⟩
    exact ⟨bind, member, binds, above, unseen, rfl⟩
  · rintro ⟨bind, member, binds, above, unseen, rfl⟩
    exact ⟨bind, ⟨member, binds, above, unseen⟩, rfl⟩

/-! ## The query ends -/

/-- The binds whose collections a row has not come by. -/
def rank (binds : List Bind) (row : Ancestor) : Nat :=
  Loop.unvisited Bind.collectionId binds row.visited

theorem rank_lowers (joined : next ∈ expand binds row) :
    rank binds next < rank binds row := by
  rcases mem_expand.mp joined with ⟨bind, member, -, -, unseen, rfl⟩
  exact Loop.unvisited_lt member unseen

/-- From some number of rounds on the statement does the same. -/
theorem exists_dbmsNotifyResourceUpdated
    (store : ContentStore) (r : DavReposResource) :
    ∃ rounds after, ∀ more, rounds ≤ more →
      dbmsNotifyResourceUpdated more store r = some after := by
  have ends := RecursiveUnion.exists_evaluate (rank store.binds.rows)
    (fun _ _ => rank_lowers) [seed r.serialno]
  rcases ends with ⟨rounds, rows, ended⟩
  have done : ∃ after,
      dbmsNotifyResourceUpdated rounds store r = some after := by
    unfold dbmsNotifyResourceUpdated
    rw [ended]
    exact ⟨_, rfl⟩
  rcases done with ⟨after, done⟩
  refine ⟨rounds, after, ?_⟩
  intro more enough
  rw [← done]
  unfold dbmsNotifyResourceUpdated
  rw [ended, RecursiveUnion.evaluate_mono ended enough]

/-! ## What the query yields -/

/-- From the resource of every row a chain leads to the resource. -/
theorem reaches_of_derives
    (derives : RecursiveUnion.Derives (expand binds) [seed serialno] row) :
    (aboveHome binds).Reaches row.resourceId serialno := by
  apply RecursiveUnion.Derives.invariant _ _ derives
  · intro row member
    rw [List.mem_singleton.mp member]
    exact Multigraph.Reaches.refl _ serialno
  · intro row reaches next joined
    rcases mem_expand.mp joined with ⟨bind, member, isBound, above, -, rfl⟩
    apply @Multigraph.Reaches.head _ _ (aboveHome binds) serialno bind
    · exact ⟨member, above⟩
    · show (aboveHome binds).Reaches bind.resourceId serialno
      rw [isBound]
      exact reaches

/-- A row has come by resources of other rows. -/
theorem exists_row_of_visited
    (derives : RecursiveUnion.Derives (expand binds) [seed serialno] row)
    (visited : id ∈ row.visited) :
    ∃ other, RecursiveUnion.Derives (expand binds) [seed serialno] other ∧
      other.resourceId = id := by
  induction derives with
  | seed member =>
      rcases List.mem_singleton.mp member with rfl
      exact ⟨seed serialno, .seed member, (List.mem_singleton.mp visited).symm⟩
  | joined earlier member induction =>
      rcases mem_expand.mp member with ⟨bind, -, -, -, -, rfl⟩
      rcases List.mem_append.mp visited with before | last
      · exact induction before
      · exact ⟨_, .joined earlier member, (List.mem_singleton.mp last).symm⟩

/-- Wherever a chain leads to the resource from, there is a row. -/
theorem exists_row_of_reaches
    (reaches : (aboveHome binds).Reaches id serialno) :
    ∃ row, RecursiveUnion.Derives (expand binds) [seed serialno] row ∧
      row.resourceId = id := by
  apply reaches.mem_of_closed_back (S := fun id =>
    ∃ row, RecursiveUnion.Derives (expand binds) [seed serialno] row ∧
      row.resourceId = id)
  · exact ⟨seed serialno, .seed (List.mem_singleton_self _), rfl⟩
  · rintro bind ⟨member, above⟩ ⟨row, derives, isTarget⟩
    by_cases seen : bind.collectionId ∈ row.visited
    · -- the cut hides nothing: the row has come by the collection before
      exact exists_row_of_visited derives seen
    · have joined : row.next bind ∈ expand binds row :=
        mem_expand.mpr ⟨bind, member, isTarget.symm, above, seen, rfl⟩
      exact ⟨row.next bind, .joined derives joined, rfl⟩

theorem isNotified_iff_reaches :
    IsNotified binds serialno id ↔ (aboveHome binds).Reaches id serialno := by
  constructor
  · rintro (rfl | ⟨-, reaches⟩)
    · exact Multigraph.Reaches.refl _ id
    · exact reaches
  · rintro ⟨chain, trail⟩
    cases chain with
    | nil => exact Or.inl trail
    | cons bind chain =>
        have leaves : bind.collectionId = id := trail.2.1
        have above : homeCollectionId < bind.collectionId := trail.1.2
        rw [leaves] at above
        exact Or.inr ⟨above, bind :: chain, trail⟩

/-- The rows of the query are those of who is to be notified. -/
theorem mem_rows_iff
    (ended : RecursiveUnion.evaluate (expand binds) rounds [seed serialno] =
      some rows) :
    id ∈ rows.map Ancestor.resourceId ↔ IsNotified binds serialno id := by
  rw [isNotified_iff_reaches, List.mem_map]
  constructor
  · rintro ⟨row, member, rfl⟩
    exact reaches_of_derives ((RecursiveUnion.mem_iff_derives ended).mp member)
  · intro reaches
    rcases exists_row_of_reaches reaches with ⟨row, derives, isRow⟩
    exact ⟨row, (RecursiveUnion.mem_iff_derives ended).mpr derives, isRow⟩

theorem notifies_of_eq_some
    (done : dbmsNotifyResourceUpdated rounds store r = some after) :
    Notifies store r after := by
  rw [dbmsNotifyResourceUpdated, Option.map_eq_some_iff] at done
  rcases done with ⟨rows, ended, rfl⟩
  refine ⟨⟨_, _, rfl⟩, ?_⟩
  apply List.forall₂_map_right_iff.mpr
  apply List.forall₂_same.mpr
  intro row _
  constructor
  · intro notified
    exact if_pos ((mem_rows_iff ended).mpr notified)
  · intro other
    exact if_neg (mt (mem_rows_iff ended).mp other)

/-! ## The rounds that are needed -/

/-- The collections in which something of the list is bound. -/
theorem mem_ancestors_mono {found : List Id} (member : id ∈ found) :
    id ∈ ancestors binds rounds found := by
  induction rounds generalizing found with
  | zero => exact member
  | succ rounds induction =>
      exact induction (Sql.mem_union.mpr (Or.inl member))

theorem ancestors_grows
    {found : List Id} (member : id ∈ ancestors binds rounds found) {more : Nat}
    (enough : rounds ≤ more) :
    id ∈ ancestors binds more found := by
  induction rounds generalizing found more with
  | zero => exact mem_ancestors_mono member
  | succ rounds induction =>
      cases more with
      | zero => cases enough
      | succ more => exact induction member (Nat.le_of_succ_le_succ enough)

theorem mem_ancestors_succ
    {found : List Id}
    (member : bind ∈ binds)
    (above : homeCollectionId < bind.collectionId)
    (listed : bind.resourceId ∈ ancestors binds rounds found) :
    bind.collectionId ∈ ancestors binds (rounds + 1) found := by
  induction rounds generalizing found with
  | zero =>
      apply Sql.mem_union.mpr
      right
      apply List.mem_map.mpr
      refine ⟨bind, List.mem_filter.mpr ⟨member, ?_⟩, rfl⟩
      rw [Bool.and_eq_true]
      exact ⟨decide_eq_true listed, decide_eq_true above⟩
  | succ rounds induction => exact induction listed

/-- Only who is to be notified is found by rounds that join without a cut. -/
theorem reaches_of_mem_ancestors
    {found : List Id}
    (ancestor : id ∈ ancestors binds rounds found)
    (starts : ∀ other ∈ found, (aboveHome binds).Reaches other serialno) :
    (aboveHome binds).Reaches id serialno := by
  induction rounds generalizing found with
  | zero => exact starts id ancestor
  | succ rounds induction =>
      apply induction ancestor
      intro other listed
      rcases Sql.mem_union.mp listed with old | new
      · exact starts other old
      · rcases List.mem_map.mp new with ⟨bind, joined, rfl⟩
        rcases List.mem_filter.mp joined with ⟨member, conditions⟩
        rw [Bool.and_eq_true, decide_eq_true_eq, decide_eq_true_eq]
          at conditions
        apply @Multigraph.Reaches.head _ _ (aboveHome binds) serialno bind
        · exact ⟨member, conditions.2⟩
        · exact starts bind.resourceId conditions.1

/-- A row has come by as many resources as there have been rounds. -/
theorem mem_ancestors_of_derives
    (derives : RecursiveUnion.Derives (expand binds) [seed serialno] row) :
    ∃ rounds, row.visited.length = rounds + 1 ∧
      row.resourceId ∈ ancestors binds rounds [serialno] := by
  induction derives with
  | seed member =>
      rcases List.mem_singleton.mp member with rfl
      exact ⟨0, rfl, List.mem_singleton_self serialno⟩
  | joined earlier member induction =>
      rcases mem_expand.mp member with ⟨bind, listed, isBound, above, -, rfl⟩
      rcases induction with ⟨rounds, length, ancestor⟩
      refine ⟨rounds + 1, ?_, ?_⟩
      · rw [Ancestor.next, List.length_append, length, List.length_singleton]
      · rw [← isBound] at ancestor
        exact mem_ancestors_succ listed above ancestor

/-- A row comes by no resource twice, and by collections of binds only. -/
structure IsWalk (binds : List Bind) (serialno : Id) (row : Ancestor) :
    Prop where
  nodup : row.visited.Nodup
  listed : ∀ id ∈ row.visited, id ∈ serialno :: binds.map Bind.collectionId

theorem isWalk_of_derives
    (derives : RecursiveUnion.Derives (expand binds) [seed serialno] row) :
    IsWalk binds serialno row := by
  apply RecursiveUnion.Derives.invariant _ _ derives
  · intro row member
    rw [List.mem_singleton.mp member]
    refine ⟨List.nodup_singleton serialno, ?_⟩
    intro id visited
    rw [List.mem_singleton.mp visited]
    exact List.mem_cons_self
  · intro row walk next joined
    rcases mem_expand.mp joined with ⟨bind, member, -, -, unseen, rfl⟩
    constructor
    · rw [Ancestor.next, ← List.concat_eq_append]
      exact walk.nodup.concat unseen
    · intro id visited
      rcases List.mem_append.mp visited with before | last
      · exact walk.listed id before
      · rw [List.mem_singleton.mp last]
        exact List.mem_cons_of_mem _ (List.mem_map_of_mem member)

theorem length_visited_le
    (derives : RecursiveUnion.Derives (expand binds) [seed serialno] row) :
    row.visited.length ≤ binds.length + 1 := by
  have walk := isWalk_of_derives derives
  have most := (List.subperm_of_subset walk.nodup walk.listed).length_le
  rwa [List.length_cons, List.length_map] at most

/-- As many rounds as there are binds find all ancestors. -/
theorem mem_ancestors_iff :
    id ∈ ancestors binds binds.length [serialno] ↔
      IsNotified binds serialno id := by
  rw [isNotified_iff_reaches]
  constructor
  · intro ancestor
    apply reaches_of_mem_ancestors ancestor
    intro other member
    rw [List.mem_singleton.mp member]
    exact Multigraph.Reaches.refl _ serialno
  · intro reaches
    rcases exists_row_of_reaches reaches with ⟨row, derives, rfl⟩
    rcases mem_ancestors_of_derives derives with ⟨rounds, length, ancestor⟩
    have short := length_visited_le derives
    exact ancestors_grows ancestor (by omega)

/-- The statement ends and notifies exactly the ancestors of the resource. -/
theorem dbmsNotifyResourceUpdated_notifies
    (store : ContentStore) (r : DavReposResource) :
    ∃ rounds after, Notifies store r after ∧
      ∀ more, rounds ≤ more →
        dbmsNotifyResourceUpdated more store r = some after := by
  rcases exists_dbmsNotifyResourceUpdated store r with ⟨rounds, after, done⟩
  exact ⟨rounds, after, notifies_of_eq_some (done rounds le_rfl), done⟩

end Limestone.AncestorNotification
