import Limestone.BridgeUnbind
import Limestone.PathSearch
import Limestone.Library.Orphans

/-!
# What unbinding leaves

After `sabridge_unbind_resource` those resources are left to which a way of
binds still leads from the root, with the binds of the collections that are
left.  While the list is worked through, every bind that has gone leads to a
resource that is still reached, has gone or is on the list.

The deletion of a version history takes its versions along, and what is
listed for a deleted resource are the members of a collection: no history and
no other resource with members may become unreachable.
-/

namespace Limestone.UnbindCollects

open Library
open DbmsBind
open DbmsCollection
open PathSearch
open BridgeUnbind

/-! ## Members -/

/-- The item of a bind of a collection. -/
def memberOf (dbR : DavReposResource) (bind : Bind)
    (row : Id × ResourceType) : DavReposResource where
  serialno := row.1
  resourcetype := row.2
  uri :=
    match dbR.uri with
    | none => some ('/' :: bind.name)
    | some uri =>
        if uri = ['/'] then some ('/' :: bind.name)
        else some (uri ++ '/' :: bind.name)
  parentId := bind.collectionId
  bindId := bind.id
  hasBind := false

/-- The rows of the listing of a collection. -/
def memberPairs (store : GraphStore) (dbR : DavReposResource) :
    List (Bind × Id × ResourceType) :=
  (Sql.crossJoin (store.binds.rows.filter fun bind =>
      decide (bind.collectionId ∈
        (listedCollections [dbR]).map DavReposResource.serialno))
    store.resources).filter fun pair => pair.2.1 == pair.1.resourceId

section Members

variable {orders : RowOrders} {store : GraphStore}
  {dbR iter : DavReposResource} {bind : Bind}

theorem dbmsGetCollectionResource_eq (orders : RowOrders)
    (store : GraphStore) (dbR : DavReposResource) :
    dbmsGetCollectionResource orders store dbR =
      (orders.children.arrange 0 (memberPairs store dbR)).map fun pair =>
        memberOf dbR pair.1 pair.2 :=
  rfl

/-- The query names the collection, when it is listed at all. -/
theorem mem_listed {id : Id} :
    id ∈ (listedCollections [dbR]).map DavReposResource.serialno ↔
      id = dbR.serialno ∧ dbR.hasBind = false ∧
        dbR.resourcetype.isCollection = true := by
  constructor
  · intro named
    rcases List.mem_map.mp named with ⟨item, listed, same⟩
    rcases List.mem_filter.mp listed with ⟨only, opened⟩
    rcases List.mem_singleton.mp only with rfl
    rw [Bool.and_eq_true, Bool.not_eq_true'] at opened
    exact ⟨same.symm, opened⟩
  · rintro ⟨rfl, unmarked, isCollection⟩
    apply List.mem_map_of_mem
    apply List.mem_filter.mpr
    rw [unmarked, isCollection]
    exact ⟨List.mem_singleton_self dbR, rfl⟩

theorem mem_memberPairs
    {pair : Bind × Id × ResourceType} :
    pair ∈ memberPairs store dbR ↔
      (pair.1 ∈ store.binds.rows ∧ pair.2 ∈ store.resources) ∧
        (pair.1.collectionId = dbR.serialno ∧ dbR.hasBind = false ∧
          dbR.resourcetype.isCollection = true) ∧
        pair.2.1 = pair.1.resourceId := by
  rw [memberPairs, List.mem_filter, Sql.mem_crossJoin, List.mem_filter,
    decide_eq_true_eq, mem_listed, beq_iff_eq]
  constructor
  · rintro ⟨⟨⟨bound, listed⟩, row⟩, same⟩
    exact ⟨⟨bound, row⟩, listed, same⟩
  · rintro ⟨⟨bound, row⟩, listed, same⟩
    exact ⟨⟨⟨bound, listed⟩, row⟩, same⟩

/-- The bind of a member, with the columns its item shows. -/
structure MemberBind (store : GraphStore) (dbR iter : DavReposResource)
    (bind : Bind) : Prop where
  bound : bind ∈ store.binds.rows
  collection : bind.collectionId = dbR.serialno
  resource : bind.resourceId = iter.serialno
  row : (iter.serialno, iter.resourcetype) ∈ store.resources
  parent : iter.parentId = dbR.serialno
  id : iter.bindId = bind.id
  uri : ∃ path : Text, iter.uri = some (path ++ '/' :: bind.name)

theorem memberBind_of_mem_pairs
    {pair : Bind × Id × ResourceType}
    (member : pair ∈ memberPairs store dbR) :
    MemberBind store dbR (memberOf dbR pair.1 pair.2) pair.1 := by
  rcases mem_memberPairs.mp member with ⟨⟨bound, row⟩, ⟨collection, -⟩, same⟩
  refine ⟨bound, collection, same.symm, row, collection, rfl, ?_⟩
  show ∃ path : Text, (memberOf dbR pair.1 pair.2).uri = _
  unfold memberOf
  cases dbR.uri with
  | none => exact ⟨[], rfl⟩
  | some uri =>
      show ∃ path : Text, (if uri = ['/'] then _ else _) = _
      split
      · exact ⟨[], rfl⟩
      · exact ⟨uri, rfl⟩

/-- The pointer to an earlier item does not show in what is read of an item. -/
theorem MemberBind.mark
    (member : MemberBind store dbR iter bind) (hasBind : Bool) :
    MemberBind store dbR { iter with hasBind := hasBind } bind :=
  ⟨member.bound, member.collection, member.resource, member.row,
    member.parent, member.id, member.uri⟩

/-- The items of a listing have binds. -/
theorem exists_memberBind
    (member : iter ∈ sabridgeGetCollectionChildren orders store dbR) :
    ∃ bind, MemberBind store dbR iter bind := by
  rcases List.mem_map.mp member with ⟨entry, marked, rfl⟩
  have listed : entry.1 ∈ dbmsGetCollectionResource orders store dbR :=
    LastSeen.mem_of_mem_mark marked
  rw [dbmsGetCollectionResource_eq] at listed
  rcases List.mem_map.mp listed with ⟨pair, arranged, same⟩
  have bound : MemberBind store dbR entry.1 pair.1 := by
    rw [← same]
    exact memberBind_of_mem_pairs (Sql.RowOrder.mem_arrange.mp arranged)
  exact ⟨pair.1, bound.mark entry.2.isSome⟩

/-- The binds of a listed collection have items. -/
theorem exists_mem_dbmsGetCollectionResource
    (orders : RowOrders)
    (unmarked : dbR.hasBind = false)
    (isCollection : dbR.resourcetype.isCollection = true)
    (bound : bind ∈ store.binds.rows)
    (collection : bind.collectionId = dbR.serialno) :
    ∃ item ∈ dbmsGetCollectionResource orders store dbR,
      item.serialno = bind.resourceId ∧ item.bindId = bind.id := by
  rcases List.mem_map.mp (store.fkBindResource bind bound) with
    ⟨row, present, same⟩
  refine ⟨memberOf dbR bind row, ?_, same, rfl⟩
  rw [dbmsGetCollectionResource_eq]
  exact List.mem_map.mpr ⟨(bind, row), Sql.RowOrder.mem_arrange.mpr
    (mem_memberPairs.mpr
      ⟨⟨bound, present⟩, ⟨collection, unmarked, isCollection⟩, same⟩), rfl⟩

/-- The binds of a listed collection have items in the list of its members. -/
theorem exists_mem_children
    (orders : RowOrders)
    (unmarked : dbR.hasBind = false)
    (isCollection : dbR.resourcetype.isCollection = true)
    (bound : bind ∈ store.binds.rows)
    (collection : bind.collectionId = dbR.serialno) :
    ∃ iter ∈ sabridgeGetCollectionChildren orders store dbR,
      iter.serialno = bind.resourceId ∧ iter.bindId = bind.id := by
  rcases exists_mem_dbmsGetCollectionResource orders unmarked isCollection
    bound collection with ⟨item, listed, same, id⟩
  have present : ∃ found, (item, found) ∈
      (LastSeen.mark DavReposResource.serialno some [(dbR.serialno, none)] 0
        (dbmsGetCollectionResource orders store dbR)).1 :=
    LastSeen.exists_mem_mark listed
  rcases present with ⟨found, marked⟩
  exact ⟨{ item with hasBind := found.isSome },
    List.mem_map.mpr ⟨(item, found), marked, rfl⟩, same, id⟩

/-- Every member but the collection itself has an item without a pointer. -/
theorem exists_unmarked
    (unmarked : dbR.hasBind = false)
    (isCollection : dbR.resourcetype.isCollection = true)
    (bound : bind ∈ store.binds.rows)
    (collection : bind.collectionId = dbR.serialno)
    (other : bind.resourceId ≠ dbR.serialno) :
    ∃ iter ∈ sabridgeGetCollectionChildren orders store dbR,
      iter.hasBind = false ∧ iter.serialno = bind.resourceId := by
  have listed : ∃ item ∈ dbmsGetCollectionResource orders store dbR,
      item.serialno = bind.resourceId := by
    rcases exists_mem_dbmsGetCollectionResource orders unmarked isCollection
      bound collection with ⟨item, member, same, -⟩
    exact ⟨item, member, same⟩
  have absent : List.lookup bind.resourceId
      [(dbR.serialno, (none : Option Nat))] = none := by
    rw [List.lookup_cons, beq_eq_false_iff_ne.mpr other]
    rfl
  have fresh : ∃ item, (item, none) ∈
      (LastSeen.mark DavReposResource.serialno some [(dbR.serialno, none)] 0
        (dbmsGetCollectionResource orders store dbR)).1 ∧
      item.serialno = bind.resourceId :=
    LastSeen.exists_new listed absent
  rcases fresh with ⟨item, member, same⟩
  exact ⟨{ item with hasBind := false },
    List.mem_map.mpr ⟨(item, none), member, rfl⟩, rfl, same⟩

/-- A listing has no more items than the collection has binds. -/
theorem length_sabridgeGetCollectionChildren_le :
    (sabridgeGetCollectionChildren orders store dbR).length ≤
      (store.binds.rows.filter fun bind =>
        bind.collectionId == dbR.serialno).length := by
  have fewer : (store.binds.rows.filter fun bind =>
      decide (bind.collectionId ∈
        (listedCollections [dbR]).map DavReposResource.serialno)).length ≤
      (store.binds.rows.filter fun bind =>
        bind.collectionId == dbR.serialno).length := by
    rw [← List.countP_eq_length_filter, ← List.countP_eq_length_filter]
    apply List.countP_mono_left
    intro bind _ named
    exact beq_iff_eq.mpr (mem_listed.mp (of_decide_eq_true named)).1
  have joined : (memberPairs store dbR).length ≤ _ :=
    Sql.length_filter_crossJoin_le store.resourcesPkey
  rw [sabridgeGetCollectionChildren, List.length_map, LastSeen.length_mark,
    dbmsGetCollectionResource_eq, List.length_map,
    (orders.children.perm 0 _).length_eq]
  exact Nat.le_trans joined fewer

end Members

/-! ## Paths -/

/-- A resource has a path as long as a way of binds leads to it. -/
theorem pathFromRoot_eq_none
    {orders : RowOrders} {store : GraphStore} {serialno : Id} :
    pathFromRoot orders store serialno = none ↔
      ¬ (bindGraph store.binds.rows).Reaches rootCollectionId serialno := by
  rcases exists_returns_shortest orders.parents store.binds.rows
    rootCollectionId serialno with ⟨result, returns, missing, -⟩
  have path : pathFromRoot orders store serialno = result := by
    unfold pathFromRoot dbmsFindShortestPath
    rw [returns _ (Nat.lt_succ_self _)]
    rfl
  rw [path]
  exact missing

/-! ## What is left -/

/-- A way of binds that are kept leads from the root to the resource. -/
def Left (store : GraphStore) (kept : Bind → Prop) (id : Id) : Prop :=
  ((bindGraph store.binds.rows).restrict kept).Reaches rootCollectionId id

theorem Left.tail
    {before : GraphStore} {kept : Bind → Prop} {bind : Bind}
    (left : Left before kept bind.collectionId)
    (bound : bind ∈ before.binds.rows)
    (keeps : kept bind) :
    Left before kept bind.resourceId :=
  Multigraph.Reaches.tail (G := (bindGraph before.binds.rows).restrict kept)
    left ⟨bound, keeps⟩

/-- The resources that are left, with the binds of the collections left. -/
structure Collects (before : GraphStore) (kept : Bind → Prop)
    (after : GraphStore) : Prop where
  resources : ∀ row, row ∈ after.resources ↔
    row ∈ before.resources ∧ Left before kept row.1
  binds : ∀ bind, bind ∈ after.binds.rows ↔
    bind ∈ before.binds.rows ∧ kept bind ∧ Left before kept bind.collectionId

/-- What only loses binds, and touched resources that are not left. -/
structure Keeping (before : GraphStore) (kept : Bind → Prop)
    (touched : Id → Prop) (store : GraphStore) : Prop where
  rows : ∀ row ∈ store.resources, row ∈ before.resources
  stays : ∀ row ∈ before.resources, Left before kept row.1 ∨ ¬ touched row.1 →
    row ∈ store.resources
  binds : ∀ bind, bind ∈ store.binds.rows ↔
    bind ∈ before.binds.rows ∧ kept bind ∧
      bind.collectionId ∈ store.ids ∧ bind.resourceId ∈ store.ids

/-- Where the binds lead that have gone while the list is worked through. -/
def Covered (before : GraphStore) (kept : Bind → Prop) (store : GraphStore)
    (list : List DavReposResource) : Prop :=
  ∀ bind ∈ before.binds.rows, ¬ kept bind ∨ bind.collectionId ∉ store.ids →
    Left before kept bind.resourceId ∨ bind.resourceId ∉ store.ids ∨
      ∃ iter ∈ list, iter.hasBind = false ∧ iter.serialno = bind.resourceId

/-- The items of the list are touched resources. -/
def Items (before : GraphStore) (touched : Id → Prop)
    (list : List DavReposResource) : Prop :=
  ∀ iter ∈ list, (iter.serialno, iter.resourcetype) ∈ before.resources ∧
    touched iter.serialno

/-- The members of a collection that is touched are touched. -/
def TouchesMembers (before : GraphStore) (touched : Id → Prop) : Prop :=
  ∀ bind ∈ before.binds.rows, ∀ row ∈ before.resources,
    row.1 = bind.collectionId → row.2.isCollection = true → touched row.1 →
      touched bind.resourceId

section Keeping

variable {orders : RowOrders} {before store : GraphStore}
  {kept : Bind → Prop} {touched : Id → Prop} {iter : DavReposResource}
  {next children : List DavReposResource} {id : Id}

/-- A resource that is left is still there. -/
theorem Keeping.present
    (keeping : Keeping before kept touched store)
    (left : Left before kept id ∨ ¬ touched id)
    (known : id ∈ before.ids) :
    id ∈ store.ids := by
  rcases List.mem_map.mp known with ⟨row, listed, rfl⟩
  exact List.mem_map_of_mem (keeping.stays row listed left)

/-- A bind that is kept stays with its collection. -/
theorem Keeping.bound
    {bind : Bind}
    (keeping : Keeping before kept touched store)
    (known : bind ∈ before.binds.rows)
    (keeps : kept bind)
    (left : Left before kept bind.collectionId) :
    bind ∈ store.binds.rows :=
  (keeping.binds bind).mpr ⟨known, keeps,
    keeping.present (Or.inl left) (before.fkBindCollection bind known),
    keeping.present (Or.inl (left.tail known keeps))
      (before.fkBindResource bind known)⟩

/-- The ways in the tables are those of binds that are kept. -/
theorem Keeping.reaches
    (keeping : Keeping before kept touched store) :
    (bindGraph store.binds.rows).Reaches rootCollectionId id ↔
      Left before kept id := by
  apply Multigraph.reaches_present (P := fun id => id ∈ store.ids)
  · rfl
  · rfl
  · exact keeping.binds
  · rintro id left ⟨bind, bound, rfl | rfl⟩
    · exact keeping.present (Or.inl left) (before.fkBindCollection bind bound)
    · exact keeping.present (Or.inl left) (before.fkBindResource bind bound)

/-- With nothing left to do, what is not reached has gone. -/
theorem Keeping.collects
    (keeping : Keeping before kept touched store)
    (covered : Covered before kept store [])
    (reachable : ∀ id ∈ before.ids,
      (bindGraph before.binds.rows).Reaches rootCollectionId id) :
    Collects before kept store := by
  have gone : ∀ id ∈ before.ids, Left before kept id ∨ id ∉ store.ids := by
    intro id known
    apply (reachable id known).reached_or_gone (D := fun id => id ∉ store.ids)
    intro bind bound missing
    rcases covered bind bound missing with left | gone | pending
    · exact Or.inl left
    · exact Or.inr gone
    · rcases pending with ⟨iter, member, -⟩
      cases member
  have left : ∀ id ∈ store.ids, Left before kept id := by
    intro id present
    rcases List.mem_map.mp present with ⟨row, listed, rfl⟩
    have known : row.1 ∈ before.ids :=
      List.mem_map_of_mem (keeping.rows row listed)
    exact (gone row.1 known).resolve_right (not_not_intro present)
  constructor
  · intro row
    constructor
    · intro listed
      exact ⟨keeping.rows row listed, left row.1 (List.mem_map_of_mem listed)⟩
    · rintro ⟨listed, reached⟩
      exact keeping.stays row listed (Or.inl reached)
  · intro bind
    constructor
    · intro present
      rcases (keeping.binds bind).mp present with ⟨bound, keeps, collection, -⟩
      exact ⟨bound, keeps, left _ collection⟩
    · rintro ⟨bound, keeps, reached⟩
      exact keeping.bound bound keeps reached

/-- An item that is reached is done with. -/
theorem Covered.skip
    (covered : Covered before kept store (iter :: next))
    (done : iter.hasBind = true ∨ Left before kept iter.serialno) :
    Covered before kept store next := by
  intro bind bound missing
  rcases covered bind bound missing with
    left | gone | ⟨other, member, unmarked, same⟩
  · exact Or.inl left
  · exact Or.inr (Or.inl gone)
  · rcases List.mem_cons.mp member with rfl | later
    · rcases done with marked | left
      · rw [marked] at unmarked
        cases unmarked
      · rw [← same]
        exact Or.inl left
    · exact Or.inr (Or.inr ⟨other, later, unmarked, same⟩)

theorem mem_ids_dbmsDeleteResource
    {serialno : Id} :
    id ∈ (dbmsDeleteResource store serialno).ids ↔
      id ∈ store.ids ∧ id ≠ serialno := by
  constructor
  · intro present
    rcases List.mem_map.mp present with ⟨row, listed, rfl⟩
    rcases List.mem_filter.mp listed with ⟨listed, other⟩
    exact ⟨List.mem_map_of_mem listed, bne_iff_ne.mp other⟩
  · rintro ⟨present, other⟩
    exact mem_ids_filter present other

/-- A touched resource that is not left may be deleted. -/
theorem Keeping.delete
    {serialno : Id}
    (keeping : Keeping before kept touched store)
    (unreached : ¬ Left before kept serialno)
    (isTouched : touched serialno) :
    Keeping before kept touched (dbmsDeleteResource store serialno) where
  rows := fun row member => keeping.rows row (List.mem_of_mem_filter member)
  stays := by
    intro row listed left
    apply List.mem_filter.mpr
    refine ⟨keeping.stays row listed left, ?_⟩
    apply bne_iff_ne.mpr
    intro same
    rw [same] at left
    rcases left with left | untouched
    · exact unreached left
    · exact untouched isTouched
  binds := by
    intro bind
    rw [mem_ids_dbmsDeleteResource, mem_ids_dbmsDeleteResource]
    show bind ∈ store.binds.rows.filter _ ↔ _
    rw [List.mem_filter, keeping.binds, Bool.and_eq_true, bne_iff_ne,
      bne_iff_ne]
    constructor
    · rintro ⟨⟨bound, keeps, source, target⟩, otherSource, otherTarget⟩
      exact ⟨bound, keeps, ⟨source, otherSource⟩, target, otherTarget⟩
    · rintro ⟨bound, keeps, ⟨source, otherSource⟩, target, otherTarget⟩
      exact ⟨⟨bound, keeps, source, target⟩, otherSource, otherTarget⟩

/-- The members of a resource that is deleted are put on the list. -/
theorem Covered.delete
    (keeping : Keeping before kept touched store)
    (covered : Covered before kept store (iter :: next))
    (covers : ∀ bind ∈ store.binds.rows, bind.collectionId = iter.serialno →
      bind.resourceId ≠ iter.serialno →
        ∃ child ∈ children, child.hasBind = false ∧
          child.serialno = bind.resourceId) :
    Covered before kept (dbmsDeleteResource store iter.serialno)
      (next ++ children) := by
  intro bind bound missing
  rw [mem_ids_dbmsDeleteResource, not_and_or, not_not] at missing
  rw [mem_ids_dbmsDeleteResource, not_and_or, not_not]
  by_cases old : ¬ kept bind ∨ bind.collectionId ∉ store.ids
  · rcases covered bind bound old with
      left | gone | ⟨other, member, unmarked, same⟩
    · exact Or.inl left
    · exact Or.inr (Or.inl (Or.inl gone))
    · rcases List.mem_cons.mp member with rfl | later
      · exact Or.inr (Or.inl (Or.inr same.symm))
      · exact Or.inr (Or.inr
          ⟨other, List.mem_append_left _ later, unmarked, same⟩)
  · -- the bind leaves the deleted resource
    rw [not_or, not_not, not_not] at old
    have collection : bind.collectionId = iter.serialno := by
      rcases missing with lost | gone | same
      · exact absurd old.1 lost
      · exact absurd old.2 gone
      · exact same
    by_cases present : bind.resourceId ∈ store.ids
    · by_cases same : bind.resourceId = iter.serialno
      · exact Or.inr (Or.inl (Or.inr same))
      · have here : bind ∈ store.binds.rows :=
          (keeping.binds bind).mpr ⟨bound, old.1, old.2, present⟩
        rcases covers bind here collection same with
          ⟨child, member, unmarked, equal⟩
        exact Or.inr (Or.inr
          ⟨child, List.mem_append_right _ member, unmarked, equal⟩)
    · exact Or.inr (Or.inl (Or.inl present))

end Keeping

/-! ## One round -/

section Round

variable {orders : RowOrders} {before store : GraphStore}
  {kept : Bind → Prop} {touched : Id → Prop} {dbR iter : DavReposResource}
  {next : List DavReposResource}

@[simp]
theorem resources_deleteBindOf (store : GraphStore)
    (dbR : DavReposResource) :
    (deleteBindOf store dbR).resources = store.resources := by
  unfold deleteBindOf
  split
  · rfl
  · rfl

@[simp]
theorem ids_deleteBindOf (store : GraphStore) (dbR : DavReposResource) :
    (deleteBindOf store dbR).ids = store.ids := by
  rw [GraphStore.ids, resources_deleteBindOf]
  rfl

theorem binds_deleteBindOf_sublist (store : GraphStore)
    (dbR : DavReposResource) :
    (deleteBindOf store dbR).binds.rows.Sublist store.binds.rows := by
  unfold deleteBindOf
  split
  · exact List.Sublist.refl _
  · exact List.filter_sublist

/-- Nothing is to be done when the collection of the bind has no binds. -/
theorem deleteBindOf_eq_self
    (loose : ∀ bind ∈ store.binds.rows, bind.collectionId ≠ dbR.parentId) :
    deleteBindOf store dbR = store := by
  unfold deleteBindOf
  split
  · rfl
  next uri _ =>
    have all : (store.binds.rows.filter fun bind =>
        !(bind.collectionId == dbR.parentId &&
          bind.resourceId == dbR.serialno && bind.name == basename uri)) =
        store.binds.rows := by
      apply List.filter_eq_self.mpr
      intro bind bound
      rw [beq_eq_false_iff_ne.mpr (loose bind bound)]
      rfl
    have same : (store.binds.keep fun bind =>
        !(bind.collectionId == dbR.parentId &&
          bind.resourceId == dbR.serialno && bind.name == basename uri)) =
        store.binds := by
      unfold BindTable.keep
      cases table : store.binds with
      | mk rows pkey collectionIdKey positive =>
          rw [table] at all
          simp only [all]
    cases store with
    | mk resources binds vhrs versions vcrs pkey collection resource =>
        simp only [same]

/-- The last name of the URI of an item is the name of its bind. -/
theorem basename_member
    {coll : DavReposResource} {bind : Bind}
    (member : MemberBind before coll iter bind)
    (segment : Segments.IsSegment '/' bind.name) :
    ∃ uri, iter.uri = some uri ∧ basename uri = bind.name := by
  rcases member.uri with ⟨path, uri⟩
  refine ⟨_, uri, ?_⟩
  rw [basename, Segments.tokens_append_sep, Segments.tokens_segment segment,
    List.getLastD_concat]

/-- Deleting the bind that a record names deletes this one bind. -/
theorem mem_deleteBindOf_named
    {dbR : DavReposResource} {bind other : Bind} {uri : Text}
    (located : dbR.uri = some uri) (named : basename uri = bind.name)
    (collection : dbR.parentId = bind.collectionId)
    (resource : dbR.serialno = bind.resourceId)
    (unique : ∀ other ∈ store.binds.rows, other.key = bind.key →
      other = bind) :
    other ∈ (deleteBindOf store dbR).binds.rows ↔
      other ∈ store.binds.rows ∧ other ≠ bind := by
  unfold deleteBindOf
  rw [located]
  show other ∈ store.binds.rows.filter _ ↔ _
  rw [List.mem_filter, named, collection, resource]
  refine and_congr_right fun present => ?_
  rw [Bool.not_eq_true', Bool.and_eq_false_iff, Bool.and_eq_false_iff,
    beq_eq_false_iff_ne, beq_eq_false_iff_ne, beq_eq_false_iff_ne]
  constructor
  · rintro ((collection | resource) | named) rfl
    · exact collection rfl
    · exact resource rfl
    · exact named rfl
  · intro distinct
    by_cases sameCollection : other.collectionId = bind.collectionId
    · right
      intro sameName
      have key : other.key = bind.key := by
        rw [Bind.key, Bind.key, sameName, sameCollection]
      exact distinct (unique other present key)
    · exact Or.inl (Or.inl sameCollection)

/-- Deleting the bind of an item deletes this one bind. -/
theorem mem_deleteBindOf
    {coll : DavReposResource} {bind other : Bind}
    (member : MemberBind before coll iter bind)
    (segment : Segments.IsSegment '/' bind.name)
    (among : ∀ other ∈ store.binds.rows, other ∈ before.binds.rows) :
    other ∈ (deleteBindOf store iter).binds.rows ↔
      other ∈ store.binds.rows ∧ other ≠ bind := by
  rcases basename_member member segment with ⟨uri, located, name⟩
  apply mem_deleteBindOf_named located name
  · rw [member.parent, member.collection]
  · exact member.resource.symm
  · intro other present key
    exact List.inj_on_of_nodup_map before.binds.collectionIdKey
      (among other present) member.bound key

/-- The members that are listed before the bind of a resource is deleted. -/
def listedMembers (orders : RowOrders) (store : GraphStore)
    (iter : DavReposResource) : List DavReposResource :=
  if iter.resourcetype.isCollection then
    sabridgeGetCollectionChildren orders store iter
  else []

theorem exists_memberBind_listed
    {child : DavReposResource}
    (member : child ∈ listedMembers orders store iter) :
    ∃ bind, MemberBind store iter child bind := by
  unfold listedMembers at member
  split at member
  · exact exists_memberBind member
  · cases member

/-- The members that are new differ from each other and from the collection. -/
theorem pairwise_listedMembers (orders : RowOrders) (store : GraphStore)
    (iter : DavReposResource) :
    (∀ child ∈ listedMembers orders store iter, child.hasBind = false →
      child.serialno ≠ iter.serialno) ∧
      (listedMembers orders store iter).Pairwise fun first second =>
        second.hasBind = false → first.serialno ≠ second.serialno := by
  unfold listedMembers
  split
  · unfold sabridgeGetCollectionChildren
    constructor
    · intro child member unmarked
      rcases List.mem_map.mp member with ⟨⟨dbR, found⟩, marked, rfl⟩
      have isNew : found = none := by simpa using unmarked
      rcases isNew with rfl
      have absent := (LastSeen.new_of_mem_mark marked).2
      rintro same
      have isSame : dbR.serialno = iter.serialno := same
      rw [isSame, List.lookup_cons_self] at absent
      cases absent
    · apply List.Pairwise.map _ _ LastSeen.pairwise_new
      intro first second differ unmarked
      apply differ
      simpa using unmarked
  · exact ⟨nofun, List.Pairwise.nil⟩

theorem length_listedMembers_le
    (orders : RowOrders) (store : GraphStore) (iter : DavReposResource) :
    (listedMembers orders store iter).length ≤
      (store.binds.rows.filter fun bind =>
        bind.collectionId == iter.serialno).length := by
  unfold listedMembers
  split
  · exact length_sabridgeGetCollectionChildren_le
  · exact Nat.zero_le _

theorem unbindRound_marked
    (marked : iter.hasBind = true) :
    unbindRound orders (store, iter :: next) = .inr (store, next) := by
  rw [unbindRound, if_pos marked]

theorem unbindRound_path
    (unmarked : iter.hasBind = false)
    (reached : (bindGraph (deleteBindOf store iter).binds.rows).Reaches
      rootCollectionId iter.serialno) :
    unbindRound orders (store, iter :: next) =
      .inr (deleteBindOf store iter, next) := by
  have path : pathFromRoot orders (deleteBindOf store iter) iter.serialno ≠
      none := by
    intro missing
    exact pathFromRoot_eq_none.mp missing reached
  rcases Option.ne_none_iff_exists'.mp path with ⟨text, found⟩
  rw [unbindRound, unmarked, if_neg Bool.false_ne_true,
    sabridgeDeleteIfOrphaned, found]
  rfl

theorem unbindRound_orphan
    (unmarked : iter.hasBind = false)
    (unreached : ¬ (bindGraph (deleteBindOf store iter).binds.rows).Reaches
      rootCollectionId iter.serialno)
    (plain : iter.resourcetype ≠ .versionHistory) :
    unbindRound orders (store, iter :: next) =
      .inr (dbmsDeleteResource (deleteBindOf store iter) iter.serialno,
        next ++ listedMembers orders store iter) := by
  rw [unbindRound, unmarked, if_neg Bool.false_ne_true,
    sabridgeDeleteIfOrphaned, pathFromRoot_eq_none.mpr unreached,
    sabridgeDeleteResource, if_neg plain]
  rfl

/-- The binds and the items that there still are. -/
def remaining (state : GraphStore × List DavReposResource) : Nat :=
  state.1.binds.rows.length + state.2.length

/-- The binds of a deleted collection make up for its members. -/
theorem remaining_orphan :
    remaining (dbmsDeleteResource (deleteBindOf store iter) iter.serialno,
        next ++ listedMembers orders store iter) <
      remaining (store, iter :: next) := by
  have fewer : (dbmsDeleteResource (deleteBindOf store iter)
      iter.serialno).binds.rows.length ≤
      (store.binds.rows.filter fun bind =>
        !(bind.collectionId == iter.serialno)).length := by
    have among : ((deleteBindOf store iter).binds.rows.filter fun bind =>
        bind.collectionId != iter.serialno &&
          bind.resourceId != iter.serialno).Sublist
        (store.binds.rows.filter fun bind =>
          bind.collectionId != iter.serialno &&
            bind.resourceId != iter.serialno) :=
      (binds_deleteBindOf_sublist store iter).filter _
    apply Nat.le_trans among.length_le
    rw [← List.countP_eq_length_filter, ← List.countP_eq_length_filter]
    apply List.countP_mono_left
    intro bind _ both
    exact (Bool.and_eq_true _ _ ▸ both).1
  have split : store.binds.rows.length =
      (store.binds.rows.filter fun bind =>
        bind.collectionId == iter.serialno).length +
      (store.binds.rows.filter fun bind =>
        !(bind.collectionId == iter.serialno)).length :=
    List.length_eq_length_filter_add _
  have members := length_listedMembers_le orders store iter
  show (dbmsDeleteResource (deleteBindOf store iter)
      iter.serialno).binds.rows.length +
        (next ++ listedMembers orders store iter).length <
      store.binds.rows.length + (iter :: next).length
  rw [List.length_append, List.length_cons]
  omega

theorem remaining_path :
    remaining (deleteBindOf store iter, next) <
      remaining (store, iter :: next) := by
  have fewer := (binds_deleteBindOf_sublist store iter).length_le
  show (deleteBindOf store iter).binds.rows.length + next.length <
    store.binds.rows.length + (iter :: next).length
  rw [List.length_cons]
  omega

/-- No bind is left of the collections whose binds the items show. -/
def Loose (store : GraphStore) (list : List DavReposResource) : Prop :=
  ∀ iter ∈ list, ∀ bind ∈ store.binds.rows, bind.collectionId ≠ iter.parentId

theorem Loose.deleteBindOf_eq
    (loose : Loose store (iter :: next)) :
    deleteBindOf store iter = store :=
  deleteBindOf_eq_self (loose iter List.mem_cons_self)

/-- No version history becomes unreachable. -/
def KeepsHistories (before : GraphStore) (kept : Bind → Prop) : Prop :=
  ∀ row ∈ before.resources, row.2 = .versionHistory → Left before kept row.1

/-- No touched version history becomes unreachable. -/
def KeepsTouched (before : GraphStore) (kept : Bind → Prop)
    (touched : Id → Prop) : Prop :=
  ∀ row ∈ before.resources, touched row.1 → row.2 = .versionHistory →
    Left before kept row.1

/-- Only listed collections that become unreachable have members. -/
def ListsMembers (before : GraphStore) (kept : Bind → Prop) : Prop :=
  ∀ bind ∈ before.binds.rows, ∀ row ∈ before.resources,
    row.1 = bind.collectionId →
      Left before kept row.1 ∨ row.2.isCollection = true

/--
No version history becomes unreachable, and no resource with members that is
not listed as a collection.
-/
structure Collectable (before : GraphStore) (kept : Bind → Prop) : Prop where
  histories : KeepsHistories before kept
  members : ListsMembers before kept

/-- What holds before every round but the first. -/
structure Working (before : GraphStore) (kept : Bind → Prop)
    (touched : Id → Prop) (state : GraphStore × List DavReposResource) :
    Prop where
  keeping : Keeping before kept touched state.1
  items : Items before touched state.2
  loose : Loose state.1 state.2

/-- What one round does, when the bind of its item has been dealt with. -/
theorem Keeping.round
    (orders : RowOrders)
    (keeping : Keeping before kept touched (deleteBindOf store iter))
    (among : ∀ bind ∈ store.binds.rows, bind ∈ before.binds.rows)
    (items : Items before touched (iter :: next))
    (loose : Loose (deleteBindOf store iter) next)
    (histories : KeepsTouched before kept touched)
    (members : TouchesMembers before touched)
    (unmarked : iter.hasBind = false) :
    ∃ state, unbindRound orders (store, iter :: next) = .inr state ∧
      Working before kept touched state ∧
      remaining state < remaining (store, iter :: next) ∧
      (ListsMembers before kept →
        Covered before kept (deleteBindOf store iter) (iter :: next) →
          Covered before kept state.1 state.2) := by
  rcases items iter List.mem_cons_self with ⟨row, isTouched⟩
  have rest : Items before touched next := fun other member =>
    items other (List.mem_cons_of_mem _ member)
  by_cases left : Left before kept iter.serialno
  · exact ⟨_, unbindRound_path unmarked (keeping.reaches.mpr left),
      ⟨keeping, rest, loose⟩, remaining_path,
      fun _ covered => covered.skip (Or.inr left)⟩
  · have plain : iter.resourcetype ≠ .versionHistory := by
      intro history
      exact left (histories _ row isTouched history)
    refine ⟨_, unbindRound_orphan unmarked (mt keeping.reaches.mp left) plain,
      ⟨keeping.delete left isTouched, ?_, ?_⟩, remaining_orphan, ?_⟩
    · intro other member
      rcases List.mem_append.mp member with later | child
      · exact rest other later
      · rcases exists_memberBind_listed child with ⟨bind, memberBind⟩
        have isCollection : iter.resourcetype.isCollection = true := by
          by_contra plain
          rw [listedMembers, if_neg plain] at child
          cases child
        constructor
        · apply keeping.rows
          rw [resources_deleteBindOf]
          exact memberBind.row
        · rw [← memberBind.resource]
          exact members bind (among bind memberBind.bound) _ row
            memberBind.collection.symm isCollection isTouched
    · intro other member bind bound
      rcases List.mem_filter.mp bound with ⟨present, ends⟩
      rcases List.mem_append.mp member with later | child
      · exact loose other later bind present
      · rcases exists_memberBind_listed child with ⟨childBind, memberBind⟩
        rw [memberBind.parent]
        rw [Bool.and_eq_true, bne_iff_ne] at ends
        exact ends.1
    · intro lists covered
      apply covered.delete keeping
      intro bind bound collection other
      have known : bind ∈ before.binds.rows :=
        ((keeping.binds bind).mp bound).1
      have isCollection : iter.resourcetype.isCollection = true :=
        (lists bind known _ row collection.symm).resolve_left left
      unfold listedMembers
      rw [if_pos isCollection]
      exact exists_unmarked unmarked isCollection
        ((binds_deleteBindOf_sublist store iter).subset bound) collection other

end Round

/-! ## The loop -/

section Collects

variable {before store after : GraphStore} {kept fewer : Bind → Prop}
  {dbR : DavReposResource} {id : Id}

/-- The ways that are left after two steps. -/
theorem Collects.left_iff
    (collects : Collects before kept store) :
    Left store fewer id ↔
      Left before (fun bind => kept bind ∧ fewer bind) id := by
  constructor
  · intro left
    apply left.transfer
    · intro bind present
      have bound := (collects.binds bind).mp present.1
      exact ⟨bound.1, bound.2.1, present.2⟩
    · rfl
    · rfl
  · intro left
    have both : Left before kept id ∧ Left store fewer id := by
      apply left.mem_of_closed
        (S := fun id => Left before kept id ∧ Left store fewer id)
      · exact ⟨Multigraph.Reaches.refl _ _, Multigraph.Reaches.refl _ _⟩
      · rintro bind ⟨bound, keeps, still⟩ source
        have present : bind ∈ store.binds.rows :=
          (collects.binds bind).mpr ⟨bound, keeps, source.1⟩
        exact ⟨source.1.tail bound keeps, source.2.tail present still⟩
    exact both.2

theorem Collects.trans
    (first : Collects before kept store)
    (second : Collects store fewer after) :
    Collects before (fun bind => kept bind ∧ fewer bind) after where
  resources := by
    intro row
    rw [second.resources, first.resources, first.left_iff, and_assoc]
    constructor
    · rintro ⟨listed, -, left⟩
      exact ⟨listed, left⟩
    · rintro ⟨listed, left⟩
      exact ⟨listed, left.mono_restrict fun bind _ both => both.1, left⟩
  binds := by
    intro bind
    rw [second.binds, first.binds, first.left_iff]
    constructor
    · rintro ⟨⟨bound, keeps, -⟩, still, left⟩
      exact ⟨bound, ⟨keeps, still⟩, left⟩
    · rintro ⟨bound, ⟨keeps, still⟩, left⟩
      exact ⟨⟨bound, keeps, left.mono_restrict fun bind _ both => both.1⟩,
        still, left⟩

theorem left_congr
    (same : ∀ bind ∈ before.binds.rows, kept bind ↔ fewer bind) :
    Left before kept id ↔ Left before fewer id := by
  constructor
  · intro left
    exact left.mono_restrict fun bind bound => (same bind bound).mp
  · intro left
    exact left.mono_restrict fun bind bound => (same bind bound).mpr

theorem Collects.congr
    (collects : Collects before kept after)
    (same : ∀ bind ∈ before.binds.rows, kept bind ↔ fewer bind) :
    Collects before fewer after where
  resources := by
    intro row
    rw [collects.resources, left_congr same]
  binds := by
    intro bind
    rw [collects.binds, left_congr same]
    refine and_congr_right fun bound => ?_
    rw [same bind bound]

/-- What is left is reached. -/
theorem Collects.reachable
    (collects : Collects before kept after) :
    ∀ id ∈ after.ids,
      (bindGraph after.binds.rows).Reaches rootCollectionId id := by
  intro id present
  rcases List.mem_map.mp present with ⟨row, listed, rfl⟩
  have left : Left after (fun _ => True) row.1 := by
    rw [collects.left_iff, left_congr fun bind _ => and_iff_left trivial]
    exact ((collects.resources row).mp listed).2
  exact left.of_restrict

/-- Nothing goes from tables in which everything is reached. -/
theorem Collects.refl
    (reachable : ∀ id ∈ before.ids,
      (bindGraph before.binds.rows).Reaches rootCollectionId id)
    (all : ∀ bind ∈ before.binds.rows, kept bind) :
    Collects before kept before := by
  have left : ∀ id ∈ before.ids, Left before kept id := by
    intro id known
    apply (reachable id known).transfer
    · intro bind bound
      exact ⟨bound, all bind bound⟩
    · rfl
    · rfl
  constructor
  · intro row
    constructor
    · intro listed
      exact ⟨listed, left row.1 (List.mem_map_of_mem listed)⟩
    · exact And.left
  · intro bind
    constructor
    · intro bound
      exact ⟨bound, all bind bound,
        left bind.collectionId (before.fkBindCollection bind bound)⟩
    · exact And.left

theorem Collects.length_le
    (collects : Collects before kept after) :
    after.binds.rows.length ≤ before.binds.rows.length := by
  have among : after.binds.rows ⊆ before.binds.rows := fun bind bound =>
    ((collects.binds bind).mp bound).1
  exact (List.subperm_of_subset after.binds.pkey.of_map among).length_le

/-- A bind that goes without a resource becoming unreachable. -/
theorem collects_of_covered
    (reachable : ∀ id ∈ before.ids,
      (bindGraph before.binds.rows).Reaches rootCollectionId id)
    (resources : after.resources = before.resources)
    (binds : ∀ bind, bind ∈ after.binds.rows ↔
      bind ∈ before.binds.rows ∧ kept bind)
    (covered : ∀ bind ∈ before.binds.rows, ¬ kept bind →
      Left before kept bind.resourceId) :
    Collects before kept after := by
  have all : Collects before (fun _ => True) before :=
    Collects.refl reachable fun _ _ => trivial
  have left : ∀ row ∈ before.resources, Left before kept row.1 := by
    intro row listed
    have here : Left before (fun _ => True) row.1 :=
      ((all.resources row).mp listed).2
    exact here.without fun bind bound _ lost => covered bind bound lost
  constructor
  · intro row
    rw [resources]
    constructor
    · intro listed
      exact ⟨listed, left row listed⟩
    · exact And.left
  · intro bind
    rw [binds]
    constructor
    · rintro ⟨bound, keeps⟩
      rcases List.mem_map.mp (before.fkBindCollection bind bound) with
        ⟨row, listed, same⟩
      rw [← same]
      exact ⟨bound, keeps, left row listed⟩
    · rintro ⟨bound, keeps, -⟩
      exact ⟨bound, keeps⟩

/-- The tables when the bind of the resource has been deleted. -/
theorem keeping_start
    (binds : ∀ bind, bind ∈ (deleteBindOf store dbR).binds.rows ↔
      bind ∈ store.binds.rows ∧ kept bind) :
    Keeping store kept touched (deleteBindOf store dbR) where
  rows := by
    intro row listed
    rw [resources_deleteBindOf] at listed
    exact listed
  stays := by
    intro row listed _
    rw [resources_deleteBindOf]
    exact listed
  binds := by
    intro bind
    rw [binds, ids_deleteBindOf]
    constructor
    · rintro ⟨bound, keeps⟩
      exact ⟨bound, keeps, store.fkBindCollection bind bound,
        store.fkBindResource bind bound⟩
    · rintro ⟨bound, keeps, -⟩
      exact ⟨bound, keeps⟩

/-- The bind that has been deleted leads to the resource on the list. -/
theorem covered_start
    (unmarked : dbR.hasBind = false)
    (target : ∀ bind ∈ store.binds.rows, ¬ kept bind →
      bind.resourceId = dbR.serialno) :
    Covered store kept (deleteBindOf store dbR) [dbR] := by
  intro bind bound missing
  rw [ids_deleteBindOf] at missing
  have lost : ¬ kept bind :=
    missing.resolve_right (not_not_intro (store.fkBindCollection bind bound))
  exact Or.inr (Or.inr ⟨dbR, List.mem_singleton_self dbR, unmarked,
    (target bind bound lost).symm⟩)

end Collects

section Unbind

variable {orders : RowOrders} {before store after : GraphStore}
  {kept : Bind → Prop} {touched : Id → Prop} {dbR : DavReposResource}
  {fuel : Nat} {C : Prop}

/-- What holds before every round but the first, `C` when all is covered. -/
def WorkingWith (C : Prop) (before : GraphStore) (kept : Bind → Prop)
    (touched : Id → Prop) (state : GraphStore × List DavReposResource) : Prop :=
  Working before kept touched state ∧ (C → Covered before kept state.1 state.2)

/-- A round keeps what holds and leaves less to do. -/
theorem WorkingWith.round
    {list : List DavReposResource}
    (orders : RowOrders)
    (histories : KeepsTouched before kept touched)
    (members : TouchesMembers before touched)
    (lists : C → ListsMembers before kept)
    (working : WorkingWith C before kept touched (store, dbR :: list)) :
    ∃ next, unbindRound orders (store, dbR :: list) = .inr next ∧
      WorkingWith C before kept touched next ∧
      remaining next < remaining (store, dbR :: list) := by
  rcases working with ⟨⟨keeping, items, loose⟩, covered⟩
  have rest : Loose store list := fun other member =>
    loose other (List.mem_cons_of_mem _ member)
  cases marked : dbR.hasBind with
  | true =>
      refine ⟨_, unbindRound_marked marked, ⟨⟨keeping, ?_, rest⟩, ?_⟩, ?_⟩
      · exact fun other member =>
          items other (List.mem_cons_of_mem _ member)
      · exact fun holds => (covered holds).skip (Or.inl marked)
      · exact Nat.add_lt_add_left (Nat.lt_succ_self list.length) _
  | false =>
      -- the bind of the item has gone with its collection
      have dealt := loose.deleteBindOf_eq
      have among : ∀ bind ∈ store.binds.rows, bind ∈ before.binds.rows :=
        fun bind bound => ((keeping.binds bind).mp bound).1
      have settled : Keeping before kept touched (deleteBindOf store dbR) := by
        rw [dealt]
        exact keeping
      have restLoose : Loose (deleteBindOf store dbR) list := by
        rw [dealt]
        exact rest
      rcases settled.round orders among items restLoose histories members
        marked with
        ⟨after, round, working, less, covers⟩
      refine ⟨after, round, ⟨working, fun holds =>
        covers (lists holds) ?_⟩, less⟩
      rw [dealt]
      exact covered holds

/-- The loop is left with an empty list. -/
theorem WorkingWith.leaves
    {state : GraphStore × List DavReposResource} {result : Option GraphStore}
    (histories : KeepsTouched before kept touched)
    (members : TouchesMembers before touched)
    (lists : C → ListsMembers before kept)
    (working : WorkingWith C before kept touched state)
    (stopped : unbindRound orders state = .inl result) :
    ∃ after, result = some after ∧
      Keeping before kept touched after ∧
        (C → Covered before kept after []) := by
  rcases state with ⟨store, list⟩
  cases list with
  | nil =>
      rcases Sum.inl.inj stopped with rfl
      exact ⟨store, rfl, working.1.keeping, working.2⟩
  | cons iter next =>
      rcases working.round orders histories members lists with ⟨state, round, -⟩
      cases round.symm.trans stopped

theorem WorkingWith.continues
    {state next : GraphStore × List DavReposResource}
    (histories : KeepsTouched before kept touched)
    (members : TouchesMembers before touched)
    (lists : C → ListsMembers before kept)
    (working : WorkingWith C before kept touched state)
    (passed : unbindRound orders state = .inr next) :
    WorkingWith C before kept touched next ∧
      remaining next < remaining state := by
  rcases state with ⟨store, list⟩
  cases list with
  | nil => cases passed
  | cons iter list =>
      rcases working.round orders histories members lists with
        ⟨state, round, keeps⟩
      rcases Sum.inr.inj (round.symm.trans passed) with rfl
      exact keeps

/-- `sabridge_unbind_resource` with what `C` says about the binds gone. -/
theorem sabridgeUnbindResource_spec
    (orders : RowOrders)
    (keeping : Keeping before kept touched (deleteBindOf store dbR))
    (among : ∀ bind ∈ store.binds.rows, bind ∈ before.binds.rows)
    (row : (dbR.serialno, dbR.resourcetype) ∈ before.resources)
    (isTouched : touched dbR.serialno)
    (histories : KeepsTouched before kept touched)
    (members : TouchesMembers before touched)
    (lists : C → ListsMembers before kept)
    (covered : C → Covered before kept (deleteBindOf store dbR) [dbR])
    (unmarked : dbR.hasBind = false)
    (enough : store.binds.rows.length + 1 < fuel) :
    ∃ after, sabridgeUnbindResource fuel orders store dbR = some after ∧
      Keeping before kept touched after ∧
        (C → Covered before kept after []) := by
  have items : Items before touched [dbR] := by
    intro iter member
    rcases List.mem_singleton.mp member with rfl
    exact ⟨row, isTouched⟩
  have none : Loose (deleteBindOf store dbR) [] := by
    intro iter member
    cases member
  rcases keeping.round orders among items none histories members unmarked with
    ⟨state, round, working, less, covers⟩
  cases fuel with
  | zero => exact (Nat.not_lt_zero _ enough).elim
  | succ fuel =>
      have unfolded : sabridgeUnbindResource (fuel + 1) orders store dbR =
          (Loop.run (unbindRound orders) fuel state).join := by
        rw [sabridgeUnbindResource, Loop.run, round]
      have start : WorkingWith C before kept touched state :=
        ⟨working, fun holds => covers (lists holds) (covered holds)⟩
      rcases Loop.run_spec
        (fun _ _ => WorkingWith.leaves histories members lists)
        (fun _ _ => WorkingWith.continues histories members lists)
        (Nat.lt_of_lt_of_le less (Nat.le_of_lt_succ enough)) start with
        ⟨result, stops, after, rfl, kept⟩
      rw [unfolded, stops]
      exact ⟨after, rfl, kept⟩

/-- What is left stays when a resource is unbound. -/
theorem sabridgeUnbindResource_keeps
    (orders : RowOrders)
    (keeping : Keeping before kept touched (deleteBindOf store dbR))
    (among : ∀ bind ∈ store.binds.rows, bind ∈ before.binds.rows)
    (row : (dbR.serialno, dbR.resourcetype) ∈ before.resources)
    (isTouched : touched dbR.serialno)
    (histories : KeepsTouched before kept touched)
    (members : TouchesMembers before touched)
    (unmarked : dbR.hasBind = false)
    (enough : store.binds.rows.length + 1 < fuel) :
    ∃ after, sabridgeUnbindResource fuel orders store dbR = some after ∧
      Keeping before kept touched after := by
  rcases sabridgeUnbindResource_spec (C := False) orders keeping among row
    isTouched histories members False.elim False.elim unmarked enough with
    ⟨after, returns, kept, -⟩
  exact ⟨after, returns, kept⟩

/--
Unbinding a resource of tables in which everything is reachable leaves
exactly what is still reachable.
-/
theorem sabridgeUnbindResource_collects
    (orders : RowOrders)
    (binds : ∀ bind, bind ∈ (deleteBindOf store dbR).binds.rows ↔
      bind ∈ store.binds.rows ∧ kept bind)
    (target : ∀ bind ∈ store.binds.rows, ¬ kept bind →
      bind.resourceId = dbR.serialno)
    (row : (dbR.serialno, dbR.resourcetype) ∈ store.resources)
    (collectable : Collectable store kept)
    (reachable : ∀ id ∈ store.ids,
      (bindGraph store.binds.rows).Reaches rootCollectionId id)
    (unmarked : dbR.hasBind = false)
    (enough : store.binds.rows.length + 1 < fuel) :
    ∃ after, sabridgeUnbindResource fuel orders store dbR = some after ∧
      Collects store kept after := by
  have start : Keeping store kept (fun _ => True) (deleteBindOf store dbR) :=
    keeping_start binds
  rcases sabridgeUnbindResource_spec (C := True) orders start (fun _ => id)
    row trivial
    (fun row listed _ => collectable.histories row listed)
    (fun _ _ _ _ _ _ _ => trivial) (fun _ => collectable.members)
    (fun _ => covered_start unmarked target) unmarked enough with
    ⟨after, returns, keeping, covered⟩
  exact ⟨after, returns, keeping.collects (covered trivial) reachable⟩

end Unbind

end Limestone.UnbindCollects
