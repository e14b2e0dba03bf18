import Limestone.UnbindCollects

/-!
# Emptying a collection

`sabridge_coll_clear_children` lists the binds of a collection and removes
them one after the other.  The item of a resource that the list has had
already only loses its bind; the first one is unbound, which deletes what
becomes unreachable by it.
-/

namespace Limestone.ClearChildren

open Library
open DbmsBind
open DbmsCollection
open PathSearch
open BridgeUnbind
open UnbindCollects

/-- The binds of other collections. -/
def Elsewhere (coll : DavReposResource) (bind : Bind) : Prop :=
  bind.collectionId ≠ coll.serialno

/-- The bind of an item of the list. -/
def Taken (list : List DavReposResource) (bind : Bind) : Prop :=
  ∃ iter ∈ list, iter.bindId = bind.id

section Clear

variable {orders : RowOrders} {store mid : GraphStore}
  {coll iter : DavReposResource} {list done rest : List DavReposResource}
  {bind other : Bind} {fuel : Nat}

/-! ## The items -/

theorem nodup_memberPairs :
    ((memberPairs store coll).map fun pair => pair.1.id).Nodup := by
  apply List.Nodup.map_on
  · intro pair member next nextMember same
    rcases mem_memberPairs.mp member with ⟨⟨bound, row⟩, -, resource⟩
    rcases mem_memberPairs.mp nextMember with
      ⟨⟨nextBound, nextRow⟩, -, nextResource⟩
    have binds : pair.1 = next.1 :=
      List.inj_on_of_nodup_map store.binds.pkey bound nextBound same
    have rows : pair.2 = next.2 := by
      apply List.inj_on_of_nodup_map store.resourcesPkey row nextRow
      rw [resource, nextResource, binds]
    exact Prod.ext binds rows
  · exact (Sql.nodup_crossJoin (store.binds.pkey.of_map.filter _)
      store.resourcesPkey.of_map).filter _

theorem nodup_dbmsGetCollectionResource :
    ((dbmsGetCollectionResource orders store coll).map
      DavReposResource.bindId).Nodup := by
  rw [dbmsGetCollectionResource_eq, List.map_map]
  exact ((orders.children.perm 0 _).map _).nodup_iff.mpr nodup_memberPairs

theorem nodup_sabridgeGetCollectionChildren :
    ((sabridgeGetCollectionChildren orders store coll).map
      DavReposResource.bindId).Nodup := by
  have same : (sabridgeGetCollectionChildren orders store coll).map
      DavReposResource.bindId =
      (dbmsGetCollectionResource orders store coll).map
        DavReposResource.bindId := by
    have first : (LastSeen.mark DavReposResource.serialno some
        [(coll.serialno, none)] 0
        (dbmsGetCollectionResource orders store coll)).1.map Prod.fst =
          dbmsGetCollectionResource orders store coll :=
      LastSeen.map_fst_mark
    rw [sabridgeGetCollectionChildren, List.map_map, ← first, List.map_map,
      first]
    rfl
  rw [same]
  exact nodup_dbmsGetCollectionResource

/-- An item with a pointer is the collection or has a second bind. -/
theorem repeated_of_marked
    (member : iter ∈ sabridgeGetCollectionChildren orders store coll)
    (marked : iter.hasBind = true) :
    iter.serialno = coll.serialno ∨
      ∃ bind other, bind ∈ store.binds.rows ∧ other ∈ store.binds.rows ∧
        bind ≠ other ∧ bind.collectionId = coll.serialno ∧
        other.collectionId = coll.serialno ∧
        bind.resourceId = iter.serialno ∧ other.resourceId = iter.serialno := by
  rcases List.mem_map.mp member with ⟨⟨item, pointer⟩, listed, rfl⟩
  rcases Option.isSome_iff_exists.mp marked with ⟨there, here⟩
  have same : pointer = some there := here
  rw [same] at listed
  rcases LastSeen.repeated_of_mem_mark listed with
    start | ⟨earlier, first, between, later, split, keyed⟩
  · left
    by_contra distinct
    rw [List.lookup_cons, beq_eq_false_iff_ne.mpr distinct] at start
    cases start
  · right
    have nodup : ((dbmsGetCollectionResource orders store coll).map
        DavReposResource.bindId).Nodup :=
      nodup_dbmsGetCollectionResource
    rw [split, List.map_append] at nodup
    have bindOf : ∀ listed ∈ dbmsGetCollectionResource orders store coll,
        ∃ bind, MemberBind store coll listed bind := by
      intro listed among
      rw [dbmsGetCollectionResource_eq] at among
      rcases List.mem_map.mp among with ⟨pair, arranged, rfl⟩
      exact ⟨pair.1, memberBind_of_mem_pairs
        (Sql.RowOrder.mem_arrange.mp arranged)⟩
    rcases bindOf first (by rw [split]; simp) with ⟨bind, firstBind⟩
    rcases bindOf item (by rw [split]; simp) with ⟨other, itemBind⟩
    refine ⟨bind, other, firstBind.bound, itemBind.bound, ?_,
      firstBind.collection, itemBind.collection,
      firstBind.resource.trans keyed, itemBind.resource⟩
    rintro rfl
    have bindIds : first.bindId = item.bindId :=
      firstBind.id.trans itemBind.id.symm
    apply (List.nodup_append.mp nodup).2.2 first.bindId
    · exact List.mem_map_of_mem
        (List.mem_append_right _ List.mem_cons_self)
    · exact List.mem_map_of_mem List.mem_cons_self
    · exact bindIds

/-- The binds of the list are those of the collection. -/
theorem taken_children
    (unmarked : coll.hasBind = false)
    (isCollection : coll.resourcetype.isCollection = true)
    (bound : bind ∈ store.binds.rows) :
    ¬ Taken (sabridgeGetCollectionChildren orders store coll) bind ↔
      Elsewhere coll bind := by
  apply not_congr
  constructor
  · rintro ⟨iter, member, id⟩
    rcases exists_memberBind member with ⟨other, memberBind⟩
    have same : bind = other :=
      List.inj_on_of_nodup_map store.binds.pkey bound memberBind.bound
        (id.symm.trans memberBind.id)
    rw [same]
    exact memberBind.collection
  · intro collection
    rcases exists_mem_children orders unmarked isCollection bound collection
      with ⟨iter, member, -, id⟩
    exact ⟨iter, member, id⟩

/-! ## The loop -/

/-- What the binds that are still there are when one more item is done. -/
theorem taken_append
    (member : MemberBind store coll iter bind)
    (bound : other ∈ store.binds.rows) :
    (¬ Taken done other ∧ other ≠ bind) ↔ ¬ Taken (done ++ [iter]) other := by
  have same : iter.bindId = other.id ↔ other = bind := by
    rw [member.id]
    constructor
    · intro id
      exact List.inj_on_of_nodup_map store.binds.pkey bound member.bound
        id.symm
    · rintro rfl
      rfl
  unfold Taken
  simp only [List.mem_append, List.mem_singleton, or_and_right, exists_or,
    exists_eq_left, same, not_or]

/-- One item with a pointer. -/
theorem clear_marked
    (member : MemberBind store coll iter bind)
    (segment : Segments.IsSegment '/' bind.name)
    (collects : Collects store (fun other => ¬ Taken done other) mid)
    (left : Left store (fun other => ¬ Taken (done ++ [iter]) other)
      iter.serialno) :
    Collects store (fun other => ¬ Taken (done ++ [iter]) other)
      (deleteBindOf mid iter) := by
  have among : ∀ other ∈ mid.binds.rows, other ∈ store.binds.rows :=
    fun other present => ((collects.binds other).mp present).1
  have step : Collects mid (fun other => other ≠ bind)
      (deleteBindOf mid iter) := by
    apply collects_of_covered collects.reachable
    · exact resources_deleteBindOf mid iter
    · intro other
      exact mem_deleteBindOf member segment among
    · intro other _ removed
      rw [not_not.mp removed, member.resource, collects.left_iff,
        left_congr fun other bound => taken_append member bound]
      exact left
  exact (collects.trans step).congr fun other bound =>
    taken_append member bound

/-- One item without a pointer. -/
theorem clear_unmarked
    (orders : RowOrders)
    (member : MemberBind store coll iter bind)
    (segment : Segments.IsSegment '/' bind.name)
    (collects : Collects store (fun other => ¬ Taken done other) mid)
    (present : Left store (fun other => ¬ Taken done other) iter.serialno)
    (collectable : Collectable store
      (fun other => ¬ Taken (done ++ [iter]) other))
    (unmarked : iter.hasBind = false)
    (enough : store.binds.rows.length + 1 < fuel) :
    ∃ after, sabridgeUnbindResource fuel orders mid iter = some after ∧
      Collects store (fun other => ¬ Taken (done ++ [iter]) other) after := by
  have among : ∀ other ∈ mid.binds.rows, other ∈ store.binds.rows :=
    fun other present => ((collects.binds other).mp present).1
  have leftMid : ∀ id, Left mid (fun other => other ≠ bind) id ↔
      Left store (fun other => ¬ Taken (done ++ [iter]) other) id := by
    intro id
    rw [collects.left_iff, left_congr fun other bound =>
      taken_append member bound]
  have collectableMid : Collectable mid (fun other => other ≠ bind) := by
    constructor
    · intro row listed history
      rw [leftMid]
      exact collectable.histories row
        ((collects.resources row).mp listed).1 history
    · intro other bound row listed same
      rw [leftMid]
      exact collectable.members other (among other bound) row
        ((collects.resources row).mp listed).1 same
  have shorter : mid.binds.rows.length + 1 < fuel :=
    Nat.lt_of_le_of_lt (Nat.succ_le_succ collects.length_le) enough
  have row : (iter.serialno, iter.resourcetype) ∈ mid.resources :=
    (collects.resources _).mpr ⟨member.row, present⟩
  have target : ∀ other ∈ mid.binds.rows, ¬ other ≠ bind →
      other.resourceId = iter.serialno := by
    intro other _ removed
    rw [not_not.mp removed, member.resource]
  rcases sabridgeUnbindResource_collects orders
    (fun other => mem_deleteBindOf member segment among) target row
    collectableMid collects.reachable unmarked shorter with
    ⟨after, returns, step⟩
  exact ⟨after, returns, (collects.trans step).congr fun other bound =>
    taken_append member bound⟩

/-- A resource of a bind graph in which every resource is reachable. -/
structure InGraph (store : GraphStore) (coll : DavReposResource) : Prop where
  reachable : ∀ id ∈ store.ids,
    (bindGraph store.binds.rows).Reaches rootCollectionId id
  segments : ∀ bind ∈ store.binds.rows, Segments.IsSegment '/' bind.name
  row : (coll.serialno, coll.resourcetype) ∈ store.resources
  unmarked : coll.hasBind = false

/-- What is assumed of the collection that is emptied. -/
structure Clearable (store : GraphStore) (coll : DavReposResource) : Prop
    extends InGraph store coll where
  isCollection : coll.resourcetype.isCollection = true
  /-- Of what becomes unreachable only listed collections have members. -/
  collectable : Collectable store (Elsewhere coll)
  /-- A member with several binds does not become unreachable. -/
  repeated : ∀ bind ∈ store.binds.rows, ∀ other ∈ store.binds.rows,
    bind ≠ other → bind.collectionId = coll.serialno →
      other.collectionId = coll.serialno →
        bind.resourceId = other.resourceId →
          Left store (Elsewhere coll) bind.resourceId

/-- The collection itself stays. -/
theorem Clearable.left_coll
    (clearable : Clearable store coll) :
    Left store (Elsewhere coll) coll.serialno :=
  (clearable.reachable coll.serialno
    (List.mem_map_of_mem clearable.row)).without_leaving

/-- Fewer items have been done than in the end. -/
theorem Clearable.left_mono
    {id : Id}
    (left : Left store (Elsewhere coll) id)
    (items : ∀ iter ∈ done, ∃ bind, MemberBind store coll iter bind) :
    Left store (fun other => ¬ Taken done other) id := by
  apply left.mono_restrict
  rintro other bound elsewhere ⟨iter, member, id⟩
  rcases items iter member with ⟨bind, memberBind⟩
  have same : other = bind :=
    List.inj_on_of_nodup_map store.binds.pkey bound memberBind.bound
      (id.symm.trans memberBind.id)
  rw [same] at elsewhere
  exact elsewhere memberBind.collection

/-- The loop, when some items have been done. -/
theorem clearChildren_collects
    (orders : RowOrders)
    (clearable : Clearable store coll)
    (items : ∀ iter ∈ done ++ rest, ∃ bind, MemberBind store coll iter bind)
    (nodup : ((done ++ rest).map DavReposResource.bindId).Nodup)
    (marked : ∀ iter ∈ rest, iter.hasBind = true →
      Left store (Elsewhere coll) iter.serialno)
    (collects : Collects store (fun other => ¬ Taken done other) mid)
    (enough : store.binds.rows.length + 1 < fuel) :
    ∃ after, clearChildren fuel orders mid rest = some after ∧
      Collects store (fun other => ¬ Taken (done ++ rest) other) after := by
  induction rest generalizing done mid with
  | nil =>
      rw [List.append_nil]
      exact ⟨mid, rfl, collects⟩
  | cons iter rest induction =>
      have regroup : done ++ iter :: rest = (done ++ [iter]) ++ rest := by
        rw [List.append_assoc, List.singleton_append]
      have upTo : ∀ id, Left store (Elsewhere coll) id →
          Left store (fun other => ¬ Taken (done ++ [iter]) other) id := by
        intro id left
        apply Clearable.left_mono left
        intro other member
        exact items other (regroup ▸ List.mem_append_left rest member)
      rcases items iter (by simp) with ⟨bind, member⟩
      have segment := clearable.segments bind member.bound
      have later : ∀ other ∈ rest, other.hasBind = true →
          Left store (Elsewhere coll) other.serialno :=
        fun other among => marked other (List.mem_cons_of_mem _ among)
      rw [clearChildren]
      cases pointed : iter.hasBind with
      | true =>
          have left := upTo _ (marked iter List.mem_cons_self pointed)
          have step := clear_marked member segment collects left
          rw [if_pos rfl]
          rw [regroup] at items nodup ⊢
          exact induction items nodup later step
      | false =>
          have collectable : Collectable store
              (fun other => ¬ Taken (done ++ [iter]) other) := by
            constructor
            · intro row listed history
              exact upTo _ (clearable.collectable.histories row listed history)
            · intro other bound row listed same
              rcases clearable.collectable.members other bound row listed
                same with left | isCollection
              · exact Or.inl (upTo _ left)
              · exact Or.inr isCollection
          have fresh : ¬ Taken done bind := by
            rintro ⟨earlier, among, id⟩
            rw [List.map_append] at nodup
            apply (List.nodup_append.mp nodup).2.2 earlier.bindId
            · exact List.mem_map_of_mem among
            · exact List.mem_map_of_mem List.mem_cons_self
            · exact id.trans member.id.symm
          have present : Left store (fun other => ¬ Taken done other)
              iter.serialno := by
            have here : Left store (fun other => ¬ Taken done other)
                bind.collectionId := by
              rw [member.collection]
              apply Clearable.left_mono clearable.left_coll
              intro other among
              exact items other (List.mem_append_left _ among)
            rw [← member.resource]
            exact here.tail member.bound fresh
          rcases clear_unmarked orders member segment collects present
            collectable pointed enough with ⟨after, returns, step⟩
          rw [if_neg Bool.false_ne_true, returns]
          rw [regroup] at items nodup ⊢
          exact induction items nodup later step

/--
A collection is emptied: its binds go, what is still reached without them
stays with all other binds, and everything else is deleted.
-/
theorem sabridgeCollClearChildren_collects
    (clearable : Clearable store coll)
    (enough : store.binds.rows.length + 1 < fuel) :
    ∃ after, sabridgeCollClearChildren fuel orders store coll = some after ∧
      Collects store (Elsewhere coll) after := by
  have marked : ∀ iter ∈ sabridgeGetCollectionChildren orders store coll,
      iter.hasBind = true → Left store (Elsewhere coll) iter.serialno := by
    intro iter member pointed
    rcases repeated_of_marked member pointed with
      same | ⟨bind, other, bound, otherBound, distinct, collection,
        otherCollection, resource, otherResource⟩
    · rw [same]
      exact clearable.left_coll
    · rw [← resource]
      exact clearable.repeated bind bound other otherBound distinct collection
        otherCollection (resource.trans otherResource.symm)
  have start : Collects store (fun other => ¬ Taken [] other) store := by
    apply Collects.refl clearable.reachable
    rintro bind _ ⟨iter, member, -⟩
    cases member
  rcases clearChildren_collects orders clearable
    (fun iter member => exists_memberBind member)
    nodup_sabridgeGetCollectionChildren marked start enough with
    ⟨after, returns, collects⟩
  exact ⟨after, returns, collects.congr fun bind bound =>
    taken_children clearable.unmarked clearable.isCollection bound⟩

end Clear

/-! ## Collections that are not emptied -/

/-- A bind of the examples. -/
def exampleBind (id collectionId resourceId : Id) (name : String) : Bind :=
  ⟨id, name.toList, collectionId, resourceId, none⟩

/-- The queries in the order of the tables. -/
def storedOrders : RowOrders :=
  ⟨Sql.RowOrder.stored _, Sql.RowOrder.stored _⟩

/-- The item of a resource whose URI is known. -/
def exampleItem (serialno : Id) (resourcetype : ResourceType) (uri : String) :
    DavReposResource where
  serialno := serialno
  resourcetype := resourcetype
  uri := some uri.toList
  parentId := 0
  bindId := 0
  hasBind := false

/-- A path that is found shows that a resource is reachable. -/
theorem inGraph_of_paths
    {store : GraphStore} {coll : DavReposResource}
    (paths : ∀ id ∈ store.ids, (pathFromRoot storedOrders store id).isSome)
    (segments : ∀ bind ∈ store.binds.rows, bind.name ≠ [] ∧ '/' ∉ bind.name)
    (row : (coll.serialno, coll.resourcetype) ∈ store.resources)
    (unmarked : coll.hasBind = false) :
    InGraph store coll where
  reachable := by
    intro id known
    by_contra unreached
    have path := paths id known
    rw [pathFromRoot_eq_none.mpr unreached] at path
    cases path
  segments := segments
  row := row
  unmarked := unmarked

/-- A member of the root stays when another collection is emptied. -/
theorem left_of_root
    {store : GraphStore} {coll : DavReposResource} {bind : Bind}
    (bound : bind ∈ store.binds.rows)
    (inRoot : bind.collectionId = rootCollectionId)
    (other : coll.serialno ≠ rootCollectionId) :
    Left store (Elsewhere coll) bind.resourceId := by
  have root : Left store (Elsewhere coll) bind.collectionId := by
    rw [inRoot]
    exact Multigraph.Reaches.refl _ _
  apply root.tail bound
  rw [Elsewhere, inRoot]
  exact other.symm

/--
The collection 3 has the collection 4, which leads back to it, and twice a
resource that the root has, too.
-/
def sharedMembers : GraphStore where
  resources := [(2, .collection), (3, .collection), (4, .collection),
    (5, .resource), (6, .resource)]
  binds :=
    { rows := [exampleBind 1 2 3 "a", exampleBind 2 3 4 "b",
        exampleBind 3 4 3 "up", exampleBind 4 4 5 "x",
        exampleBind 5 3 6 "s", exampleBind 6 3 6 "t",
        exampleBind 7 2 6 "s"]
      pkey := by decide
      collectionIdKey := by decide
      positive := by decide }
  vhrs := []
  versions := []
  vcrs := []
  resourcesPkey := by decide
  fkBindCollection := by decide
  fkBindResource := by decide

theorem sabridgeCollClearChildren_shared :
    ∃ after, sabridgeCollClearChildren 9 storedOrders sharedMembers
        (exampleItem 3 .collection "/a") = some after ∧
      Collects sharedMembers (Elsewhere (exampleItem 3 .collection "/a"))
        after := by
  have bound : exampleBind 7 2 6 "s" ∈ sharedMembers.binds.rows := by
    decide
  have left : Left sharedMembers
      (Elsewhere (exampleItem 3 .collection "/a")) 6 :=
    left_of_root bound rfl (by decide)
  apply sabridgeCollClearChildren_collects
  · refine { inGraph_of_paths (by decide) (by decide) (by decide) rfl with
      isCollection := rfl, collectable := ?_, repeated := ?_ }
    · constructor
      · intro row listed history
        have none : ∀ row ∈ sharedMembers.resources,
            row.2 ≠ .versionHistory := by decide
        exact (none row listed history).elim
      · intro bind bound row listed same
        have members : ∀ bind ∈ sharedMembers.binds.rows,
            ∀ row ∈ sharedMembers.resources, row.1 = bind.collectionId →
              row.2.isCollection = true := by decide
        exact Or.inr (members bind bound row listed same)
    · intro bind bound other otherBound distinct collection otherCollection
        same
      have shared : ∀ bind ∈ sharedMembers.binds.rows,
          ∀ other ∈ sharedMembers.binds.rows, bind ≠ other →
            bind.collectionId = 3 → other.collectionId = 3 →
              bind.resourceId = other.resourceId → bind.resourceId = 6 := by
        decide
      rw [shared bind bound other otherBound distinct collection
        otherCollection same]
      exact left
  · decide

/-- A version in the root, whose history is in the collection 3. -/
def historyMember : GraphStore where
  resources := [(2, .collection), (3, .collection), (4, .versionHistory),
    (5, .version)]
  binds :=
    { rows := [exampleBind 1 2 3 "a", exampleBind 2 3 4 "h",
        exampleBind 3 2 5 "v"]
      pkey := by decide
      collectionIdKey := by decide
      positive := by decide }
  vhrs := [⟨4, 5⟩]
  versions := [⟨5, 1, 4⟩]
  vcrs := []
  resourcesPkey := by decide
  fkBindCollection := by decide
  fkBindResource := by decide

/-- Two binds of one resource in the collection 3. -/
def twoBinds : List Bind :=
  [exampleBind 1 2 3 "a", exampleBind 2 3 4 "x", exampleBind 3 3 4 "y"]

/-- A resource with two binds in the collection 3 and no other. -/
def boundTwice (resourcetype : ResourceType) : GraphStore where
  resources := [(2, .collection), (3, resourcetype), (4, .resource)]
  binds :=
    { rows := twoBinds
      pkey := by decide
      collectionIdKey := by decide
      positive := by decide }
  vhrs := []
  versions := []
  vcrs := []
  resourcesPkey := by
    show [2, 3, (4 : Id)].Nodup
    decide
  fkBindCollection := by
    show ∀ bind ∈ twoBinds, bind.collectionId ∈ [2, 3, (4 : Id)]
    decide
  fkBindResource := by
    show ∀ bind ∈ twoBinds, bind.resourceId ∈ [2, 3, (4 : Id)]
    decide

/--
A reachable version is deleted with its history, a resource with two binds in
the collection stays without a bind, and the binds of a collection version
are not deleted.
-/
theorem not_emptied :
    (¬ ∀ (fuel : Nat) (orders : RowOrders) (store after : GraphStore)
        (coll : DavReposResource),
      InGraph store coll → coll.resourcetype = .collection →
      sabridgeCollClearChildren fuel orders store coll = some after →
        ∀ row ∈ store.resources, Left store (Elsewhere coll) row.1 →
          row ∈ after.resources) ∧
    (¬ ∀ (fuel : Nat) (orders : RowOrders) (store after : GraphStore)
        (coll : DavReposResource),
      InGraph store coll → coll.resourcetype = .collection →
      sabridgeCollClearChildren fuel orders store coll = some after →
        ∀ row ∈ store.resources, ¬ Left store (Elsewhere coll) row.1 →
          row ∉ after.resources) ∧
    ¬ ∀ (fuel : Nat) (orders : RowOrders) (store after : GraphStore)
        (coll : DavReposResource),
      InGraph store coll → coll.resourcetype = .collectionVersion →
      sabridgeCollClearChildren fuel orders store coll = some after →
        ∀ bind ∈ after.binds.rows, Elsewhere coll bind := by
  refine ⟨?_, ?_, ?_⟩
  · intro always
    let coll := exampleItem 3 .collection "/a"
    have inGraph : InGraph historyMember coll :=
      inGraph_of_paths (by decide) (by decide) (by decide) rfl
    have bound : exampleBind 3 2 5 "v" ∈ historyMember.binds.rows := by
      decide
    have left : Left historyMember (Elsewhere coll) 5 :=
      left_of_root bound rfl (by decide)
    have gone : ((sabridgeCollClearChildren 9 storedOrders historyMember
        coll).map GraphStore.resources) =
          some [(2, .collection), (3, .collection)] := by
      decide
    rcases Option.map_eq_some_iff.mp gone with ⟨after, returns, resources⟩
    have kept := always 9 storedOrders historyMember after coll inGraph rfl
      returns (5, .version) (by decide) left
    rw [resources] at kept
    revert kept
    decide
  · intro always
    let coll := exampleItem 3 .collection "/a"
    have inGraph : InGraph (boundTwice .collection) coll :=
      inGraph_of_paths (by decide) (by decide) (by decide) rfl
    have unreached : ¬ Left (boundTwice .collection) (Elsewhere coll) 4 := by
      intro left
      have others : ∀ bind ∈ (boundTwice .collection).binds.rows,
          bind.collectionId ≠ 3 → bind.resourceId ≠ 4 := by
        decide
      exact left.mem_of_closed (S := fun id => id ≠ 4) (by decide)
        (fun bind present _ => others bind present.1 present.2) rfl
    have stays : ((sabridgeCollClearChildren 9 storedOrders
        (boundTwice .collection) coll).map GraphStore.resources) =
          some [(2, .collection), (3, .collection), (4, .resource)] := by
      decide
    rcases Option.map_eq_some_iff.mp stays with ⟨after, returns, resources⟩
    have deleted := always 9 storedOrders (boundTwice .collection) after coll
      inGraph rfl returns (4, .resource) (by decide) unreached
    rw [resources] at deleted
    exact deleted (by decide)
  · intro always
    let coll := exampleItem 3 .collectionVersion "/a"
    have inGraph : InGraph (boundTwice .collectionVersion) coll :=
      inGraph_of_paths (by decide) (by decide) (by decide) rfl
    exact always 9 storedOrders (boundTwice .collectionVersion) _ coll inGraph
      rfl rfl (exampleBind 2 3 4 "x") (by decide) rfl

end Limestone.ClearChildren
