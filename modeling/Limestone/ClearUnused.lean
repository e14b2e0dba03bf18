import Limestone.UnbindCollects
import Limestone.Library.BreadthFirst

/-!
# Clearing what is not in use: `sabridge_clear_unused`

Before a collection is copied over another one the members of the destination
that are not used again are unbound.  The list grows by the members of the
collections in use; the pointer to its tail is overwritten with NULL when one
has no members, and the next collection is listed through that pointer.
-/

namespace Limestone.ClearUnused

open Library
open DbmsBind
open DbmsCollection
open PathSearch
open BridgeUnbind
open UnbindCollects

/-- How `sabridge_clear_unused` ends. -/
inductive ClearOutcome where
  | returned (store : GraphStore)
  /-- The members of a collection are written to the NULL pointer's `next`. -/
  | nullDereference

/-- What the loop keeps. -/
structure ClearState where
  store : GraphStore
  /-- The list from `iter` on. -/
  list : List DavReposResource
  /-- `link_tail` is NULL. -/
  tailIsNull : Bool
  /-- The keys of `cleared`. -/
  cleared : List Id

/--
The body of the loop; without a result where the loop of
`sabridge_unbind_resource` has not ended.
-/
def clearRound (fuel : Nat) (orders : RowOrders) (inUse : List Id)
    (state : ClearState) : Option ClearOutcome ⊕ ClearState :=
  match state.list with
  | [] => .inl (some (.returned state.store))
  | iter :: next =>
      if iter.serialno ∈ state.cleared then .inr { state with list := next }
      else if iter.serialno ∈ inUse then
        if iter.resourcetype.isCollection then
          if state.tailIsNull then .inl (some .nullDereference)
          else
            let children :=
              sabridgeGetCollectionChildren orders state.store iter
            .inr
              { state with
                list := next ++ children
                tailIsNull := children.isEmpty
                cleared := iter.serialno :: state.cleared }
        else
          .inr
            { state with
              list := next
              cleared := iter.serialno :: state.cleared }
      else
        match sabridgeUnbindResource fuel orders state.store iter with
        | none => .inl none
        | some store =>
            .inr
              { state with
                store := store
                list := next
                cleared := iter.serialno :: state.cleared }

/-- `sabridge_clear_unused`; `none` while the loop is running. -/
def sabridgeClearUnused (fuel : Nat) (orders : RowOrders)
    (store : GraphStore) (res : DavReposResource) (inUse : List Id) :
    Option ClearOutcome :=
  (Loop.run (clearRound fuel orders inUse) fuel
    ⟨store, [res], false, []⟩).join

/-! ## The collections that are listed -/

/-- A collection in use. -/
def Opened (store : GraphStore) (inUse : List Id) (id : Id) : Prop :=
  id ∈ inUse ∧ ∃ row ∈ store.resources,
    row.1 = id ∧ row.2.isCollection = true

/-- The binds of the collections in use. -/
def openedGraph (store : GraphStore) (inUse : List Id) :
    Multigraph Id Bind :=
  (bindGraph store.binds.rows).restrict fun bind =>
    Opened store inUse bind.collectionId

/-- A collection in use that is reached through collections in use. -/
def Walked (store : GraphStore) (inUse : List Id) (dest id : Id) : Prop :=
  (openedGraph store inUse).Reaches dest id ∧ Opened store inUse id

/-- The binds from there to resources that are not in use. -/
def Unused (store : GraphStore) (inUse : List Id) (dest : Id)
    (bind : Bind) : Prop :=
  Walked store inUse dest bind.collectionId ∧ bind.resourceId ∉ inUse

/-! ## What clearing is for -/

/-- A resource in use that is reached through resources in use. -/
def InUseBelow (store : GraphStore) (inUse : List Id) (dest id : Id) : Prop :=
  ((bindGraph store.binds.rows).restrict fun bind =>
    bind.collectionId ∈ inUse).Reaches dest id ∧ id ∈ inUse

/--
No bind of a collection in use below the destination leads to a resource that
is not, and what is in use is still there with the binds in between.
-/
structure Cleared (before : GraphStore) (inUse : List Id) (dest : Id)
    (after : GraphStore) : Prop where
  unusedGone : ∀ bind ∈ after.binds.rows,
    InUseBelow after inUse dest bind.collectionId → bind.resourceId ∈ inUse
  resources : ∀ id ∈ before.ids, id ∈ inUse → id ∈ after.ids
  binds : ∀ bind ∈ before.binds.rows, bind.collectionId ∈ inUse →
    bind.resourceId ∈ inUse → bind ∈ after.binds.rows

/-- An empty collection in use is farther away than every other one. -/
def EmptyLast (store : GraphStore) (inUse : List Id) (dest : Id) : Prop :=
  ∀ id, Walked store inUse dest id →
    (∀ bind ∈ store.binds.rows, bind.collectionId ≠ id) →
      ∀ other, Walked store inUse dest other → other ≠ id →
        ∃ bound, (openedGraph store inUse).Near dest bound other ∧
          ¬ (openedGraph store inUse).Near dest bound id

/-- Before an item with a pointer another one of its resource is met. -/
def MarksLate : List Id → List DavReposResource → Prop
  | _, [] => True
  | cleared, iter :: next =>
      (iter.hasBind = true → iter.serialno ∈ cleared) ∧
        MarksLate (iter.serialno :: cleared) next

theorem MarksLate.mono
    {cleared more : List Id} {list : List DavReposResource}
    (marks : MarksLate cleared list)
    (among : ∀ id ∈ cleared, id ∈ more) :
    MarksLate more list := by
  induction list generalizing cleared more with
  | nil => trivial
  | cons iter next induction =>
      refine ⟨fun marked => among _ (marks.1 marked), ?_⟩
      apply induction marks.2
      intro id member
      rcases List.mem_cons.mp member with rfl | member
      · exact List.mem_cons_self
      · exact List.mem_cons_of_mem _ (among id member)

theorem MarksLate.append
    {cleared : List Id} {list more : List DavReposResource}
    (first : MarksLate cleared list)
    (second : MarksLate cleared more) :
    MarksLate cleared (list ++ more) := by
  induction list generalizing cleared with
  | nil => exact second
  | cons iter next induction =>
      refine ⟨first.1, induction first.2 ?_⟩
      exact second.mono fun id member => List.mem_cons_of_mem _ member

theorem marksLate_mark
    (seen : List (Id × Option Nat)) (index : Nat)
    (items : List DavReposResource) :
    MarksLate (seen.map Prod.fst)
      ((LastSeen.mark DavReposResource.serialno some seen index items).1.map
        fun entry => { entry.1 with hasBind := entry.2.isSome }) := by
  induction items generalizing seen index with
  | nil => trivial
  | cons item items induction =>
      have later := induction ((item.serialno, some index) :: seen) (index + 1)
      refine ⟨fun marked => ?_, later⟩
      rcases Option.isSome_iff_exists.mp marked with ⟨found, lookup⟩
      rcases List.lookup_eq_some_iff.mp lookup with ⟨before, after, split, -⟩
      rw [split]
      simp

theorem marksLate_children
    (orders : RowOrders) (store : GraphStore) (dbR : DavReposResource) :
    MarksLate [dbR.serialno] (sabridgeGetCollectionChildren orders store dbR) :=
  marksLate_mark [(dbR.serialno, none)] 0
    (dbmsGetCollectionResource orders store dbR)

/-! ## One round -/

/-- What is unbound, and the members of collections below it. -/
def Touched (store : GraphStore) (unbound : Bind → Prop) (id : Id) : Prop :=
  ∃ bind ∈ store.binds.rows, unbound bind ∧
    ((bindGraph store.binds.rows).restrict fun bind =>
      ∃ row ∈ store.resources, row.1 = bind.collectionId ∧
        row.2.isCollection = true).Reaches bind.resourceId id

theorem touchesMembers_touched
    (store : GraphStore) (unbound : Bind → Prop) :
    TouchesMembers store (Touched store unbound) := by
  rintro bind bound row listed same isCollection ⟨first, known, unused, reaches⟩
  refine ⟨first, known, unused, ?_⟩
  rw [same] at reaches
  exact Multigraph.Reaches.tail reaches ⟨bound, row, listed, same, isCollection⟩

/-- A way that is not to be removed leads to the resource. -/
def Spared (store : GraphStore) (inUse : List Id) (dest id : Id) : Prop :=
  Left store (fun bind => ¬ Unused store inUse dest bind) id

/-- What is assumed of the destination. -/
structure Clearable (store : GraphStore) (inUse : List Id)
    (dest : DavReposResource) : Prop where
  row : (dest.serialno, dest.resourcetype) ∈ store.resources
  isCollection : dest.resourcetype.isCollection = true
  unmarked : dest.hasBind = false
  used : dest.serialno ∈ inUse
  segments : ∀ bind ∈ store.binds.rows, Segments.IsSegment '/' bind.name
  /--
  If binds go, the destination is reachable without them, or else what is not
  in use is, or has no second bind.
  -/
  left : ∀ first ∈ store.binds.rows, Unused store inUse dest.serialno first →
    Spared store inUse dest.serialno dest.serialno ∨
      ∀ bind ∈ store.binds.rows,
        InUseBelow store inUse dest.serialno bind.collectionId →
          bind.resourceId ∉ inUse →
            Spared store inUse dest.serialno bind.resourceId ∨
              ∀ other ∈ store.binds.rows,
                other.resourceId = bind.resourceId → other = bind
  /-- What is in use below them is reachable otherwise. -/
  shared : ∀ id ∈ store.ids, id ∈ inUse →
    Touched store (Unused store inUse dest.serialno) id →
      Spared store inUse dest.serialno id
  histories : KeepsTouched store
    (fun bind => ¬ Unused store inUse dest.serialno bind)
    (Touched store (Unused store inUse dest.serialno))

/-- What has been done and how far the list is. -/
structure Progress where
  /-- The binds that have been removed. -/
  removed : List Bind
  now : List Id
  later : List Id
  level : Nat

/-- The progress when the next level begins with the current one done. -/
def Progress.turn : Progress → Progress
  | ⟨removed, [], later, level⟩ => ⟨removed, later, [], level + 1⟩
  | progress => progress

/-- An item is the destination or a member of a collection that is listed. -/
def IsItem (before : GraphStore) (inUse : List Id) (dest : Id)
    (cleared : List Id) (iter : DavReposResource) : Prop :=
  (iter.serialno, iter.resourcetype) ∈ before.resources ∧
    (iter.serialno = dest ∨ ∃ coll bind, MemberBind before coll iter bind ∧
      Walked before inUse dest coll.serialno ∧ coll.serialno ∈ cleared)

/-- What the binds are that have been removed. -/
structure Removes (before : GraphStore) (inUse : List Id) (dest : Id)
    (removed : List Bind) (store : GraphStore) (cleared : List Id) : Prop where
  keeping : Keeping before (fun bind => bind ∉ removed)
    (Touched before (· ∈ removed)) store
  gone : ∀ bind ∈ removed, bind ∈ before.binds.rows ∧
    Unused before inUse dest bind ∧ bind.collectionId ∈ cleared ∧
    bind.resourceId ∈ cleared
  once : (removed.map Bind.resourceId).Nodup
  unbound : ∀ id ∈ cleared, id ∉ inUse →
    ∃ bind ∈ removed, bind.resourceId = id

/-- What holds before each round. -/
structure Clearing (before : GraphStore) (inUse : List Id) (dest : Id)
    (progress : Progress) (store : GraphStore)
    (list : List DavReposResource) (cleared : List Id) : Prop
    extends Removes before inUse dest progress.removed store cleared where
  items : ∀ iter ∈ list, IsItem before inUse dest cleared iter
  marks : MarksLate cleared list
  list : list.map DavReposResource.serialno = progress.now ++ progress.later
  frontier : (openedGraph before inUse).Frontier dest (fun id => id ∈ cleared)
    progress.now progress.later progress.level

section Round

variable {orders : RowOrders} {before store after : GraphStore}
  {inUse cleared : List Id} {dest iter : DavReposResource}
  {progress : Progress} {list next : List DavReposResource} {fuel : Nat}
  {tailIsNull : Bool} {id : Id} {bind : Bind}

theorem Walked.inUseBelow
    (walked : Walked before inUse dest.serialno id) :
    InUseBelow before inUse dest.serialno id :=
  ⟨walked.1.mono_restrict fun _ _ opened => opened.1, walked.2.1⟩

/-- What is in use below a destination that is left is left. -/
theorem left_of_inUseBelow
    (left : Spared before inUse dest.serialno dest.serialno)
    (below : InUseBelow before inUse dest.serialno id) :
    Spared before inUse dest.serialno id := by
  have reached : id ∈ inUse → Spared before inUse dest.serialno id := by
    apply below.1.mem_of_closed (S := fun id => id ∈ inUse →
      Spared before inUse dest.serialno id)
    · exact fun _ => left
    · rintro bind ⟨bound, source⟩ reached target
      exact (reached source).tail bound fun unused => unused.2 target
  exact reached below.2

/-- Fewer binds have been removed than in the end. -/
theorem Removes.left_mono
    {removed : List Bind}
    (removes : Removes before inUse dest.serialno removed store cleared)
    (left : Spared before inUse dest.serialno id) :
    Left before (fun bind => bind ∉ removed) id := by
  apply left.mono_restrict
  intro bind _ unused member
  exact unused (removes.gone bind member).2.1

/-- What has been met is among what will be met. -/
theorem Removes.touched
    {removed : List Bind}
    (removes : Removes before inUse dest.serialno removed store cleared)
    (touched : Touched before (· ∈ removed) id) :
    Touched before (Unused before inUse dest.serialno) id := by
  rcases touched with ⟨bind, bound, member, reaches⟩
  exact ⟨bind, bound, (removes.gone bind member).2.1, reaches⟩

/-- What is not in use is there until it is its turn. -/
theorem Removes.left_of_touched
    {removed : List Bind}
    (removes : Removes before inUse dest.serialno removed store cleared)
    (clearable : Clearable before inUse dest)
    (bound : bind ∈ before.binds.rows)
    (below : InUseBelow before inUse dest.serialno bind.collectionId)
    (unused : bind.resourceId ∉ inUse)
    (still : bind ∉ removed)
    (touched : Touched before (· ∈ removed) bind.resourceId) :
    Left before (fun bind => bind ∉ removed) bind.resourceId := by
  rcases touched with ⟨first, known, gone, reaches⟩
  rcases clearable.left first known (removes.gone first gone).2.1 with
    left | alone
  · exact (removes.left_mono (left_of_inUseBelow left below)).tail bound still
  · rcases alone bind bound below unused with left | only
    · exact removes.left_mono left
    · rcases Multigraph.reaches_iff_last.mp reaches with
        same | ⟨last, ⟨present, -⟩, above, ends⟩
      · rw [only first known same.symm] at gone
        exact (still gone).elim
      · -- the collection in use is below what has been unbound
        rcases only last present ends with rfl
        have met := removes.touched ⟨first, known, gone, above⟩
        exact (removes.left_mono (clearable.shared _
          (before.fkBindCollection last present) below.2 met)).tail bound still

/-- The resources in use are there, and the binds between and below them. -/
theorem Removes.keepsUsed
    {removed : List Bind}
    (removes : Removes before inUse dest.serialno removed store cleared)
    (clearable : Clearable before inUse dest) :
    (∀ id ∈ before.ids, id ∈ inUse → id ∈ store.ids) ∧
      (∀ bind ∈ before.binds.rows, bind.collectionId ∈ inUse →
        bind.resourceId ∈ inUse → bind ∈ store.binds.rows) ∧
      ∀ bind ∈ before.binds.rows,
        InUseBelow before inUse dest.serialno bind.collectionId →
          bind ∉ removed → bind ∈ store.binds.rows := by
  have resources : ∀ id ∈ before.ids, id ∈ inUse → id ∈ store.ids := by
    intro id known used
    apply removes.keeping.present _ known
    by_cases touched : Touched before (· ∈ removed) id
    · exact Or.inl (removes.left_mono
        (clearable.shared id known used (removes.touched touched)))
    · exact Or.inr touched
  refine ⟨resources, ?_, ?_⟩
  · intro bind bound source target
    refine (removes.keeping.binds bind).mpr ⟨bound, ?_,
      resources _ (before.fkBindCollection bind bound) source,
      resources _ (before.fkBindResource bind bound) target⟩
    intro member
    exact (removes.gone bind member).2.1.2 target
  · intro bind bound below still
    have known := before.fkBindResource bind bound
    refine (removes.keeping.binds bind).mpr ⟨bound, still,
      resources _ (before.fkBindCollection bind bound) below.2, ?_⟩
    by_cases used : bind.resourceId ∈ inUse
    · exact resources _ known used
    · apply removes.keeping.present _ known
      by_cases touched : Touched before (· ∈ removed) bind.resourceId
      · exact Or.inl
          (removes.left_of_touched clearable bound below used still touched)
      · exact Or.inr touched

/-- The next level begins when the current one is done. -/
theorem Clearing.turn
    (clearing : Clearing before inUse dest.serialno progress store list
      cleared) :
    Clearing before inUse dest.serialno progress.turn store list cleared := by
  rcases progress with ⟨removed, now, later, level⟩
  cases now with
  | cons head now => exact clearing
  | nil =>
      exact
        { clearing with
          list := by
            rw [clearing.list]
            exact (List.append_nil later).symm
          frontier := clearing.frontier.shift }

/-- The first item of the list is on the current level. -/
theorem Clearing.turn_eq
    (clearing : Clearing before inUse dest.serialno progress store
      (iter :: next) cleared) :
    ∃ now, progress.turn = ⟨progress.removed, iter.serialno :: now,
      progress.turn.later, progress.turn.level⟩ := by
  rcases progress with ⟨removed, now, later, level⟩
  have split : iter.serialno :: next.map DavReposResource.serialno =
      now ++ later :=
    clearing.list
  cases now with
  | cons head now =>
      rcases List.cons.inj split with ⟨same, -⟩
      exact ⟨now, by rw [same]; rfl⟩
  | nil =>
      rw [List.nil_append] at split
      exact ⟨next.map DavReposResource.serialno, by rw [split]; rfl⟩

/-- A resource that has been met is passed over. -/
theorem Clearing.skip
    {now later removed level}
    (clearing : Clearing before inUse dest.serialno
      ⟨removed, iter.serialno :: now, later, level⟩ store (iter :: next)
        cleared)
    (old : iter.serialno ∈ cleared) :
    Clearing before inUse dest.serialno ⟨removed, now, later, level⟩ store
      next cleared where
  toRemoves := clearing.toRemoves
  items := fun other member =>
    clearing.items other (List.mem_cons_of_mem _ member)
  marks := clearing.marks.2.mono (by
    intro id member
    rcases List.mem_cons.mp member with rfl | member
    · exact old
    · exact member)
  list := (List.cons.inj clearing.list).2
  frontier := clearing.frontier.skip old

theorem IsItem.opened_iff
    (item : IsItem before inUse dest.serialno cleared iter) :
    Opened before inUse iter.serialno ↔
      iter.serialno ∈ inUse ∧ iter.resourcetype.isCollection = true := by
  refine and_congr_right fun _ => ?_
  constructor
  · rintro ⟨row, listed, same, isCollection⟩
    have equal : row = (iter.serialno, iter.resourcetype) :=
      List.inj_on_of_nodup_map before.resourcesPkey listed item.1 same
    rw [equal] at isCollection
    exact isCollection
  · intro isCollection
    exact ⟨_, item.1, rfl, isCollection⟩

theorem IsItem.mono
    (item : IsItem before inUse dest.serialno cleared iter) :
    IsItem before inUse dest.serialno (id :: cleared) iter := by
  refine ⟨item.1, ?_⟩
  rcases item.2 with same | ⟨coll, bind, member, walked, met⟩
  · exact Or.inl same
  · exact Or.inr ⟨coll, bind, member, walked, List.mem_cons_of_mem _ met⟩

/-- A resource in use does not change the binds. -/
theorem Removes.met
    {removed : List Bind}
    (removes : Removes before inUse dest.serialno removed store cleared)
    (used : id ∈ inUse) :
    Removes before inUse dest.serialno removed store (id :: cleared) where
  keeping := removes.keeping
  gone := by
    intro bind member
    rcases removes.gone bind member with ⟨bound, unused, source, target⟩
    exact ⟨bound, unused, List.mem_cons_of_mem _ source,
      List.mem_cons_of_mem _ target⟩
  once := removes.once
  unbound := by
    intro other met unused
    rcases List.mem_cons.mp met with rfl | met
    · exact absurd used unused
    · exact removes.unbound other met unused

/-- A resource is met, and its members are put at the end of the list. -/
theorem Clearing.visit
    {removed after now later level}
    {children : List DavReposResource}
    (clearing : Clearing before inUse dest.serialno
      ⟨removed, iter.serialno :: now, later, level⟩ store (iter :: next)
        cleared)
    {stored : GraphStore}
    (removes : Removes before inUse dest.serialno after stored
      (iter.serialno :: cleared))
    (targets : ∀ child ∈ children, ∃ bind, Opened before inUse iter.serialno ∧
      MemberBind before iter child bind)
    (all : ∀ bind ∈ before.binds.rows, bind.collectionId = iter.serialno →
      Opened before inUse iter.serialno →
        ∃ child ∈ children, child.serialno = bind.resourceId)
    (marks : MarksLate [iter.serialno] children) :
    Clearing before inUse dest.serialno
      ⟨after, now, later ++ children.map DavReposResource.serialno, level⟩
      stored (next ++ children) (iter.serialno :: cleared) where
  toRemoves := removes
  items := by
    intro other member
    rcases List.mem_append.mp member with old | child
    · exact (clearing.items other (List.mem_cons_of_mem _ old)).mono
    · rcases targets other child with ⟨bind, opened, memberBind⟩
      have near := clearing.frontier.current iter.serialno List.mem_cons_self
      exact ⟨memberBind.row, Or.inr ⟨iter, bind, memberBind,
        ⟨near.reaches, opened⟩, List.mem_cons_self⟩⟩
  marks := by
    apply clearing.marks.2.append
    apply marks.mono
    intro id member
    rw [List.mem_singleton.mp member]
    exact List.mem_cons_self
  list := by
    have rest : next.map DavReposResource.serialno = now ++ later :=
      (List.cons.inj clearing.list).2
    rw [List.map_append, rest, List.append_assoc]
  frontier := by
    apply clearing.frontier.visit
    · intro other
      exact List.mem_cons
    · intro child member
      rcases List.mem_map.mp member with ⟨iter, listed, rfl⟩
      rcases targets iter listed with ⟨bind, opened, memberBind⟩
      have source : Opened before inUse bind.collectionId := by
        rw [memberBind.collection]
        exact opened
      exact ⟨bind, ⟨memberBind.bound, source⟩, memberBind.collection,
        memberBind.resource⟩
    · rintro bind ⟨bound, opened⟩ collection
      have source : bind.collectionId = iter.serialno := collection
      rw [source] at opened
      rcases all bind bound source opened with ⟨child, listed, same⟩
      exact List.mem_map.mpr ⟨child, listed, same⟩

/-- A resource that is no collection in use has no members to be listed. -/
theorem Clearing.visit_leaf
    {removed after now later level}
    (clearing : Clearing before inUse dest.serialno
      ⟨removed, iter.serialno :: now, later, level⟩ store (iter :: next)
        cleared)
    {stored : GraphStore}
    (removes : Removes before inUse dest.serialno after stored
      (iter.serialno :: cleared))
    (closed : ¬ Opened before inUse iter.serialno) :
    Clearing before inUse dest.serialno ⟨after, now, later, level⟩ stored next
      (iter.serialno :: cleared) := by
  have none : ∀ child ∈ ([] : List DavReposResource),
      ∃ bind, Opened before inUse iter.serialno ∧
        MemberBind before iter child bind :=
    nofun
  have visited := clearing.visit removes none
    (fun _ _ _ opened => (closed opened).elim) trivial
  rw [List.map_nil, List.append_nil, List.append_nil] at visited
  exact visited

/-- The members of a collection in use are all there when it is met. -/
theorem Clearing.visit_listing
    {removed now later level}
    (orders : RowOrders)
    (clearable : Clearable before inUse dest)
    (clearing : Clearing before inUse dest.serialno
      ⟨removed, iter.serialno :: now, later, level⟩ store (iter :: next)
        cleared)
    (fresh : iter.serialno ∉ cleared)
    (opened : Opened before inUse iter.serialno) :
    Clearing before inUse dest.serialno
        ⟨removed, now, later ++ (sabridgeGetCollectionChildren orders store
          iter).map DavReposResource.serialno, level⟩
        store (next ++ sabridgeGetCollectionChildren orders store iter)
        (iter.serialno :: cleared) ∧
      ∀ bind ∈ before.binds.rows, bind.collectionId = iter.serialno →
        bind ∈ store.binds.rows := by
  have item := clearing.items iter List.mem_cons_self
  have isCollection : iter.resourcetype.isCollection = true :=
    (item.opened_iff.mp opened).2
  have unmarked : iter.hasBind = false := by
    by_contra marked
    exact fresh (clearing.marks.1 (Bool.not_eq_false _ ▸ marked))
  have present : ∀ bind ∈ before.binds.rows,
      bind.collectionId = iter.serialno → bind ∈ store.binds.rows := by
    intro bind bound collection
    have still : bind ∉ removed := by
      intro member
      rw [← collection] at fresh
      exact fresh (clearing.gone bind member).2.2.1
    have walked : Walked before inUse dest.serialno iter.serialno :=
      ⟨(clearing.frontier.current iter.serialno List.mem_cons_self).reaches,
        opened⟩
    apply (clearing.keepsUsed clearable).2.2 bind bound _ still
    rw [collection]
    exact walked.inUseBelow
  refine ⟨?_, present⟩
  apply clearing.visit (clearing.toRemoves.met opened.1)
  · intro child member
    rcases exists_memberBind member with ⟨bind, memberBind⟩
    exact ⟨bind, opened, ((clearing.keeping.binds bind).mp memberBind.bound).1,
      memberBind.collection, memberBind.resource,
      clearing.keeping.rows _ memberBind.row, memberBind.parent,
      memberBind.id, memberBind.uri⟩
  · intro bind bound collection _
    rcases exists_mem_children orders unmarked isCollection
      (present bind bound collection) collection with ⟨child, member, same, -⟩
    exact ⟨child, member, same⟩
  · exact marksLate_children orders store iter

/-- The bind of an item that is not in use is removed. -/
theorem Clearing.unbinds
    {removed now later level}
    (orders : RowOrders)
    (clearable : Clearable before inUse dest)
    (clearing : Clearing before inUse dest.serialno
      ⟨removed, iter.serialno :: now, later, level⟩ store (iter :: next)
        cleared)
    (fresh : iter.serialno ∉ cleared)
    (unused : iter.serialno ∉ inUse)
    (enough : before.binds.rows.length + 1 < fuel) :
    ∃ after bind, sabridgeUnbindResource fuel orders store iter = some after ∧
      Removes before inUse dest.serialno (bind :: removed) after
        (iter.serialno :: cleared) := by
  have item := clearing.items iter List.mem_cons_self
  have unmarked : iter.hasBind = false := by
    by_contra marked
    exact fresh (clearing.marks.1 (Bool.not_eq_false _ ▸ marked))
  rcases item.2 with same | ⟨coll, bind, member, walked, met⟩
  · rw [same] at unused
    exact absurd clearable.used unused
  · rw [← member.collection] at walked met
    have isUnused : Unused before inUse dest.serialno bind := by
      refine ⟨walked, ?_⟩
      rw [member.resource]
      exact unused
    have among : ∀ other ∈ store.binds.rows, other ∈ before.binds.rows :=
      fun other present => ((clearing.keeping.binds other).mp present).1
    have deletes : ∀ other, other ∈ (deleteBindOf store iter).binds.rows ↔
        other ∈ store.binds.rows ∧ other ≠ bind := fun other =>
      mem_deleteBindOf member (clearable.segments bind member.bound) among
    have more : ∀ id, Touched before (· ∈ removed) id →
        Touched before (· ∈ bind :: removed) id :=
      fun _ ⟨other, bound, listed, reaches⟩ =>
        ⟨other, bound, List.mem_cons_of_mem bind listed, reaches⟩
    have keeping : Keeping before (fun other => other ∉ bind :: removed)
        (Touched before (· ∈ bind :: removed)) (deleteBindOf store iter) := by
      constructor
      · intro row listed
        rw [resources_deleteBindOf] at listed
        exact clearing.keeping.rows row listed
      · intro row listed left
        rw [resources_deleteBindOf]
        apply clearing.keeping.stays row listed
        exact left.imp (fun left => left.mono_restrict
          fun other _ still => mt (List.mem_cons_of_mem bind) still)
          (mt (more row.1))
      · intro other
        rw [deletes, clearing.keeping.binds, ids_deleteBindOf,
          List.mem_cons, not_or]
        constructor
        · rintro ⟨⟨bound, still, source, target⟩, distinct⟩
          exact ⟨bound, ⟨distinct, still⟩, source, target⟩
        · rintro ⟨bound, ⟨distinct, still⟩, source, target⟩
          exact ⟨⟨bound, still, source, target⟩, distinct⟩
    have goneAll : ∀ other ∈ bind :: removed, other ∈ before.binds.rows ∧
        Unused before inUse dest.serialno other ∧
        other.collectionId ∈ iter.serialno :: cleared ∧
        other.resourceId ∈ iter.serialno :: cleared := by
      intro other listed
      rcases List.mem_cons.mp listed with rfl | listed
      · refine ⟨member.bound, isUnused, List.mem_cons_of_mem _ met, ?_⟩
        rw [member.resource]
        exact List.mem_cons_self
      · rcases clearing.gone other listed with ⟨bound, unused, source, target⟩
        exact ⟨bound, unused, List.mem_cons_of_mem _ source,
          List.mem_cons_of_mem _ target⟩
    have histories : KeepsTouched before
        (fun other => other ∉ bind :: removed)
        (Touched before (· ∈ bind :: removed)) := by
      rintro row listed ⟨other, bound, gone, reaches⟩ history
      apply (clearable.histories row listed ⟨other, bound,
        (goneAll other gone).2.1, reaches⟩ history).mono_restrict
      intro other _ spared listed
      exact spared (goneAll other listed).2.1
    have shorter : store.binds.rows.length + 1 < fuel := by
      have le := (List.subperm_of_subset store.binds.pkey.of_map
        among).length_le
      exact Nat.lt_of_le_of_lt (Nat.succ_le_succ le) enough
    have touched : Touched before (· ∈ bind :: removed) iter.serialno := by
      refine ⟨bind, member.bound, List.mem_cons_self, ?_⟩
      rw [member.resource]
      exact Multigraph.Reaches.refl _ _
    rcases sabridgeUnbindResource_keeps orders keeping among item.1 touched
      histories (touchesMembers_touched before _) unmarked
      shorter with ⟨after, returns, keeps⟩
    refine ⟨after, bind, returns, keeps, goneAll, ?_, ?_⟩
    · rw [List.map_cons, List.nodup_cons]
      refine ⟨?_, clearing.once⟩
      intro listed
      rcases List.mem_map.mp listed with ⟨other, listed, same⟩
      have old := (clearing.gone other listed).2.2.2
      rw [same, member.resource] at old
      exact fresh old
    · intro id listed notUsed
      rcases List.mem_cons.mp listed with rfl | listed
      · exact ⟨bind, List.mem_cons_self, member.resource⟩
      · rcases clearing.unbound id listed notUsed with ⟨other, known, same⟩
        exact ⟨other, List.mem_cons_of_mem _ known, same⟩

/-- A collection in use that is met for the first time. -/
def Lists (before : GraphStore) (inUse cleared : List Id)
    (iter : DavReposResource) : Prop :=
  iter.serialno ∉ cleared ∧ Opened before inUse iter.serialno

theorem clearRound_lists
    (item : IsItem before inUse dest.serialno cleared iter)
    (lists : Lists before inUse cleared iter) :
    clearRound fuel orders inUse ⟨store, iter :: next, tailIsNull, cleared⟩ =
      if tailIsNull then .inl (some .nullDereference)
      else .inr ⟨store, next ++ sabridgeGetCollectionChildren orders store iter,
        (sabridgeGetCollectionChildren orders store iter).isEmpty,
        iter.serialno :: cleared⟩ := by
  rcases item.opened_iff.mp lists.2 with ⟨used, isCollection⟩
  rw [clearRound]
  simp only [if_neg lists.1, if_pos used, if_pos isCollection]

/-- A round that does not list a collection. -/
theorem Clearing.round
    {removed now later level}
    (orders : RowOrders)
    (tailIsNull : Bool)
    (clearable : Clearable before inUse dest)
    (clearing : Clearing before inUse dest.serialno
      ⟨removed, iter.serialno :: now, later, level⟩ store (iter :: next)
        cleared)
    (others : ¬ Lists before inUse cleared iter)
    (enough : before.binds.rows.length + 1 < fuel) :
    ∃ after stored met,
      clearRound fuel orders inUse ⟨store, iter :: next, tailIsNull, cleared⟩ =
        .inr ⟨stored, next, tailIsNull, met⟩ ∧
      (∀ id, id ∈ met ↔ id = iter.serialno ∨ id ∈ cleared) ∧
      Clearing before inUse dest.serialno ⟨after, now, later, level⟩ stored
        next met := by
  have item := clearing.items iter List.mem_cons_self
  by_cases old : iter.serialno ∈ cleared
  · refine ⟨removed, store, cleared, ?_, ?_, clearing.skip old⟩
    · rw [clearRound]
      simp only [if_pos old]
    · intro id
      constructor
      · exact Or.inr
      · rintro (rfl | met)
        · exact old
        · exact met
  · have closed : ¬ Opened before inUse iter.serialno :=
      fun opened => others ⟨old, opened⟩
    by_cases used : iter.serialno ∈ inUse
    · have plain : ¬ iter.resourcetype.isCollection = true :=
        fun isCollection => closed (item.opened_iff.mpr ⟨used, isCollection⟩)
      refine ⟨removed, store, iter.serialno :: cleared, ?_,
        fun id => List.mem_cons,
        clearing.visit_leaf (clearing.toRemoves.met used) closed⟩
      rw [clearRound]
      simp only [if_neg old, if_pos used, if_neg plain]
    · rcases clearing.unbinds orders clearable old used enough with
        ⟨after, bind, returns, removes⟩
      refine ⟨bind :: removed, after, iter.serialno :: cleared, ?_,
        fun id => List.mem_cons, clearing.visit_leaf removes closed⟩
      rw [clearRound]
      simp only [if_neg old, if_neg used, returns]

end Round

/-! ## The loop -/

section Run

variable {orders : RowOrders} {before store after : GraphStore}
  {inUse cleared : List Id} {dest iter : DavReposResource}
  {fuel : Nat} {id : Id} {bind : Bind} {state next : ClearState}

/-- A bind of every resource that is not in use has been removed. -/
def Finished (before : GraphStore) (inUse : List Id) (dest : Id)
    (after : GraphStore) : Prop :=
  ∃ removed cleared, Removes before inUse dest removed after cleared ∧
    ∀ bind ∈ before.binds.rows, Unused before inUse dest bind →
      ∃ other ∈ removed, other.resourceId = bind.resourceId

/-- With an empty list everything below the destination has been met. -/
theorem Clearing.finished
    {progress : Progress}
    (clearing : Clearing before inUse dest.serialno progress store []
      cleared) :
    Finished before inUse dest.serialno store := by
  rcases progress with ⟨removed, now, later, level⟩
  rcases List.append_eq_nil_iff.mp clearing.list.symm with ⟨rfl, rfl⟩
  refine ⟨removed, cleared, clearing.toRemoves, ?_⟩
  intro bind bound unused
  have met : bind.resourceId ∈ cleared := by
    apply clearing.frontier.met_of_reaches
    exact Multigraph.Reaches.tail (G := openedGraph before inUse)
      unused.1.1 ⟨bound, unused.1.2⟩
  exact clearing.unbound bind.resourceId met unused.2

/-- What holds before each round when empty collections are the last ones. -/
def Safe (before : GraphStore) (inUse : List Id) (dest : Id)
    (state : ClearState) : Prop :=
  (∃ progress, Clearing before inUse dest progress state.store state.list
    state.cleared) ∧
  (state.tailIsNull = true →
    ∀ id, Walked before inUse dest id → id ∈ state.cleared)

/-- The items of the list and the binds that may still be listed. -/
def todo (before : GraphStore) (state : ClearState) : Nat :=
  state.list.length +
    Loop.unvisited Bind.collectionId before.binds.rows state.cleared

/-- The binds of a collection are no longer counted when it is listed. -/
theorem countP_listed
    (rows : List Bind)
    (fresh : id ∉ cleared) :
    (rows.countP fun bind => bind.collectionId == id) +
        Loop.unvisited Bind.collectionId rows (id :: cleared) =
      Loop.unvisited Bind.collectionId rows cleared := by
  unfold Loop.unvisited
  induction rows with
  | nil => rfl
  | cons row rows induction =>
      rw [List.countP_cons, List.countP_cons, List.countP_cons, ← induction]
      by_cases same : row.collectionId = id
      · simp only [same, List.mem_cons, true_or, not_true_eq_false,
          decide_false, fresh, not_false_eq_true, decide_true,
          beq_self_eq_true, Bool.false_eq_true, if_false, if_true]
        omega
      · simp only [List.mem_cons, same, false_or,
          beq_eq_false_iff_ne.mpr same, Bool.false_eq_true, if_false]
        omega

/-- A listing makes up for the binds that are no longer counted. -/
theorem todo_listing
    {next : List DavReposResource} {tailIsNull other : Bool}
    (among : ∀ bind ∈ store.binds.rows, bind ∈ before.binds.rows)
    (fresh : iter.serialno ∉ cleared) :
    todo before ⟨store,
        next ++ sabridgeGetCollectionChildren orders store iter, other,
        iter.serialno :: cleared⟩ <
      todo before ⟨store, iter :: next, tailIsNull, cleared⟩ := by
  have listed : (sabridgeGetCollectionChildren orders store iter).length ≤
      (store.binds.rows.filter fun bind =>
        bind.collectionId == iter.serialno).length :=
    length_sabridgeGetCollectionChildren_le
  have fewer : (store.binds.rows.filter fun bind =>
      bind.collectionId == iter.serialno).length ≤
      (before.binds.rows.filter fun bind =>
        bind.collectionId == iter.serialno).length := by
    apply (List.subperm_of_subset (store.binds.pkey.of_map.filter _)
      ?_).length_le
    intro bind member
    rcases List.mem_filter.mp member with ⟨bound, collection⟩
    exact List.mem_filter.mpr ⟨among bind bound, collection⟩
  have counted := countP_listed before.binds.rows fresh
  rw [List.countP_eq_length_filter] at counted
  show (next ++ sabridgeGetCollectionChildren orders store iter).length +
      Loop.unvisited Bind.collectionId before.binds.rows
        (iter.serialno :: cleared) <
    (iter :: next).length +
      Loop.unvisited Bind.collectionId before.binds.rows cleared
  rw [List.length_append, List.length_cons]
  omega

/-- Nothing is counted again when more has been met. -/
theorem todo_round
    {next : List DavReposResource} {met : List Id} {stored : GraphStore}
    {tailIsNull : Bool}
    (more : ∀ id ∈ cleared, id ∈ met) :
    todo before ⟨stored, next, tailIsNull, met⟩ <
      todo before ⟨store, iter :: next, tailIsNull, cleared⟩ := by
  exact Nat.add_lt_add_of_lt_of_le (Nat.lt_succ_self next.length)
    (Loop.unvisited_le more)

/-- The next state, or the end of the list. -/
theorem Safe.round
    (orders : RowOrders)
    (clearable : Clearable before inUse dest)
    (emptyLast : EmptyLast before inUse dest.serialno)
    (safe : Safe before inUse dest.serialno state)
    (enough : before.binds.rows.length + 1 < fuel) :
    (clearRound fuel orders inUse state =
        .inl (some (.returned state.store)) ∧
      Finished before inUse dest.serialno state.store) ∨
    ∃ next, clearRound fuel orders inUse state = .inr next ∧
      Safe before inUse dest.serialno next ∧
      todo before next < todo before state := by
  rcases state with ⟨store, list, tailIsNull, cleared⟩
  rcases safe with ⟨⟨progress, clearing⟩, tail⟩
  cases list with
  | nil => exact Or.inl ⟨rfl, clearing.finished⟩
  | cons iter list =>
      right
      rcases clearing.turn_eq with ⟨now, turned⟩
      have clearing := clearing.turn
      rw [turned] at clearing
      by_cases lists : Lists before inUse cleared iter
      · have near := clearing.frontier.current iter.serialno
          List.mem_cons_self
        have walked : Walked before inUse dest.serialno iter.serialno :=
          ⟨near.reaches, lists.2⟩
        have there : tailIsNull = false := by
          by_contra isNull
          exact lists.1 (tail (Bool.not_eq_false _ ▸ isNull) _ walked)
        rcases clearing.visit_listing orders clearable lists.1 lists.2 with
          ⟨listing, present⟩
        have round : clearRound fuel orders inUse
            ⟨store, iter :: list, tailIsNull, cleared⟩ = _ :=
          clearRound_lists (clearing.items iter List.mem_cons_self) lists
        subst there
        rw [if_neg Bool.false_ne_true] at round
        refine ⟨_, round, ⟨⟨_, listing⟩, ?_⟩, todo_listing ?_ lists.1⟩
        · intro empty other otherWalked
          have memberless : ∀ bind ∈ before.binds.rows,
              bind.collectionId ≠ iter.serialno := by
            intro bind bound collection
            have item := clearing.items iter List.mem_cons_self
            have unmarked : iter.hasBind = false := by
              by_contra marked
              exact lists.1
                (clearing.marks.1 (Bool.not_eq_false _ ▸ marked))
            rcases exists_mem_children orders unmarked
              (item.opened_iff.mp lists.2).2 (present bind bound collection)
              collection with ⟨child, member, -⟩
            rw [List.isEmpty_iff.mp empty] at member
            cases member
          by_cases same : other = iter.serialno
          · exact List.mem_cons.mpr (Or.inl same)
          · rcases emptyLast _ walked memberless other otherWalked same with
              ⟨bound, otherNear, notNear⟩
            have less : bound < progress.turn.level := by
              by_contra far
              exact notNear (near.mono (Nat.le_of_not_lt far))
            exact List.mem_cons_of_mem _
              (clearing.frontier.below other bound less otherNear)
        · exact fun bind bound => ((clearing.keeping.binds bind).mp bound).1
      · rcases clearing.round orders tailIsNull clearable lists enough with
          ⟨after, stored, met, round, mets, kept⟩
        refine ⟨_, round, ⟨⟨_, kept⟩, ?_⟩, todo_round ?_⟩
        · intro isNull other walked
          exact (mets other).mpr (Or.inr (tail isNull other walked))
        · exact fun other old => (mets other).mpr (Or.inr old)

theorem clearing_start
    (clearable : Clearable before inUse dest) :
    Clearing before inUse dest.serialno ⟨[], [dest.serialno], [], 0⟩ before
      [dest] [] := by
  refine ⟨⟨⟨fun _ => id, fun _ listed _ => listed, ?_⟩, nofun,
    List.nodup_nil, nofun⟩, ?_, ?_, rfl, Multigraph.Frontier.init nofun⟩
  · intro bind
    constructor
    · intro bound
      exact ⟨bound, List.not_mem_nil, before.fkBindCollection bind bound,
        before.fkBindResource bind bound⟩
    · exact And.left
  · intro iter member
    rw [List.mem_singleton.mp member]
    exact ⟨clearable.row, Or.inl rfl⟩
  · refine ⟨fun marked => ?_, trivial⟩
    rw [clearable.unmarked] at marked
    cases marked

/-- What is below the destination stays below it. -/
theorem Cleared.inUseBelow
    (done : Cleared before inUse dest.serialno after)
    (below : InUseBelow before inUse dest.serialno id) :
    InUseBelow after inUse dest.serialno id := by
  refine ⟨?_, below.2⟩
  have reached : id ∈ inUse →
      ((bindGraph after.binds.rows).restrict fun bind =>
        bind.collectionId ∈ inUse).Reaches dest.serialno id := by
    apply below.1.mem_of_closed (S := fun id => id ∈ inUse →
      ((bindGraph after.binds.rows).restrict fun bind =>
        bind.collectionId ∈ inUse).Reaches dest.serialno id)
    · exact fun _ => Multigraph.Reaches.refl _ _
    · rintro bind ⟨bound, source⟩ reached target
      have kept : bind ∈ after.binds.rows :=
        done.binds bind bound source target
      exact Multigraph.Reaches.tail
        (G := (bindGraph after.binds.rows).restrict fun bind =>
          bind.collectionId ∈ inUse) (reached source) ⟨kept, source⟩
  exact reached below.2

end Run

end Limestone.ClearUnused
