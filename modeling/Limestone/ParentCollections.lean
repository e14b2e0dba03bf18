import Limestone.BridgeMkcol
import Limestone.UriLookup

/-!
# Every missing level inherits from the one above it

The `parent` that is loaded for the first missing collection is used for all
others.  What they are given of it, the first collection has been given
before; the paths of ACL inheritance follow `parent_id`, which is set anew.
That an existing segment is a collection is not checked, and where it has no
path of ACL inheritance, nothing is inherited from it.
-/

namespace Limestone.ParentCollections

open Library
open DbmsBind
open AclPaths
open BridgeMkcol

/-! ## Paths -/

/-- A collection has a member of a name. -/
def IsBound (binds : List Bind) (collId : Id) (name : Text) (id : Id) :
    Prop :=
  ∃ bind ∈ binds, bind.collectionId = collId ∧ bind.name = name ∧
    bind.resourceId = id

/-- The resource that a path below a collection names. -/
def resolve (binds : List Bind) : Id → List Text → Option Id
  | base, [] => some base
  | base, name :: names =>
      let id := dbmsGetBindResourceId binds base name
      if id = 0 then none else resolve binds id names

section Resolve

variable {table other : BindTable} {base id found : Id} {name : Text}
  {names : List Text}

theorem isBound_iff :
    IsBound table.rows base name id ↔
      id ≠ 0 ∧ dbmsGetBindResourceId table.rows base name = id := by
  rw [UriLookup.dbmsGetBindResourceId_eq]
  constructor
  · rintro ⟨bind, member, rfl, rfl, rfl⟩
    refine ⟨Int.ne_of_gt (table.positive bind member).2, ?_⟩
    cases named : UriLookup.bindNamed table.rows bind.collectionId
        bind.name with
    | none =>
        rw [UriLookup.bindNamed, List.head?_eq_none_iff,
          List.filter_eq_nil_iff] at named
        have unnamed := named bind member
        rw [beq_self_eq_true, beq_self_eq_true] at unnamed
        exact (unnamed rfl).elim
    | some first =>
        rcases UriLookup.bindNamed_eq_some named with ⟨listed, coll, same⟩
        have equal : first = bind :=
          List.inj_on_of_nodup_map table.collectionIdKey listed member
            (Prod.ext coll same)
        rw [equal]
        rfl
  · rintro ⟨nonzero, same⟩
    cases named : UriLookup.bindNamed table.rows base name with
    | none =>
        rw [named] at same
        exact (nonzero same.symm).elim
    | some first =>
        rw [named] at same
        rcases UriLookup.bindNamed_eq_some named with ⟨listed, coll, called⟩
        exact ⟨first, listed, coll, called, same⟩

theorem resolve_cons_of_isBound
    (bound : IsBound table.rows base name found) :
    resolve table.rows base (name :: names) =
      resolve table.rows found names := by
  have found := isBound_iff.mp bound
  rw [resolve, found.2, if_neg found.1]

theorem resolve_cons_eq_some :
    resolve table.rows base (name :: names) = some id ↔
      ∃ found, IsBound table.rows base name found ∧
        resolve table.rows found names = some id := by
  rw [resolve]
  by_cases zero : dbmsGetBindResourceId table.rows base name = 0
  · rw [if_pos zero]
    constructor
    · intro none
      cases none
    · rintro ⟨found, bound, -⟩
      have same := isBound_iff.mp bound
      rw [zero] at same
      exact (same.1 same.2.symm).elim
  · rw [if_neg zero]
    constructor
    · intro found
      exact ⟨_, isBound_iff.mpr ⟨zero, rfl⟩, found⟩
    · rintro ⟨found, bound, resolved⟩
      rw [(isBound_iff.mp bound).2]
      exact resolved

/-- Without a member of the first name a path names nothing. -/
theorem resolve_cons_eq_none
    (unbound : ∀ found, ¬ IsBound table.rows base name found) :
    resolve table.rows base (name :: names) = none := by
  apply Option.eq_none_iff_forall_ne_some.mpr
  intro id resolved
  rcases resolve_cons_eq_some.mp resolved with ⟨found, bound, -⟩
  exact unbound found bound

/-- New binds leave what paths name. -/
theorem resolve_of_subset
    (subset : table.rows ⊆ other.rows)
    (resolved : resolve table.rows base names = some id) :
    resolve other.rows base names = some id := by
  induction names generalizing base with
  | nil => exact resolved
  | cons name names induction =>
      rcases resolve_cons_eq_some.mp resolved with
        ⟨found, ⟨bind, member, facts⟩, rest⟩
      exact resolve_cons_eq_some.mpr
        ⟨found, ⟨bind, subset member, facts⟩, induction rest⟩

end Resolve

/-! ## Consistent tables -/

/-- The foreign keys. -/
structure Consistent (store : CollectionStore) : Prop where
  fkBindCollection : ∀ bind ∈ store.binds.rows,
    bind.collectionId ∈ store.resourceIds
  fkBindResource : ∀ bind ∈ store.binds.rows,
    bind.resourceId ∈ store.resourceIds
  fkCollection : ∀ row ∈ store.collections,
    row.resourceId ∈ store.resourceIds
  fkAclInheritance : ∀ row ∈ store.aclInheritance.rows,
    row.resourceId ∈ store.resourceIds

/-- The table `acl_inheritance` has a path for a resource. -/
def HasPath (store : CollectionStore) (id : Id) : Prop :=
  ∃ row ∈ store.aclInheritance.rows, row.resourceId = id

/-- The path of a resource is the one of the collection above and its id. -/
def InheritsAces (store : CollectionStore) (above id : Id) : Prop :=
  ∃ row ∈ store.aclInheritance.rows, row.resourceId = above ∧
    (⟨id, row.path ++ ',' :: idText id⟩ : AclRow) ∈
      store.aclInheritance.rows

/-- Rows have been added, and none for resources that were there. -/
structure Grows (before after : CollectionStore) : Prop where
  resources : before.resources.rows <+: after.resources.rows
  binds : before.binds.rows <+: after.binds.rows
  aclInheritance :
    before.aclInheritance.rows <+: after.aclInheritance.rows
  newPaths : ∀ row ∈ after.aclInheritance.rows,
    row ∈ before.aclInheritance.rows ∨ row.resourceId ∉ before.resourceIds
  collections : before.collections <+: after.collections
  avNewChildren : ∀ id ∈ before.resourceIds,
    dbmsGetCollectionProps after id = dbmsGetCollectionProps before id

section Growing

variable {before middle after : CollectionStore} {id : Id}

theorem Grows.refl (store : CollectionStore) : Grows store store where
  resources := List.prefix_refl _
  binds := List.prefix_refl _
  aclInheritance := List.prefix_refl _
  newPaths := fun _ listed => Or.inl listed
  collections := List.prefix_refl _
  avNewChildren := fun _ _ => rfl

theorem Grows.resourceIds
    (grows : Grows before after) (member : id ∈ before.resourceIds) :
    id ∈ after.resourceIds :=
  (grows.resources.map ResourceRow.id).subset member

theorem Grows.trans
    (first : Grows before middle) (second : Grows middle after) :
    Grows before after where
  resources := first.resources.trans second.resources
  binds := first.binds.trans second.binds
  aclInheritance := first.aclInheritance.trans second.aclInheritance
  newPaths := by
    intro row listed
    rcases second.newPaths row listed with isOld | isNew
    · exact first.newPaths row isOld
    · exact Or.inr fun member => isNew (first.resourceIds member)
  collections := first.collections.trans second.collections
  avNewChildren := fun id member => by
    rw [second.avNewChildren id (first.resourceIds member),
      first.avNewChildren id member]

/-- A resource that was there is given no path. -/
theorem Grows.hasPath
    (grows : Grows before after) (member : id ∈ before.resourceIds)
    (path : HasPath after id) : HasPath before id := by
  rcases path with ⟨row, listed, rfl⟩
  rcases grows.newPaths row listed with isOld | isNew
  · exact ⟨row, isOld, rfl⟩
  · exact (isNew member).elim

/-- The row of a resource stays the first with its id. -/
theorem Grows.limebarState
    (grows : Grows before after) (member : id ∈ before.resourceIds) :
    limebarState after id = limebarState before id := by
  rcases List.mem_map.mp member with ⟨row, listed, rfl⟩
  have found := Sql.find_key before.resources.pkey listed
  have foundAfter :=
    Sql.find_key after.resources.pkey (grows.resources.subset listed)
  rw [BridgeMkcol.limebarState, BridgeMkcol.limebarState, found, foundAfter]

end Growing

/-! ## One level -/

/-- The row that a new resource is given; none without a path above. -/
def inheritedRows (store : CollectionStore) (base id : Id) : List AclRow :=
  match store.aclInheritance.rows.find? fun row => row.resourceId == base with
  | none => []
  | some row => [⟨id, row.path ++ ',' :: idText id⟩]

/-- A collection is made below another. -/
structure AddsLevel (before after : CollectionStore) (base : Id)
    (name : Text) (id : Id) : Prop where
  fresh : id ∉ before.resourceIds
  unbound : ∀ found, ¬ IsBound before.binds.rows base name found
  resources : after.resources.rows = before.resources.rows ++
    [⟨id, .collection, limebarState before base⟩]
  collections : after.collections = before.collections ++
    [⟨id, dbmsGetCollectionProps before base⟩]
  binds : ∃ bind : Bind, after.binds.rows = before.binds.rows ++ [bind] ∧
    bind.collectionId = base ∧ bind.name = name ∧ bind.resourceId = id
  aclInheritance : after.aclInheritance.rows =
    before.aclInheritance.rows ++ inheritedRows before base id

/-- The `parent` that has been loaded says what a collection passes on. -/
def Cached (store : CollectionStore) (base : Id) (r : NewCollRes) : Prop :=
  ∀ parent, r.parent = some parent →
    parent = ⟨limebarState store base, dbmsGetCollectionProps store base⟩

section Level

variable {before after : CollectionStore} {base id : Id} {name : Text}
  {updatedAt : Text} {r made : NewCollRes}

theorem resourceId_of_mem_inheritedRows
    {row : AclRow} (listed : row ∈ inheritedRows before base id) :
    row.resourceId = id := by
  rw [inheritedRows] at listed
  split at listed
  · cases listed
  · rcases List.mem_singleton.mp listed with rfl
    rfl

theorem AddsLevel.resourceIds
    (adds : AddsLevel before after base name id) :
    after.resourceIds = before.resourceIds ++ [id] := by
  rw [CollectionStore.resourceIds, adds.resources, List.map_append]
  rfl

theorem AddsLevel.grows
    (adds : AddsLevel before after base name id) :
    Grows before after where
  resources := by
    rw [adds.resources]
    exact List.prefix_append _ _
  binds := by
    rcases adds.binds with ⟨bind, rows, -⟩
    rw [rows]
    exact List.prefix_append _ _
  aclInheritance := by
    rw [adds.aclInheritance]
    exact List.prefix_append _ _
  newPaths := by
    intro row listed
    rw [adds.aclInheritance] at listed
    rcases List.mem_append.mp listed with isOld | isNew
    · exact Or.inl isOld
    · rw [resourceId_of_mem_inheritedRows isNew]
      exact Or.inr adds.fresh
  collections := by
    rw [adds.collections]
    exact List.prefix_append _ _
  avNewChildren := by
    intro other member
    have absent : ([⟨id, dbmsGetCollectionProps before base⟩] :
        List CollectionRow).find? (fun row => row.resourceId == other) =
          none := by
      apply List.find?_cons_of_neg
      intro same
      rw [← beq_iff_eq.mp same] at member
      exact adds.fresh member
    rw [dbmsGetCollectionProps, dbmsGetCollectionProps, adds.collections,
      List.find?_append, absent, Option.or_none]

theorem AddsLevel.consistent
    (consistent : Consistent before) (member : base ∈ before.resourceIds)
    (adds : AddsLevel before after base name id) :
    Consistent after := by
  have old : ∀ other ∈ before.resourceIds, other ∈ after.resourceIds := by
    intro other listed
    rw [adds.resourceIds]
    exact List.mem_append_left _ listed
  have new : id ∈ after.resourceIds := by
    rw [adds.resourceIds]
    exact List.mem_append_right _ (List.mem_singleton_self id)
  rcases adds.binds with ⟨bind, binds, collection, -, resource⟩
  constructor
  · intro other listed
    rw [binds] at listed
    rcases List.mem_append.mp listed with isOld | isNew
    · exact old _ (consistent.fkBindCollection other isOld)
    · rcases List.mem_singleton.mp isNew with rfl
      rw [collection]
      exact old base member
  · intro other listed
    rw [binds] at listed
    rcases List.mem_append.mp listed with isOld | isNew
    · exact old _ (consistent.fkBindResource other isOld)
    · rcases List.mem_singleton.mp isNew with rfl
      rw [resource]
      exact new
  · intro other listed
    rw [adds.collections] at listed
    rcases List.mem_append.mp listed with isOld | isNew
    · exact old _ (consistent.fkCollection other isOld)
    · rcases List.mem_singleton.mp isNew with rfl
      exact new
  · intro other listed
    rw [adds.aclInheritance] at listed
    rcases List.mem_append.mp listed with isOld | isNew
    · exact old _ (consistent.fkAclInheritance other isOld)
    · rw [resourceId_of_mem_inheritedRows isNew]
      exact new

/-- A path above is passed on. -/
theorem AddsLevel.inheritsAces
    (adds : AddsLevel before after base name id)
    (path : HasPath before base) : InheritsAces after base id := by
  rcases path with ⟨row, listed, same⟩
  have found := Sql.find_key before.aclInheritance.pkey listed
  rw [same] at found
  have rows := adds.aclInheritance
  rw [inheritedRows, found] at rows
  refine ⟨row, ?_, same, ?_⟩
  · rw [rows]
    exact List.mem_append_left _ listed
  · rw [rows]
    exact List.mem_append_right _ (List.mem_singleton_self _)

/-- The new collection has the state of the one above it. -/
theorem AddsLevel.limebarState
    (member : base ∈ before.resourceIds)
    (adds : AddsLevel before after base name id) :
    limebarState after id = limebarState before base := by
  have listed : (⟨id, .collection, BridgeMkcol.limebarState before base⟩ :
      ResourceRow) ∈ after.resources.rows := by
    rw [adds.resources]
    exact List.mem_append_right _ (List.mem_singleton_self _)
  rcases List.mem_map.mp member with ⟨row, above, same⟩
  have found := Sql.find_key before.resources.pkey above
  rw [same] at found
  rw [BridgeMkcol.limebarState, Sql.find_key after.resources.pkey listed,
    BridgeMkcol.limebarState, found]
  rfl

theorem AddsLevel.avNewChildren
    (consistent : Consistent before)
    (adds : AddsLevel before after base name id) :
    dbmsGetCollectionProps after id = dbmsGetCollectionProps before base := by
  have absent : before.collections.find?
      (fun row => row.resourceId == id) = none := by
    apply List.find?_eq_none.mpr
    intro row listed same
    have known := consistent.fkCollection row listed
    rw [beq_iff_eq.mp same] at known
    exact adds.fresh known
  have first : ([⟨id, dbmsGetCollectionProps before base⟩] :
      List CollectionRow).find? (fun row => row.resourceId == id) =
        some ⟨id, dbmsGetCollectionProps before base⟩ :=
    List.find?_cons_of_pos (beq_self_eq_true id)
  rw [dbmsGetCollectionProps, adds.collections, List.find?_append, absent,
    first]
  rfl

/-- A new collection has no members. -/
theorem AddsLevel.unbound_new
    (consistent : Consistent before) (member : base ∈ before.resourceIds)
    (adds : AddsLevel before after base name id) (other : Text) (found : Id) :
    ¬ IsBound after.binds.rows id other found := by
  rintro ⟨bind, listed, collection, -, -⟩
  rcases adds.binds with ⟨added, binds, below, -, -⟩
  rw [binds] at listed
  rcases List.mem_append.mp listed with isOld | isNew
  · have known := consistent.fkBindCollection bind isOld
    rw [collection] at known
    exact adds.fresh known
  · rcases List.mem_singleton.mp isNew with rfl
    rw [below] at collection
    rw [collection] at member
    exact adds.fresh member

theorem AddsLevel.isBound
    (adds : AddsLevel before after base name id) :
    IsBound after.binds.rows base name id := by
  rcases adds.binds with ⟨bind, binds, facts⟩
  refine ⟨bind, ?_, facts⟩
  rw [binds]
  exact List.mem_append_right _ (List.mem_singleton_self bind)

/-- What is loaded is what the collection above passes on. -/
theorem loadParent_eq
    (member : base ∈ before.resourceIds) (cached : Cached before base r) :
    loadParent before { r with serialno := 0, parentId := base } =
      some ⟨limebarState before base, dbmsGetCollectionProps before base⟩ := by
  rcases List.mem_map.mp member with ⟨row, listed, same⟩
  have positive := (before.resources.ids row listed).1
  rw [same] at positive
  rw [loadParent]
  cases loaded : r.parent with
  | none => exact if_pos positive
  | some parent => exact congrArg some (cached parent loaded)

/-- A new resource is given the path of the collection and its own id. -/
theorem inheritsFrom
    {aclInheritance : AclTable}
    (consistent : Consistent before)
    (fresh : r.serialno ∉ before.resourceIds) (parent : r.parentId = base)
    (inherits : davReposInheritAces before.aclInheritance r =
      .ok aclInheritance) :
    aclInheritance.rows =
      before.aclInheritance.rows ++ inheritedRows before base r.serialno := by
  have unlisted : r.serialno ∉
      before.aclInheritance.rows.map AclRow.resourceId := by
    intro listed
    rcases List.mem_map.mp listed with ⟨row, rowListed, same⟩
    rw [← same] at fresh
    exact fresh (consistent.fkAclInheritance row rowListed)
  rw [davReposInheritAces] at inherits
  have inserted := (ite_error_eq_ok.mp inherits).2
  rw [dbmsInheritParentAces, dif_neg unlisted, parent] at inserted
  rw [inheritedRows]
  cases found : before.aclInheritance.rows.find?
      (fun row => row.resourceId == base) with
  | none =>
      rw [found] at inserted
      rcases Except.ok.inj inserted with rfl
      exact (List.append_nil _).symm
  | some row =>
      rw [found] at inserted
      have fits := (ite_error_eq_ok.mp inserted).2
      rcases Except.ok.inj fits with rfl
      rfl

/-- A pass of the loop makes one collection and loads its parent once. -/
theorem mkcolLevel_spec
    (consistent : Consistent before) (member : base ∈ before.resourceIds)
    (cached : Cached before base r)
    (done : mkcolLevel updatedAt before r base name = .ok (after, made)) :
    AddsLevel before after base name made.serialno ∧
      Cached after made.serialno made := by
  rw [mkcolLevel] at done
  rcases bind_eq_ok.mp done with ⟨⟨inserted, loaded⟩, insert, rest⟩
  rcases bind_eq_ok.mp rest with ⟨binds, bound, ends⟩
  rcases Except.ok.inj ends with ⟨rfl, rfl⟩
  rw [sabridgeInsertResource, loadParent_eq member cached] at insert
  rcases bind_eq_ok.mp insert with ⟨collections, collection, rest⟩
  rcases bind_eq_ok.mp rest with ⟨aclInheritance, inherits, ends⟩
  rcases Except.ok.inj ends with ⟨rfl, rfl⟩
  rw [mapError_eq_ok] at bound collection inherits
  have fresh : before.resources.nextId ∉ before.resourceIds :=
    Sql.next_not_mem fun row listed => (before.resources.ids row listed).2
  have adds : AddsLevel before
      { resources := dbmsInsertResource before.resources
          (limebarState before base)
        collections := collections
        binds := binds
        aclInheritance := aclInheritance }
      base name before.resources.nextId := by
    rw [dbmsInsertBind] at bound
    rw [dbmsInsertCollection] at collection
    split at bound
    · next fits =>
        have isNew := (ite_error_eq_ok.mp collection).2
        rcases Except.ok.inj bound with rfl
        rcases Except.ok.inj isNew with rfl
        refine ⟨fresh, ?_, rfl, rfl, ⟨_, rfl, rfl, rfl, rfl⟩, ?_⟩
        · rintro found ⟨bind, listed, coll, called, -⟩
          apply fits.1
          exact List.mem_map.mpr ⟨bind, listed, Prod.ext coll called⟩
        · exact inheritsFrom consistent fresh rfl inherits
    · cases bound
  refine ⟨adds, ?_⟩
  intro parent loaded
  rcases Option.some.inj loaded with rfl
  rw [adds.limebarState member, adds.avNewChildren consistent]

end Level

/-! ## All levels -/

/--
A collection of a name is new, and inherits from the one above it: ACEs where
that has a path.
-/
structure IsCreated (before after : CollectionStore) (above : Id)
    (name : Text) (id : Id) : Prop where
  fresh : id ∉ before.resourceIds
  collection : ∃ row ∈ after.resources.rows, row.id = id ∧
    row.resourcetype = .collection
  bound : IsBound after.binds.rows above name id
  inheritsAces : HasPath after above → InheritsAces after above id
  inheritsAutoVersion :
    dbmsGetCollectionProps after id = dbmsGetCollectionProps after above
  inheritsLimebar : limebarState after id = limebarState after above

/-- The segment with a number is missing before. -/
def IsMissing (before : CollectionStore) (base : Id) (names : List Text)
    (place : Nat) : Prop :=
  place < names.length ∧
    resolve before.binds.rows base (names.take (place + 1)) = none

/-- Below a collection exactly the missing segments of a path are made. -/
structure MakesBelow (before : CollectionStore) (base : Id)
    (names : List Text) (after : CollectionStore) : Prop where
  grows : Grows before after
  consistent : Consistent after
  created : ∀ place, IsMissing before base names place →
    ∃ above name id,
      names[place]? = some name ∧
      resolve after.binds.rows base (names.take place) = some above ∧
      resolve after.binds.rows base (names.take (place + 1)) = some id ∧
      IsCreated before after above name id
  binds : ∀ bind ∈ after.binds.rows, bind ∈ before.binds.rows ∨
    ∃ place, IsMissing before base names place ∧
      names[place]? = some bind.name ∧
      resolve after.binds.rows base (names.take place) =
        some bind.collectionId ∧
      resolve after.binds.rows base (names.take (place + 1)) =
        some bind.resourceId
  resources : ∀ row ∈ after.resources.rows, row ∈ before.resources.rows ∨
    ∃ place, IsMissing before base names place ∧
      resolve after.binds.rows base (names.take (place + 1)) = some row.id

section Levels

variable {before middle after : CollectionStore} {base id : Id} {name : Text}
  {names : List Text}

theorem makesBelow_nil (consistent : Consistent before) :
    MakesBelow before base [] before where
  grows := Grows.refl before
  consistent := consistent
  created := fun place missing => (Nat.not_lt_zero place missing.1).elim
  binds := fun _ member => Or.inl member
  resources := fun _ member => Or.inl member

/-- A segment that is bound is walked through. -/
theorem MakesBelow.walk
    (bound : IsBound before.binds.rows base name id)
    (makes : MakesBelow before id names after) :
    MakesBelow before base (name :: names) after := by
  have boundAfter : IsBound after.binds.rows base name id := by
    rcases bound with ⟨bind, member, facts⟩
    exact ⟨bind, makes.grows.binds.subset member, facts⟩
  have missing : ∀ place, IsMissing before base (name :: names) (place + 1) ↔
      IsMissing before id names place := by
    intro place
    rw [IsMissing, IsMissing, List.take_succ_cons,
      resolve_cons_of_isBound bound, List.length_cons,
      Nat.add_lt_add_iff_right]
  have first : ¬ IsMissing before base (name :: names) 0 := by
    rintro ⟨-, unresolved⟩
    rw [List.take_succ_cons, resolve_cons_of_isBound bound] at unresolved
    cases unresolved
  constructor
  · exact makes.grows
  · exact makes.consistent
  · intro place isMissing
    cases place with
    | zero => exact (first isMissing).elim
    | succ place =>
        rcases makes.created place ((missing place).mp isMissing) with
          ⟨above, called, new, named, resolvesAbove, resolves, created⟩
        refine ⟨above, called, new, named, ?_, ?_, created⟩
        · rw [List.take_succ_cons, resolve_cons_of_isBound boundAfter]
          exact resolvesAbove
        · rw [List.take_succ_cons, resolve_cons_of_isBound boundAfter]
          exact resolves
  · intro bind member
    rcases makes.binds bind member with
      old | ⟨place, isMissing, named, resolvesAbove, resolves⟩
    · exact Or.inl old
    · refine Or.inr ⟨place + 1, (missing place).mpr isMissing, named, ?_, ?_⟩
      · rw [List.take_succ_cons, resolve_cons_of_isBound boundAfter]
        exact resolvesAbove
      · rw [List.take_succ_cons, resolve_cons_of_isBound boundAfter]
        exact resolves
  · intro row member
    rcases makes.resources row member with old | ⟨place, isMissing, resolves⟩
    · exact Or.inl old
    · refine Or.inr ⟨place + 1, (missing place).mpr isMissing, ?_⟩
      rw [List.take_succ_cons, resolve_cons_of_isBound boundAfter]
      exact resolves

/-- What is created stays created when rows are added. -/
theorem AddsLevel.isCreated
    (consistent : Consistent before) (member : base ∈ before.resourceIds)
    (adds : AddsLevel before middle base name id)
    (grows : Grows middle after) :
    IsCreated before after base name id := by
  have new : id ∈ middle.resourceIds := by
    rw [adds.resourceIds]
    exact List.mem_append_right _ (List.mem_singleton_self id)
  have old : base ∈ middle.resourceIds := adds.grows.resourceIds member
  constructor
  · exact adds.fresh
  · refine ⟨⟨id, .collection, BridgeMkcol.limebarState before base⟩,
      grows.resources.subset ?_, rfl, rfl⟩
    rw [adds.resources]
    exact List.mem_append_right _ (List.mem_singleton_self _)
  · rcases adds.isBound with ⟨bind, listed, facts⟩
    exact ⟨bind, grows.binds.subset listed, facts⟩
  · intro path
    rcases adds.inheritsAces ((adds.grows.trans grows).hasPath member path)
      with ⟨row, listed, same, given⟩
    exact ⟨row, grows.aclInheritance.subset listed, same,
      grows.aclInheritance.subset given⟩
  · rw [grows.avNewChildren id new, grows.avNewChildren base old,
      adds.avNewChildren consistent, adds.grows.avNewChildren base member]
  · rw [grows.limebarState new, grows.limebarState old,
      adds.limebarState member, adds.grows.limebarState member]

/-- A segment that is missing is made, and all behind it. -/
theorem MakesBelow.create
    (consistent : Consistent before) (member : base ∈ before.resourceIds)
    (adds : AddsLevel before middle base name id)
    (makes : MakesBelow middle id names after) :
    MakesBelow before base (name :: names) after := by
  have boundAfter : IsBound after.binds.rows base name id := by
    rcases adds.isBound with ⟨bind, listed, facts⟩
    exact ⟨bind, makes.grows.binds.subset listed, facts⟩
  have missing : ∀ place, place < (name :: names).length →
      IsMissing before base (name :: names) place := by
    intro place bound
    refine ⟨bound, ?_⟩
    rw [List.take_succ_cons]
    exact resolve_cons_eq_none adds.unbound
  have missingBelow : ∀ place, place < names.length →
      IsMissing middle id names place := by
    intro place bound
    refine ⟨bound, ?_⟩
    cases names with
    | nil => cases bound
    | cons next names =>
        rw [List.take_succ_cons]
        exact resolve_cons_eq_none (adds.unbound_new consistent member next)
  constructor
  · exact adds.grows.trans makes.grows
  · exact makes.consistent
  · intro place isMissing
    cases place with
    | zero =>
        refine ⟨base, name, id, rfl, rfl, ?_,
          adds.isCreated consistent member makes.grows⟩
        rw [List.take_succ_cons, resolve_cons_of_isBound boundAfter]
        rfl
    | succ place =>
        have below := missingBelow place (Nat.lt_of_succ_lt_succ isMissing.1)
        rcases makes.created place below with
          ⟨above, called, new, named, resolvesAbove, resolves, created⟩
        refine ⟨above, called, new, named, ?_, ?_, ?_⟩
        · rw [List.take_succ_cons, resolve_cons_of_isBound boundAfter]
          exact resolvesAbove
        · rw [List.take_succ_cons, resolve_cons_of_isBound boundAfter]
          exact resolves
        · exact { created with
            fresh := fun old => created.fresh (adds.grows.resourceIds old) }
  · intro bind listed
    rcases makes.binds bind listed with
      old | ⟨place, isMissing, named, resolvesAbove, resolves⟩
    · rcases adds.binds with ⟨added, rows, coll, called, resource⟩
      rw [rows] at old
      rcases List.mem_append.mp old with isOld | isNew
      · exact Or.inl isOld
      · rcases List.mem_singleton.mp isNew with rfl
        refine Or.inr ⟨0, missing 0 (Nat.succ_pos _), ?_, ?_, ?_⟩
        · exact congrArg some called.symm
        · exact congrArg some coll.symm
        · rw [List.take_succ_cons, resolve_cons_of_isBound boundAfter]
          exact congrArg some resource.symm
    · refine Or.inr ⟨place + 1,
        missing (place + 1) (Nat.succ_lt_succ isMissing.1), named, ?_, ?_⟩
      · rw [List.take_succ_cons, resolve_cons_of_isBound boundAfter]
        exact resolvesAbove
      · rw [List.take_succ_cons, resolve_cons_of_isBound boundAfter]
        exact resolves
  · intro row listed
    rcases makes.resources row listed with old | ⟨place, isMissing, resolves⟩
    · rw [adds.resources] at old
      rcases List.mem_append.mp old with isOld | isNew
      · exact Or.inl isOld
      · rcases List.mem_singleton.mp isNew with rfl
        refine Or.inr ⟨0, missing 0 (Nat.succ_pos _), ?_⟩
        rw [List.take_succ_cons, resolve_cons_of_isBound boundAfter]
        rfl
    · refine Or.inr ⟨place + 1,
        missing (place + 1) (Nat.succ_lt_succ isMissing.1), ?_⟩
      rw [List.take_succ_cons, resolve_cons_of_isBound boundAfter]
      exact resolves

/-- A path at the last collection that is found is passed on to all. -/
theorem MakesBelow.hasPath
    {place : Nat} {above : Id}
    (makes : MakesBelow before base names after)
    (paths : ∀ place found,
      resolve before.binds.rows base (names.take place) = some found →
      IsMissing before base names place → HasPath before found)
    (isMissing : IsMissing before base names place)
    (resolves : resolve after.binds.rows base (names.take place) =
      some above) : HasPath after above := by
  have kept : ∀ place found,
      resolve before.binds.rows base (names.take place) = some found →
      IsMissing before base names place → HasPath after found := by
    intro place found resolved missing
    rcases paths place found resolved missing with ⟨row, listed, same⟩
    exact ⟨row, makes.grows.aclInheritance.subset listed, same⟩
  induction place generalizing above with
  | zero =>
      rcases Option.some.inj resolves with rfl
      exact kept 0 base rfl isMissing
  | succ place induction =>
      cases resolved : resolve before.binds.rows base
          (names.take (place + 1)) with
      | some found =>
          have found := resolve_of_subset makes.grows.binds.subset resolved
          rw [found] at resolves
          rcases Option.some.inj resolves with rfl
          exact kept (place + 1) _ resolved isMissing
      | none =>
          have missing : IsMissing before base names place :=
            ⟨Nat.lt_of_succ_lt isMissing.1, resolved⟩
          rcases makes.created place missing with
            ⟨above, name, id, -, resolvesAbove, new, created⟩
          rw [new] at resolves
          rcases Option.some.inj resolves with rfl
          rcases created.inheritsAces (induction missing resolvesAbove) with
            ⟨row, -, -, given⟩
          exact ⟨_, given, rfl⟩

end Levels

/-! ## The loop -/

section Loop

variable {store after : CollectionStore} {updatedAt : Text} {r : NewCollRes}
  {base newCollId last : Id} {searching : Bool} {names : List Text}

/-- The loop makes the missing part of the path and returns its end. -/
theorem mkcolLoop_spec
    (consistent : Consistent store) (member : base ∈ store.resourceIds)
    (unloaded : searching = true → r.parent = none)
    (cached : Cached store base r)
    (done : mkcolLoop updatedAt store r base newCollId searching names =
      .ok (after, last)) :
    MakesBelow store base names after ∧
      (names ≠ [] → resolve after.binds.rows base names = some last) ∧
      (names = [] → last = newCollId) := by
  induction names generalizing store r base newCollId searching with
  | nil =>
      rcases Except.ok.inj done with ⟨rfl, rfl⟩
      exact ⟨makesBelow_nil consistent, fun nonempty => (nonempty rfl).elim,
        fun _ => rfl⟩
  | cons name names induction =>
      have ends : ∀ {reached : Id} {new : Id},
          IsBound after.binds.rows base name reached →
          new = reached →
          (names ≠ [] → resolve after.binds.rows reached names = some last) →
          (names = [] → last = new) →
            resolve after.binds.rows base (name :: names) = some last := by
        intro reached new bound same returns stays
        rw [resolve_cons_of_isBound bound]
        cases names with
        | nil => rw [stays rfl, same, resolve]
        | cons next rest => exact returns (List.cons_ne_nil _ _)
      rw [mkcolLoop] at done
      by_cases walks : (if searching = true then
          dbmsGetBindResourceId store.binds.rows base name else 0) ≠ 0
      · rw [if_pos walks] at done
        have search : searching = true := by
          by_contra other
          rw [if_neg other] at walks
          exact walks rfl
        rw [if_pos search] at done walks
        have bound : IsBound store.binds.rows base name
            (dbmsGetBindResourceId store.binds.rows base name) :=
          isBound_iff.mpr ⟨walks, rfl⟩
        have found : dbmsGetBindResourceId store.binds.rows base name ∈
            store.resourceIds := by
          rcases bound with ⟨bind, listed, -, -, same⟩
          rw [← same]
          exact consistent.fkBindResource bind listed
        have below := induction consistent found (fun _ => unloaded search)
          (by
            intro parent loaded
            rw [unloaded search] at loaded
            cases loaded) done
        refine ⟨below.1.walk bound, fun _ => ?_, nofun⟩
        have boundAfter : IsBound after.binds.rows base name
            (dbmsGetBindResourceId store.binds.rows base name) := by
          rcases bound with ⟨bind, listed, facts⟩
          exact ⟨bind, below.1.grows.binds.subset listed, facts⟩
        exact ends boundAfter rfl below.2.1 below.2.2
      · rw [if_neg walks] at done
        rcases bind_eq_ok.mp done with ⟨⟨middle, made⟩, level, rest⟩
        rcases mkcolLevel_spec consistent member cached level with
          ⟨adds, loaded⟩
        have new : made.serialno ∈ middle.resourceIds := by
          rw [adds.resourceIds]
          exact List.mem_append_right _ (List.mem_singleton_self _)
        have later : mkcolLoop updatedAt middle made made.serialno
            made.serialno false names = .ok (after, last) := rest
        have below := induction (adds.consistent consistent member) new
          (fun search => (Bool.false_ne_true search).elim) loaded later
        refine ⟨below.1.create consistent member adds, fun _ => ?_, nofun⟩
        have boundAfter : IsBound after.binds.rows base name
            made.serialno := by
          rcases adds.isBound with ⟨bind, listed, facts⟩
          exact ⟨bind, below.1.grows.binds.subset listed, facts⟩
        exact ends boundAfter rfl below.2.1 below.2.2

/-- A path that is there is walked to its end. -/
theorem mkcolLoop_of_resolve
    (nonempty : names ≠ [])
    (resolves : resolve store.binds.rows base names = some last) :
    mkcolLoop updatedAt store r base newCollId true names =
      .ok (store, last) := by
  induction names generalizing base newCollId with
  | nil => exact (nonempty rfl).elim
  | cons name names induction =>
      rcases resolve_cons_eq_some.mp resolves with ⟨found, bound, rest⟩
      have reached := isBound_iff.mp bound
      rw [mkcolLoop]
      simp only [if_true, reached.2, if_pos reached.1]
      cases names with
      | nil =>
          rcases Option.some.inj rest with rfl
          rfl
      | cons next names => exact induction (List.cons_ne_nil _ _) rest

end Loop

/-! ## The call -/

/-- The types for which `dav_repos_update_dbr_resource` sets `collection`. -/
def holdsMembers (resourcetype : ResourceType) : Bool :=
  resourcetype.isCollection || resourcetype == .collectionVersion

def IsCollection (store : CollectionStore) (id : Id) : Prop :=
  ∃ row ∈ store.resources.rows, row.id = id ∧
    holdsMembers row.resourcetype = true

/-- The segments of the path after the root path. -/
def segments (rootPath uri : Text) : List Text :=
  Segments.tokens '/' (uri.drop rootPath.length)

/--
The path leads through collections to the one that is returned, of which the
missing ones have been made, and a second call finds them all.
-/
structure MakesParents (rootPath uri : Text) (before after : CollectionStore)
    (serialno : Id) : Prop where
  collections : ∀ place ≤ (segments rootPath uri).length, ∃ id,
    resolve after.binds.rows rootCollectionId
        ((segments rootPath uri).take place) = some id ∧
      IsCollection after id
  existing : ∀ place id,
    resolve before.binds.rows rootCollectionId
        ((segments rootPath uri).take place) = some id →
      resolve after.binds.rows rootCollectionId
        ((segments rootPath uri).take place) = some id
  makes : MakesBelow before rootCollectionId (segments rootPath uri) after
  inheritsAces : ∀ place,
    IsMissing before rootCollectionId (segments rootPath uri) place →
      ∃ above id,
        resolve after.binds.rows rootCollectionId
          ((segments rootPath uri).take place) = some above ∧
        resolve after.binds.rows rootCollectionId
          ((segments rootPath uri).take (place + 1)) = some id ∧
        InheritsAces after above id
  returned : resolve after.binds.rows rootCollectionId
    (segments rootPath uri) = some serialno
  again : ∀ updatedAt newCollId,
    sabridgeMkcolWParents updatedAt newCollId after rootPath uri =
      .ok (after, serialno)

section Call

variable {before after : CollectionStore} {base id serialno newCollId : Id}
  {names : List Text} {updatedAt rootPath uri : Text}

theorem mem_resourceIds_of_resolve
    (consistent : Consistent before) (member : base ∈ before.resourceIds)
    (resolves : resolve before.binds.rows base names = some id) :
    id ∈ before.resourceIds := by
  induction names generalizing base with
  | nil =>
      rcases Option.some.inj resolves with rfl
      exact member
  | cons name names induction =>
      rcases resolve_cons_eq_some.mp resolves with ⟨found, bound, rest⟩
      apply induction _ rest
      rcases bound with ⟨bind, listed, -, -, rfl⟩
      exact consistent.fkBindResource bind listed

/-- The types of resources do not change. -/
theorem Grows.isCollection_iff
    (grows : Grows before after) (member : id ∈ before.resourceIds) :
    IsCollection after id ↔ IsCollection before id := by
  constructor
  · rintro ⟨row, listed, same, holds⟩
    rcases List.mem_map.mp member with ⟨old, oldListed, oldSame⟩
    have equal : row = old :=
      List.inj_on_of_nodup_map after.resources.pkey listed
        (grows.resources.subset oldListed) (same.trans oldSame.symm)
    rw [equal] at holds
    exact ⟨old, oldListed, oldSame, holds⟩
  · rintro ⟨row, listed, same, holds⟩
    exact ⟨row, grows.resources.subset listed, same, holds⟩

/-- A call that succeeds does all but check what it walks through. -/
theorem sabridgeMkcolWParents_spec
    (consistent : Consistent before)
    (root : rootCollectionId ∈ before.resourceIds)
    (nonempty : segments rootPath uri ≠ [])
    (done : sabridgeMkcolWParents updatedAt newCollId before rootPath uri =
      .ok (after, serialno)) :
    MakesBelow before rootCollectionId (segments rootPath uri) after ∧
      resolve after.binds.rows rootCollectionId (segments rootPath uri) =
        some serialno := by
  have unloaded : Cached before rootCollectionId newDbr := by
    intro parent loaded
    cases loaded
  have spec := mkcolLoop_spec consistent root (fun _ => rfl) unloaded done
  exact ⟨spec.1, spec.2.1 nonempty⟩

/--
The call makes the path one of collections iff what it finds on the path are
collections, and the one below which the first is made has a path of ACL
inheritance.
-/
theorem sabridgeMkcolWParents_makes_iff
    (updatedAt rootPath uri : Text) (newCollId serialno : Id)
    (before after : CollectionStore)
    (consistent : Consistent before)
    (root : rootCollectionId ∈ before.resourceIds)
    (nonempty : segments rootPath uri ≠ [])
    (done : sabridgeMkcolWParents updatedAt newCollId before rootPath uri =
      .ok (after, serialno)) :
    MakesParents rootPath uri before after serialno ↔
      (∀ place id, resolve before.binds.rows rootCollectionId
          ((segments rootPath uri).take place) = some id →
        IsCollection before id) ∧
      ∀ place id, resolve before.binds.rows rootCollectionId
          ((segments rootPath uri).take place) = some id →
        IsMissing before rootCollectionId (segments rootPath uri) place →
        HasPath before id := by
  rcases sabridgeMkcolWParents_spec consistent root nonempty done with
    ⟨makes, returned⟩
  have existing : ∀ place id, resolve before.binds.rows rootCollectionId
          ((segments rootPath uri).take place) = some id →
        resolve after.binds.rows rootCollectionId
          ((segments rootPath uri).take place) = some id :=
    fun place id => resolve_of_subset makes.grows.binds.subset
  refine ⟨fun parents => ⟨?_, ?_⟩, ?_⟩
  · intro place id resolves
    have known := mem_resourceIds_of_resolve consistent root resolves
    have within : (segments rootPath uri).take place =
        (segments rootPath uri).take
          (min place (segments rootPath uri).length) :=
      List.take_eq_take_min
    have resolvesAfter := existing place id resolves
    rcases parents.collections _ (Nat.min_le_right place _) with
      ⟨found, foundResolves, isCollection⟩
    rw [← within, resolvesAfter] at foundResolves
    rcases Option.some.inj foundResolves with rfl
    exact (makes.grows.isCollection_iff known).mp isCollection
  · intro place id resolves isMissing
    rcases parents.inheritsAces place isMissing with
      ⟨above, new, resolvesAbove, -, row, listed, same, -⟩
    rw [existing place id resolves] at resolvesAbove
    rcases Option.some.inj resolvesAbove with rfl
    exact makes.grows.hasPath
      (mem_resourceIds_of_resolve consistent root resolves)
      ⟨row, listed, same⟩
  · rintro ⟨allCollections, paths⟩
    refine ⟨?_, existing, makes, ?_, returned, ?_⟩
    · intro place bound
      cases resolves : resolve before.binds.rows rootCollectionId
          ((segments rootPath uri).take place) with
      | some id =>
          have known := mem_resourceIds_of_resolve consistent root resolves
          exact ⟨id, existing place id resolves,
            (makes.grows.isCollection_iff known).mpr
              (allCollections place id resolves)⟩
      | none =>
          cases place with
          | zero => cases resolves
          | succ place =>
              rcases makes.created place ⟨bound, resolves⟩ with
                ⟨above, name, id, -, -, resolvesAfter, created⟩
              rcases created.collection with ⟨row, listed, same, called⟩
              refine ⟨id, resolvesAfter, row, listed, same, ?_⟩
              rw [called]
              rfl
    · intro place isMissing
      rcases makes.created place isMissing with
        ⟨above, name, id, -, resolvesAbove, resolves, created⟩
      exact ⟨above, id, resolvesAbove, resolves,
        created.inheritsAces (makes.hasPath paths isMissing resolvesAbove)⟩
    · intro updatedAt newCollId
      exact mkcolLoop_of_resolve nonempty returned

end Call

/-! ## The initial repository -/

theorem twelve_pos : (0 : Id) < 12 := by decide

/--
The rows that the repository is created with.  The principals have no paths
of ACL inheritance.
-/
def initialStore : CollectionStore where
  resources :=
    { rows :=
        [⟨1, .user, none⟩, ⟨2, .collection, none⟩, ⟨3, .principal, none⟩,
          ⟨4, .principal, none⟩, ⟨5, .user, none⟩, ⟨6, .collection, none⟩,
          ⟨7, .collection, none⟩, ⟨8, .collection, none⟩]
      nextId := 12
      nextIdPos := twelve_pos
      ids := by decide
      pkey := by decide }
  collections := [⟨2, 5⟩, ⟨6, 5⟩, ⟨7, 5⟩, ⟨8, 5⟩]
  binds :=
    { rows :=
        [⟨1, "groups".toList, 2, 6, none⟩, ⟨2, "users".toList, 2, 7, none⟩,
          ⟨3, "limestone".toList, 7, 1, none⟩, ⟨4, "home".toList, 2, 8, none⟩]
      pkey := by decide
      collectionIdKey := by decide
      positive := by decide
      nextId := 8
      nextIdPos := eight_pos
      ids := by decide }
  aclInheritance :=
    { rows :=
        [⟨2, "2".toList⟩, ⟨7, "2,7".toList⟩, ⟨8, "2,8".toList⟩,
          ⟨6, "2,6".toList⟩]
      pkey := by decide }

theorem consistent_initialStore : Consistent initialStore where
  fkBindCollection := by decide
  fkBindResource := by decide
  fkCollection := by decide
  fkAclInheritance := by decide

/-- Two collections are made below `/home`. -/
theorem sabridgeMkcolWParents_home :
    ∃ after, sabridgeMkcolWParents [] 0 initialStore []
        "/home/fred/notes".toList = .ok (after, 13) ∧
      MakesParents [] "/home/fred/notes".toList initialStore after 13 := by
  have resolved : ∀ place id, resolve initialStore.binds.rows
      rootCollectionId ((segments [] "/home/fred/notes".toList).take place) =
        some id →
      (⟨id, .collection, none⟩ : ResourceRow) ∈
          initialStore.resources.rows ∧
        HasPath initialStore id := by
    have names : segments [] "/home/fred/notes".toList =
        ["home".toList, "fred".toList, "notes".toList] := by
      decide
    intro place id resolves
    rw [names] at resolves
    match place with
    | 0 =>
        rcases Option.some.inj resolves with rfl
        exact ⟨by decide, ⟨2, "2".toList⟩, by decide, rfl⟩
    | 1 =>
        rcases Option.some.inj resolves with rfl
        exact ⟨by decide, ⟨8, "2,8".toList⟩, by decide, rfl⟩
    | place + 2 => cases resolves
  refine ⟨_, rfl, ?_⟩
  exact (sabridgeMkcolWParents_makes_iff [] [] "/home/fred/notes".toList 0 13
    initialStore _ consistent_initialStore (by decide) (by decide) rfl).mpr
      ⟨fun place id resolves =>
        ⟨_, (resolved place id resolves).1, rfl, rfl⟩,
      fun place id resolves _ => (resolved place id resolves).2⟩

/-- A user is taken for the collection that is asked for. -/
theorem sabridgeMkcolWParents_user :
    sabridgeMkcolWParents [] 0 initialStore []
        "/users/limestone".toList = .ok (initialStore, 1) ∧
      ¬ MakesParents [] "/users/limestone".toList initialStore initialStore
        1 := by
  constructor
  · rfl
  · intro makes
    rcases makes.collections 2 (by decide) with
      ⟨id, resolves, row, listed, same, holds⟩
    have user : resolve initialStore.binds.rows rootCollectionId
        ((segments [] "/users/limestone".toList).take 2) = some 1 := by
      decide
    rw [user] at resolves
    rcases Option.some.inj resolves with rfl
    have only : ∀ row ∈ initialStore.resources.rows, row.id = 1 →
        holdsMembers row.resourcetype = false := by
      decide
    rw [only row listed same] at holds
    cases holds

end Limestone.ParentCollections
