import Limestone.CopyTree
import Limestone.Library.GraphCopy

/-!
# The steps of a recursive COPY

Until the binds are inserted a copy only adds resources: the binds and what
the old resources hold are as before, and every resource that is created has
the content of the one it is a copy of.
-/

namespace Limestone.CopyTree

open Library
open BridgeProperty (DavReposResource MediaRow ResourceRow)
open CopyMedium
open DbmsBind
open GetResource (typeOf)
open InsertResource

/-! ## Calls that come to nothing that is left out -/

/--
What a call returns has a property, and it comes to nothing that is left out.
-/
structure Returns {α : Type} (post : α → Prop) (call : Except Stop α) :
    Prop where
  whole : call ≠ .error .leftOut
  spec : ∀ value, call = .ok value → post value

section Returning

variable {α β : Type} {post : α → Prop} {next : β → Prop}
  {first : Except Stop α} {second : α → Except Stop β}

theorem returns_ok {value : α} (holds : post value) :
    Returns post (.ok value) where
  whole := nofun
  spec := fun _ same => Except.ok.inj same ▸ holds

theorem returns_error {stop : Stop} (other : stop ≠ .leftOut) :
    Returns post (.error stop) where
  whole := fun same => other (Except.error.inj same)
  spec := nofun

theorem Returns.bind
    (returns : Returns post first)
    (goesOn : ∀ value, post value → Returns next (second value)) :
    Returns next (first >>= second) := by
  cases call : first with
  | error stop =>
      rw [call] at returns
      exact returns_error fun same => returns.whole (congrArg _ same)
  | ok value => exact goesOn value (returns.spec value call)

/-- What is said of the results may be what a lemma says. -/
theorem Returns.of_ok
    (returns : Returns post first) {other : α → Prop}
    (spec : ∀ value, first = .ok value → other value) :
    Returns other first :=
  ⟨returns.whole, spec⟩

theorem returns_ofBridge (call : Except BridgeMkcol.Stop α) :
    Returns (fun value => call = .ok value) (ofBridge call) := by
  cases call with
  | error stop =>
      cases stop with
      | davError err => exact returns_error nofun
      | nullDereference => exact returns_error nofun
  | ok value => exact returns_ok rfl

end Returning

/-! ## Stores that grow -/

/-- Every row of `media` has a body. -/
def HasBodies (store : ContentStore) : Prop :=
  ∀ row ∈ store.media, row.sha1 ∈ store.files

/-- The ids and types of the resources. -/
def typedRows (store : ContentStore) : List (Id × ResourceType) :=
  store.resources.map fun row => (row.id, row.type)

/-- There are new resources, and the old ones are as they were. -/
structure Grows (store after : ContentStore) (count : Nat) : Prop where
  nextId : after.nextId = store.nextId + count
  binds : after.binds = store.binds
  types : typedRows store <+: typedRows after
  contents : ∀ id, id < store.nextId → after.content id = store.content id
  versions : after.versions = store.versions
  vhrs : after.vhrs = store.vhrs
  vcrs : after.vcrs = store.vcrs
  bodies : HasBodies store → HasBodies after

section Growing

variable {store middle after : ContentStore} {count more : Nat} {id : Id}
  {type : ResourceType}

theorem Grows.refl (store : ContentStore) : Grows store store 0 where
  nextId := (Int.add_zero _).symm
  binds := rfl
  types := List.prefix_rfl
  contents := fun _ _ => rfl
  versions := rfl
  vhrs := rfl
  vcrs := rfl
  bodies := id

theorem Grows.trans
    (first : Grows store middle count)
    (second : Grows middle after more) :
    Grows store after (count + more) where
  nextId := by
    rw [second.nextId, first.nextId, Int.add_assoc, Int.natCast_add]
  binds := second.binds.trans first.binds
  types := first.types.trans second.types
  contents := by
    intro id old
    have still : id < middle.nextId := by
      rw [first.nextId]
      exact lt_of_lt_of_le old
        (Int.le_add_of_nonneg_right (Int.natCast_nonneg _))
    exact (second.contents id still).trans (first.contents id old)
  versions := second.versions.trans first.versions
  vhrs := second.vhrs.trans first.vhrs
  vcrs := second.vcrs.trans first.vcrs
  bodies := fun has => second.bodies (first.bodies has)

theorem map_fst_typedRows (store : ContentStore) :
    (typedRows store).map Prod.fst = store.resources.map ResourceRow.id := by
  simp [typedRows, List.map_map, Function.comp_def]

theorem mem_typedRows (store : ContentStore) :
    (id, type) ∈ typedRows store ↔ typeOf store id = some type := by
  constructor
  · intro member
    rcases List.mem_map.mp member with ⟨row, listed, same⟩
    rcases Prod.mk.inj same with ⟨rfl, rfl⟩
    exact GetResource.typeOf_of_mem listed
  · intro isType
    rcases Option.map_eq_some_iff.mp isType with ⟨row, found, rfl⟩
    have same := List.find?_some found
    rw [beq_iff_eq] at same
    exact List.mem_map.mpr
      ⟨row, List.mem_of_find?_eq_some found, by rw [same]⟩

theorem typeOf_of_types
    (types : typedRows store <+: typedRows after)
    (isType : typeOf store id = some type) :
    typeOf after id = some type :=
  (mem_typedRows after).mp
    (types.subset ((mem_typedRows store).mpr isType))

theorem Grows.typeOf
    (grows : Grows store after count)
    (isType : typeOf store id = some type) :
    typeOf after id = some type :=
  typeOf_of_types grows.types isType

theorem Grows.mem_ids
    (grows : Grows store after count)
    (present : id ∈ store.resources.map ResourceRow.id) :
    id ∈ after.resources.map ResourceRow.id := by
  rw [← map_fst_typedRows] at present ⊢
  exact (grows.types.map Prod.fst).subset present

/-- An id that is there is smaller than the next one. -/
theorem lt_nextId
    (present : id ∈ store.resources.map ResourceRow.id) :
    id < store.nextId := by
  rcases List.mem_map.mp present with ⟨row, listed, rfl⟩
  exact (store.ids row listed).2

end Growing

/-- The old resources and binds are there as they were. -/
structure Keeps (store after : ContentStore) : Prop where
  binds : store.binds.rows <+: after.binds.rows
  types : typedRows store <+: typedRows after
  contents : ∀ id, id < store.nextId → after.content id = store.content id
  versions : after.versions = store.versions
  vhrs : after.vhrs = store.vhrs
  vcrs : after.vcrs = store.vcrs
  bodies : HasBodies store → HasBodies after

theorem Grows.keeps
    {store after : ContentStore} {count : Nat}
    (grows : Grows store after count) : Keeps store after where
  binds := by rw [grows.binds]
  types := grows.types
  contents := grows.contents
  versions := grows.versions
  vhrs := grows.vhrs
  vcrs := grows.vcrs
  bodies := grows.bodies

theorem Keeps.trans
    {store middle after : ContentStore}
    (first : Keeps store middle)
    (le : store.nextId ≤ middle.nextId)
    (second : Keeps middle after) : Keeps store after where
  binds := first.binds.trans second.binds
  types := first.types.trans second.types
  contents := fun id old =>
    (second.contents id (lt_of_lt_of_le old le)).trans (first.contents id old)
  versions := second.versions.trans first.versions
  vhrs := second.vhrs.trans first.vhrs
  vcrs := second.vcrs.trans first.vcrs
  bodies := fun has => second.bodies (first.bodies has)

theorem Keeps.withBinds
    {store middle : ContentStore} {binds : BridgeMkcol.BindSequence}
    (keeps : Keeps store middle)
    (rows : middle.binds.rows <+: binds.rows) :
    Keeps store (RestoreVcc.withBinds middle binds) where
  binds := keeps.binds.trans rows
  types := keeps.types
  contents := keeps.contents
  versions := keeps.versions
  vhrs := keeps.vhrs
  vcrs := keeps.vcrs
  bodies := keeps.bodies

/-! ## Bodies -/

section Bodies

variable {store after : ContentStore} {request : Request}
  {src dest newDest : DavReposResource} {name destName : Text}

theorem exists_row_of_mediaOf
    {id : Id} {media : Nat × Option Text × Text}
    (member : media ∈ store.mediaOf id) :
    ∃ row ∈ store.media, row.resourceId = id ∧ row.sha1 = media.2.2 := by
  rcases List.mem_map.mp member with ⟨row, listed, rfl⟩
  rcases List.mem_filter.mp listed with ⟨listed, same⟩
  exact ⟨row, listed, beq_iff_eq.mp same, rfl⟩

theorem mem_mediaOf
    {row : MediaRow} (listed : row ∈ store.media) :
    (row.size, row.mimetype, row.sha1) ∈ store.mediaOf row.resourceId :=
  List.mem_map.mpr ⟨row, List.mem_filter.mpr ⟨listed, beq_self_eq_true _⟩, rfl⟩

/-- Two rows with a hash are more than one. -/
theorem dbmsNumSha1Resources_ne_one
    {first second : MediaRow}
    (firstListed : first ∈ store.media)
    (secondListed : second ∈ store.media)
    (differ : first.resourceId ≠ second.resourceId)
    (same : first.sha1 = second.sha1) :
    dbmsNumSha1Resources store second.sha1 ≠ 1 := by
  intro single
  rcases List.length_eq_one_iff.mp single with ⟨row, only⟩
  have isOnly : ∀ other ∈ store.media, other.sha1 = second.sha1 →
      other = row := by
    intro other listed hash
    have member : other ∈ store.media.filter fun row =>
        row.sha1 == second.sha1 :=
      List.mem_filter.mpr ⟨listed, beq_iff_eq.mpr hash⟩
    rw [only] at member
    exact List.mem_singleton.mp member
  apply differ
  rw [isOnly first firstListed same, isOnly second secondListed rfl]

/-- A copy onto a resource removes no body that a row still refers to. -/
theorem hasBodies_of_copiedMedium
    (copied : CopiedMedium store after src dest newDest name destName)
    (own : ∀ sha1, dest.sha1str = some sha1 →
      ∃ row ∈ store.media, row.resourceId = dest.serialno ∧ row.sha1 = sha1)
    (has : HasBodies store) :
    HasBodies after := by
  -- Every row after the copy is one of another resource before it.
  have exists_old : ∀ row ∈ after.media, ∃ old ∈ store.media,
      old.resourceId ≠ dest.serialno ∧ old.sha1 = row.sha1 := by
    intro row listed
    have member := mem_mediaOf listed
    by_cases isDest : row.resourceId = dest.serialno
    · rw [isDest, copied.mediaOf] at member
      split at member
      next => cases member
      next others =>
        rcases exists_row_of_mediaOf member with ⟨old, oldListed, same, hash⟩
        exact ⟨old, oldListed, same ▸ others, hash⟩
    · have sameContent := congrArg Content.media
        (copied.others row.resourceId isDest)
      have sameRows : after.mediaOf row.resourceId =
          store.mediaOf row.resourceId := sameContent
      rw [sameRows] at member
      rcases exists_row_of_mediaOf member with ⟨old, oldListed, same, hash⟩
      exact ⟨old, oldListed, same ▸ isDest, hash⟩
  intro row listed
  rcases exists_old row listed with ⟨old, oldListed, other, hash⟩
  by_contra gone
  rcases copied.files row.sha1 (hash ▸ has old oldListed) gone with
    ⟨isHash, single⟩
  rcases own row.sha1 isHash with ⟨mine, mineListed, isDest, sameHash⟩
  rw [← sameHash] at single
  exact dbmsNumSha1Resources_ne_one oldListed mineListed (isDest ▸ other)
    (hash.trans sameHash.symm) single

end Bodies

/-! ## A new resource -/

section Insertion

variable {store middle after : ContentStore} {request : Request}
  {parent r newR : DavReposResource} {type : ResourceType}

/-- The resources and what is read of them; other tables may differ. -/
theorem grows_of_touches
    {row : ResourceRow} {isNext : row.id = store.nextId}
    (touches : Touches (ContentStore.insertRow store row isNext) after
      store.nextId)
    (nextId : after.nextId = store.nextId + 1)
    (bodies : HasBodies store → HasBodies after) :
    Grows store after 1 where
  nextId := nextId
  binds := touches.sameGraph.binds
  types := by
    have types := touches.sameGraph.types
    refine ⟨[(row.id, row.type)], ?_⟩
    rw [typedRows, typedRows, types]
    show _ = (store.resources ++ [row]).map _
    simp
  contents := fun id old =>
    (touches.others id (Int.ne_of_lt old)).trans
      (content_insertRow_of_ne (Int.ne_of_lt old))
  versions := touches.sameGraph.versions
  vhrs := touches.sameGraph.vhrs
  vcrs := touches.sameGraph.vcrs
  bodies := bodies

/-- What the INSERT of a resource leaves of the store and of the record. -/
structure InsertedBelow (request : Request) (store after : ContentStore)
    (parent : DavReposResource) (type : ResourceType)
    (r newR : DavReposResource) : Prop where
  grows : Grows store after 1
  isType : typeOf after store.nextId = some type
  serialno : newR.serialno = store.nextId
  displayname : newR.displayname =
    (prepared request (some parent) r).displayname
  isName : after.displayname store.nextId = newR.displayname
  resourcetype : newR.resourcetype = some type
  uri : newR.uri = r.uri
  rootPath : newR.rootPath = r.rootPath
  avNewChildren : newR.avNewChildren =
    if type = .collection ∨ type = .versionedCollection then
      parent.avNewChildren
    else r.avNewChildren
  /-- The body of a new medium is the empty one. -/
  body : hasBody type = true →
    newR.sha1str = some emptySha1 ∧
      ∃ row ∈ after.media, row.resourceId = store.nextId ∧
        row.sha1 = emptySha1

theorem mem_files_insert
    {files : List Text} {hash other : Text}
    (member : hash ∈ files) : hash ∈ files.insert other :=
  List.mem_insert_of_mem member

/-- The body of a new resource, with the row that refers to it. -/
theorem insertedBelow_body
    (row : ResourceRow) (isNext : row.id = store.nextId)
    (isRow : row.type = type)
    (serialno : r.serialno = store.nextId)
    (created : sabridgeCreateEmptyBody request
      (ContentStore.insertRow store row isNext) r = .ok (after, newR)) :
    Grows store after 1 ∧ typeOf after store.nextId = some type ∧
      after.displayname store.nextId = row.displayname ∧
      newR = { r with
        sha1str := some emptySha1
        updatedAt := some request.now } ∧
      ∃ row ∈ after.media, row.resourceId = store.nextId ∧
        row.sha1 = emptySha1 := by
  have creates := createsBody_sabridgeCreateEmptyBody created
  have touches := creates.touches
  rw [serialno] at touches
  unfold sabridgeCreateEmptyBody at created
  rcases bind_eq_ok.mp created with ⟨⟨inserted, record⟩, isInserted, ends⟩
  rcases Prod.mk.inj (Except.ok.inj ends) with ⟨rfl, rfl⟩
  rcases Prod.mk.inj (Except.ok.inj isInserted) with ⟨rfl, rfl⟩
  refine ⟨grows_of_touches touches creates.nextId ?_, ?_, ?_,
    creates.newR_eq, ?_⟩
  · intro has media listed
    rcases List.mem_append.mp listed with old | isNew
    · exact mem_files_insert (has media old)
    · rcases List.mem_singleton.mp isNew with rfl
      exact List.mem_insert_self
  · rw [GetResource.typeOf_of_sameGraph touches.sameGraph, typeOf,
      find?_insertRow, Option.map_some, isRow]
  · exact (creates.displayname _).trans displayname_insertRow
  · exact ⟨_, List.mem_append_right _ (List.mem_singleton_self _), serialno,
      rfl⟩

theorem sabridgeInsertResource_spec
    (inserted : sabridgeInsertResource request store parent type r =
      .ok (after, newR)) :
    InsertedBelow request store after parent type r newR := by
  unfold sabridgeInsertResource at inserted
  simp only at inserted
  rcases bind_eq_ok.mp inserted with ⟨⟨middle, record⟩, stepped, rest⟩
  by_cases isBody : hasBody type = true
  · have noCollection : ¬ (type = .collection ∨
        type = .versionedCollection) := by
      rintro (rfl | rfl) <;> cases isBody
    rw [if_pos isBody] at stepped
    rw [if_neg noCollection] at rest
    rcases Prod.mk.inj (Except.ok.inj rest) with ⟨rfl, rfl⟩
    rcases insertedBelow_body _ rfl rfl rfl stepped with
      ⟨grows, isType, isName, rfl, row⟩
    exact
      { grows := grows
        isType := isType
        serialno := rfl
        displayname := rfl
        isName := isName
        resourcetype := rfl
        uri := rfl
        rootPath := rfl
        avNewChildren := (if_neg noCollection).symm
        body := fun _ => ⟨rfl, row⟩ }
  · rw [if_neg isBody] at stepped
    rcases Prod.mk.inj (Except.ok.inj stepped) with ⟨rfl, rfl⟩
    have touches := Touches.refl (ContentStore.insertRow store
      (resourceRow request store.nextId type
        (prepared request (some parent) r)) rfl) store.nextId
    have grows : Grows store _ 1 := grows_of_touches touches rfl id
    have isType : (store.resources ++ [resourceRow request store.nextId type
        (prepared request (some parent) r)]).find?
          (fun row => row.id == store.nextId) = some _ :=
      @find?_insertRow store _ rfl
    split at rest
    next isColl =>
        rcases Prod.mk.inj (Except.ok.inj rest) with ⟨rfl, rfl⟩
        exact
          { grows := { grows with }
            isType := congrArg (Option.map ResourceRow.type) isType
            serialno := rfl
            displayname := rfl
            isName := @displayname_insertRow store _ rfl
            resourcetype := rfl
            uri := rfl
            rootPath := rfl
            avNewChildren := (if_pos isColl).symm
            body := fun is => absurd is isBody }
    next notColl =>
        rcases Prod.mk.inj (Except.ok.inj rest) with ⟨rfl, rfl⟩
        exact
          { grows := grows
            isType := congrArg (Option.map ResourceRow.type) isType
            serialno := rfl
            displayname := rfl
            isName := @displayname_insertRow store _ rfl
            resourcetype := rfl
            uri := rfl
            rootPath := rfl
            avNewChildren := (if_neg notColl).symm
            body := fun is => absurd is isBody }

end Insertion

/-! ## A copy of a member -/

section Creation

variable {setting : Setting} {store after : ContentStore}
  {dbR copyParent copy newDest : DavReposResource} {name : Text}

/-- A resource that has what another one has. -/
structure IsCopyOf (store after : ContentStore) (id : Id)
    (type : ResourceType) (name : Text) (copyId : Id) : Prop where
  isType : typeOf after copyId =
    some (if type.isCollection then .collection else .resource)
  displayname : after.displayname copyId = some name
  properties : after.propertiesOf copyId = store.propertiesOf id
  media : type.isCollection = false → after.mediaOf copyId = store.mediaOf id

/-- What is there and has content keeps it. -/
theorem IsCopyOf.mono
    {middle : ContentStore} {id copyId : Id} {type : ResourceType}
    (isCopy : IsCopyOf store middle id type name copyId)
    (keeps : Keeps middle after) :
    IsCopyOf store after id type name copyId := by
  have present : copyId < middle.nextId := by
    rcases GetResource.mem_of_typeOf isCopy.isType with ⟨row, listed, rfl⟩
    exact (middle.ids row listed).2
  have content := keeps.contents copyId present
  constructor
  case isType => exact typeOf_of_types keeps.types isCopy.isType
  case displayname =>
    exact (congrArg Content.displayname content).trans isCopy.displayname
  case properties =>
    exact (congrArg Content.properties content).trans isCopy.properties
  case media =>
    intro isMedium
    exact (congrArg Content.media content).trans (isCopy.media isMedium)

theorem IsCopyOf.of_grows
    {middle : ContentStore} {count : Nat} {id copyId : Id}
    {type : ResourceType}
    (isCopy : IsCopyOf middle after id type name copyId)
    (grows : Grows store middle count)
    (old : id < store.nextId) :
    IsCopyOf store after id type name copyId := by
  have content := grows.contents id old
  constructor
  case isType => exact isCopy.isType
  case displayname => exact isCopy.displayname
  case properties =>
    exact isCopy.properties.trans (congrArg Content.properties content)
  case media =>
    intro isMedium
    exact (isCopy.media isMedium).trans (congrArg Content.media content)

theorem ofBridge_eq_ok
    {α : Type} {call : Except BridgeMkcol.Stop α} {value : α} :
    ofBridge call = .ok value ↔ call = .ok value :=
  mapError_eq_ok

/-- What `sabridge_create_copy` leaves for a member that it copies. -/
structure CreatedCopy (store after : ContentStore)
    (dbR copy : DavReposResource) (type : ResourceType) (name : Text) :
    Prop where
  grows : Grows store after 1
  serialno : copy.serialno = store.nextId
  isCopy : IsCopyOf store after dbR.serialno type name store.nextId
  uncontrolled : controlsChildren copy.avNewChildren = false

/-- The content of a copy is copied after it has been inserted. -/
theorem grows_of_copied
    {middle : ContentStore} {id : Id}
    (inserted : Grows store middle 1)
    (isNew : id = store.nextId)
    (sameGraph : SameGraph middle after)
    (others : ∀ other, other ≠ id → after.content other =
      middle.content other)
    (nextId : after.nextId = middle.nextId)
    (bodies : HasBodies middle → HasBodies after) :
    Grows store after 1 where
  nextId := nextId.trans inserted.nextId
  binds := sameGraph.binds.trans inserted.binds
  types := by
    have types : typedRows after = typedRows middle := sameGraph.types
    rw [types]
    exact inserted.types
  contents := fun other old =>
    (others other (isNew ▸ Int.ne_of_lt old)).trans
      (inserted.contents other old)
  versions := sameGraph.versions.trans inserted.versions
  vhrs := sameGraph.vhrs.trans inserted.vhrs
  vcrs := sameGraph.vcrs.trans inserted.vcrs
  bodies := fun has => bodies (inserted.bodies has)

/-- A medium that has been copied onto another one has its content. -/
theorem isCopyOf_copiedMedium
    {middle : ContentStore} {type : ResourceType} {destName : Text}
    {dest : DavReposResource}
    (medium : type.isCollection = false)
    (spec : CopiedMedium middle after dbR dest newDest name destName)
    (differ : dbR.serialno ≠ dest.serialno)
    (contents : middle.content dbR.serialno = store.content dbR.serialno)
    (isType : typeOf middle dest.serialno = some .resource)
    (isName : middle.displayname dest.serialno = dest.displayname) :
    IsCopyOf store after dbR.serialno type name dest.serialno := by
  constructor
  case isType =>
    rw [GetResource.typeOf_of_sameGraph spec.sameGraph, isType, medium]
    rfl
  case displayname =>
    have present : dest.serialno ∈ middle.resources.map ResourceRow.id := by
      rcases GetResource.mem_of_typeOf isType with ⟨row, listed, same⟩
      exact same ▸ List.mem_map_of_mem listed
    rw [spec.displayname present]
    split
    next same => rw [isName, spec.isDestName, same]
    next => rfl
  case properties =>
    rw [spec.propertiesOf, if_neg differ]
    exact congrArg Content.properties contents
  case media =>
    intro _
    rw [spec.mediaOf, if_neg differ]
    exact congrArg Content.media contents

/-- The body of a new medium is referred to by its own row. -/
theorem InsertedBelow.own
    {middle : ContentStore} {request : Request} {r inserted : DavReposResource}
    (below : InsertedBelow request store middle copyParent .resource r
      inserted) :
    ∀ sha1, inserted.sha1str = some sha1 →
      ∃ row ∈ middle.media, row.resourceId = inserted.serialno ∧
        row.sha1 = sha1 := by
  rcases below.body rfl with ⟨isEmpty, row, listed, same, hash⟩
  intro sha1 isHash
  rcases Option.some.inj (isEmpty.symm.trans isHash) with rfl
  exact ⟨row, listed, below.serialno ▸ same, hash⟩

/-- A medium that has just been inserted, and the copy onto it. -/
theorem createdCopy_medium
    {middle : ContentStore} {request : Request} {type : ResourceType}
    {r inserted : DavReposResource}
    (medium : type.isCollection = false)
    (below : InsertedBelow request store middle copyParent .resource r
      inserted)
    (isName : dbR.displayname = some name)
    (old : dbR.serialno < store.nextId)
    (uncontrolled : controlsChildren r.avNewChildren = false)
    (copied : sabridgeCopyMedium request middle dbR inserted =
      .ok (after, copy)) :
    CreatedCopy store after dbR copy type name := by
  rcases sabridgeCopyMedium_spec copied with ⟨_, destName, spec⟩
  have dest := sabridgeCopyMedium_dest copied
  rcases Option.some.inj (spec.isName.symm.trans isName) with rfl
  have serialno := below.serialno
  have differ : dbR.serialno ≠ inserted.serialno := by
    rw [serialno]
    exact Int.ne_of_lt old
  constructor
  case grows =>
    exact grows_of_copied below.grows serialno spec.sameGraph spec.others
      dest.1 (hasBodies_of_copiedMedium spec below.own)
  case serialno => exact spec.serialno.trans serialno
  case uncontrolled =>
    rw [dest.2]
    show controlsChildren inserted.avNewChildren = false
    rw [below.avNewChildren, if_neg (by simp)]
    exact uncontrolled
  case isCopy =>
    rw [← serialno]
    exact isCopyOf_copiedMedium medium spec differ
      (below.grows.contents dbR.serialno old) (serialno ▸ below.isType)
      (serialno ▸ below.isName)

/-- A collection that has just been inserted, and the copy onto it. -/
theorem createdCopy_collection
    {middle : ContentStore} {request : Request} {type : ResourceType}
    {r inserted : DavReposResource}
    (coll : type.isCollection = true)
    (below : InsertedBelow request store middle copyParent .collection r
      inserted)
    (isName : dbR.displayname = some name)
    (old : dbR.serialno < store.nextId)
    (uncontrolled : controlsChildren copyParent.avNewChildren = false)
    (copied : sabridgeCopyCollection middle dbR inserted =
      .ok (after, copy)) :
    CreatedCopy store after dbR copy type name := by
  unfold sabridgeCopyCollection at copied
  rcases bind_eq_ok.mp copied with ⟨⟨named, dest⟩, renamed, rest⟩
  rcases bind_eq_ok.mp rest with ⟨last, copiedDead, ends⟩
  rcases Prod.mk.inj (Except.ok.inj ends) with ⟨rfl, rfl⟩
  rcases copyDisplayname_spec renamed with ⟨_, destName, spec⟩
  rcases Option.some.inj (spec.isName.symm.trans isName) with rfl
  have serialno := below.serialno
  have same : dest.serialno = inserted.serialno := by rw [spec.newDest_eq]
  have differ : dbR.serialno ≠ dest.serialno := by
    rw [same, serialno]
    exact Int.ne_of_lt old
  have present : inserted.serialno ∈ middle.resources.map ResourceRow.id := by
    rcases GetResource.mem_of_typeOf below.isType with ⟨row, listed, same⟩
    rw [serialno, ← same]
    exact List.mem_map_of_mem listed
  have nextId : named.nextId = middle.nextId := by
    rcases copyDisplayname_eq_ok renamed with ⟨_, _, _, _, _, rfl⟩
    split <;> rfl
  have properties := propertiesOf_sabridgeCopyDeadProps copiedDead
  have otherProperties := fun id =>
    @propertiesOf_sabridgeCopyDeadProps_of_ne _ _ _ _ id copiedDead
  rcases sabridgeCopyDeadProps_eq_ok copiedDead with ⟨dead, rows, rfl, -⟩
  have sameGraph := spec.sameGraph.trans
    (sameGraph_contents named named.media dead rows named.files)
  have contents := below.grows.contents dbR.serialno old
  constructor
  case grows =>
    apply grows_of_copied below.grows serialno sameGraph ?_ nextId ?_
    · intro other differs
      have before := spec.others other differs
      apply Content.ext
      · show named.displayname other = _
        exact congrArg Content.displayname before
      · show named.mediaOf other = _
        exact congrArg Content.media before
      · exact (otherProperties other (same ▸ differs)).trans
          (congrArg Content.properties before)
    · intro has row listed
      show row.sha1 ∈ named.files
      rw [spec.files]
      apply has
      rw [← spec.media]
      exact listed
  case serialno => exact same.trans serialno
  case uncontrolled =>
    rw [spec.newDest_eq]
    show controlsChildren inserted.avNewChildren = false
    rw [below.avNewChildren, if_pos (Or.inl rfl)]
    exact uncontrolled
  case isCopy =>
    rw [← serialno]
    constructor
    case isType =>
      rw [GetResource.typeOf_of_sameGraph sameGraph, serialno, below.isType,
        coll]
      rfl
    case displayname =>
      apply (spec.displayname present).trans
      split
      next same => rw [serialno, below.isName, spec.isDestName, same]
      next => rfl
    case properties =>
      rw [same, if_neg (same ▸ differ)] at properties
      apply properties.trans
      have dead : named.propertiesOf = middle.propertiesOf := by
        unfold ContentStore.propertiesOf
        rw [spec.dead]
      rw [dead]
      exact congrArg Content.properties contents
    case media =>
      intro isMedium
      rw [coll] at isMedium
      cases isMedium

/-- The types that are copied. -/
def isCopyable (type : ResourceType) : Bool :=
  isMedium (some type) || isCollection (some type)

theorem isCollection_some (type : ResourceType) :
    isCollection (some type) = type.isCollection := by
  cases type <;> rfl

theorem isCollection_of_isMedium
    {type : ResourceType} (medium : isMedium (some type) = true) :
    type.isCollection = false := by
  cases type <;> first | rfl | cases medium

/-- What a copy that has been created is, by the type of the member. -/
theorem sabridgeCreateCopy_spec
    {type : ResourceType}
    (isType : dbR.resourcetype = some type)
    (isName : dbR.displayname = some name)
    (old : dbR.serialno < store.nextId)
    (uncontrolled : controlsChildren copyParent.avNewChildren = false)
    (created : sabridgeCreateCopy setting store dbR copyParent =
      .ok (after, copy)) :
    (isCopyable type = true ∧ CreatedCopy store after dbR copy type name) ∨
      isCopyable type = false ∧ after = store ∧ copy.serialno = 0 ∧
        controlsChildren copy.avNewChildren = false := by
  unfold sabridgeCreateCopy at created
  rw [isType] at created
  simp only [uncontrolled] at created
  by_cases medium : isMedium (some type) = true
  · left
    rw [if_pos medium] at created
    rcases bind_eq_ok.mp created with ⟨⟨middle, inserted⟩, insertion, rest⟩
    rcases bind_eq_ok.mp rest with ⟨⟨last, result⟩, copied, ends⟩
    rw [if_neg Bool.false_ne_true] at ends
    rcases Prod.mk.inj (Except.ok.inj ends) with ⟨rfl, rfl⟩
    refine ⟨by rw [isCopyable, medium, Bool.true_or], ?_⟩
    exact createdCopy_medium (isCollection_of_isMedium medium)
      (sabridgeInsertResource_spec (ofBridge_eq_ok.mp insertion)) isName old
      rfl (ofBridge_eq_ok.mp copied)
  · rw [if_neg medium] at created
    by_cases coll : isCollection (some type) = true
    · left
      rw [if_pos coll] at created
      rcases bind_eq_ok.mp created with ⟨⟨middle, inserted⟩, insertion, copied⟩
      refine ⟨by rw [isCopyable, coll, Bool.or_true], ?_⟩
      exact createdCopy_collection (isCollection_some type ▸ coll)
        (sabridgeInsertResource_spec (ofBridge_eq_ok.mp insertion)) isName
        old uncontrolled (ofBridge_eq_ok.mp copied)
    · right
      rw [if_neg coll] at created
      rcases Prod.mk.inj (Except.ok.inj created) with ⟨rfl, rfl⟩
      refine ⟨?_, rfl, rfl, rfl⟩
      rw [isCopyable, Bool.eq_false_iff.mpr medium, Bool.eq_false_iff.mpr coll]
      rfl

/-- Below a parent that controls nothing no version is made. -/
theorem returns_sabridgeCreateCopy
    (uncontrolled : controlsChildren copyParent.avNewChildren = false) :
    Returns (fun result => sabridgeCreateCopy setting store dbR copyParent =
      .ok result) (sabridgeCreateCopy setting store dbR copyParent) := by
  have returns : Returns (fun _ => True)
      (sabridgeCreateCopy setting store dbR copyParent) := by
    unfold sabridgeCreateCopy
    simp only [uncontrolled]
    split
    next =>
        refine (returns_ofBridge _).bind fun inserted _ => ?_
        refine (returns_ofBridge _).bind fun copied _ => ?_
        exact returns_ok trivial
    next =>
        split
        next =>
            refine (returns_ofBridge _).bind fun inserted _ => ?_
            exact (returns_ofBridge _).of_ok fun _ _ => trivial
        next => exact returns_ok trivial
  exact returns.of_ok fun _ same => same

end Creation

end Limestone.CopyTree
