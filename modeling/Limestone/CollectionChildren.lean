import Limestone.DbmsCollection
import Limestone.Library.LastSeen
import Limestone.ReverseLookup

/-!
# The listing of a bind graph: `sabridge_get_collection_children`

With depth infinity the members of a collection are listed level by level.
A pass over each level points every item to the last item of the same
resource, and only collections that are met for the first time are asked for
their members, so that the walk ends in a graph with cycles.
-/

namespace Limestone.CollectionChildren

open Library
open DbmsAcl
open DbmsBind
open DbmsCollection
open PathSearch
open ReverseLookup
open UriLookup

/--
The tables of the listing.  A resource has at most one row in `versions`, and
no two version-controlled resources are checked in or out at one version,
which is no key of the schema: the writers of `vcrs` keep it.
-/
structure ListedTables extends RepoTables where
  versionsResource : (versions.map Version.resourceId).Nodup
  vcrsChecked : (vcrs.map Vcr.checkedId).Nodup

/-! ## The function -/

/-- `depth`: `0`, `DAV_INFINITY`, or any other number, which lists one level. -/
inductive Depth where
  | zero
  | one
  | infinity
deriving DecidableEq, Repr

/-- What `bind` of an item points to: `db_r`, or an item of the list. -/
inductive Pointer where
  | start
  | item (index : Nat)
deriving DecidableEq, Repr

/-- An item of the list and its `bind`, where `none` is NULL. -/
abbrev Entry :=
  DavReposResource × Option Pointer

/-- The item as the next query sees it. -/
def Entry.toItem (entry : Entry) : DavReposResource :=
  { entry.1 with hasBind := entry.2.isSome }

/-- `*num_items`: the rows of the query, those that are skipped included. -/
def dbmsNumItems (order : Sql.RowOrder MemberRow) (query : Nat)
    (tables : RepoTables) (items : List DavReposResource) : Nat :=
  (order.arrange query (memberRows tables
    ((listedCollections items).map DavReposResource.serialno))).length

/-- What `sabridge_get_collection_children` keeps between two levels. -/
structure ListingState where
  /-- Number of queries made. -/
  queries : Nat
  /-- The list from `link_head` on, without the level that is not marked. -/
  linkHead : List Entry
  nextLevelChildren : List DavReposResource
  /-- `retr_rs`. -/
  retrRs : List (Id × Pointer)
  totalItems : Nat

/-- The list, and the number of items unless it is not written. -/
structure Children where
  linkHead : List Entry
  numItems : Option Nat
deriving DecidableEq, Repr

/--
The body of the `while`.  The tail that ends the list of collections asked
for is not initialised for the first level; the list ends there all the same.
-/
def listLevel (order : Sql.RowOrder MemberRow) (tables : RepoTables)
    (grantdeny : Option (Bind → Option Char)) (depth : Depth)
    (state : ListingState) : Children ⊕ ListingState :=
  if state.nextLevelChildren = [] then
    .inl ⟨state.linkHead, some state.totalItems⟩
  else
    let marked := LastSeen.mark DavReposResource.serialno Pointer.item
      state.retrRs state.linkHead.length state.nextLevelChildren
    let linkHead := state.linkHead ++ marked.1
    match depth with
    | .infinity =>
        let level := marked.1.map Entry.toItem
        let nextLevelChildren :=
          dbmsGetCollectionResource order state.queries tables grantdeny level
        .inr
          { queries := state.queries + 1
            linkHead := linkHead
            nextLevelChildren := nextLevelChildren
            retrRs := marked.2
            totalItems :=
              if nextLevelChildren = [] then state.totalItems
              else state.totalItems +
                dbmsNumItems order state.queries tables level }
    | _ =>
        .inr
          { queries := state.queries
            linkHead := linkHead
            nextLevelChildren := []
            retrRs := marked.2
            totalItems := state.totalItems }

/-- The state before the first level is marked. -/
def listingStart (order : Sql.RowOrder MemberRow) (tables : RepoTables)
    (grantdeny : Option (Bind → Option Char)) (dbR : DavReposResource) :
    ListingState where
  queries := 1
  linkHead := []
  nextLevelChildren :=
    dbmsGetCollectionResource order 0 tables grantdeny [dbR]
  retrRs := [(dbR.serialno, .start)]
  totalItems := dbmsNumItems order 0 tables [dbR]

/-- `sabridge_get_collection_children`; `none` while the loop is running. -/
def sabridgeGetCollectionChildren (fuel : Nat)
    (order : Sql.RowOrder MemberRow) (tables : RepoTables)
    (grantdeny : Option (Bind → Option Char)) (dbR : DavReposResource) :
    Depth → Option Children
  | .zero => some ⟨[], none⟩
  | depth => Loop.run (listLevel order tables grantdeny depth) fuel
      (listingStart order tables grantdeny dbR)

/-- The column of the query for the principal of the request. -/
def privFilter (acl : AclTables) (principal : DavPrincipal)
    (aclPriv : Option Text) : Option (Bind → Option Char) :=
  aclPriv.map (grantdenyColumn acl (davReposGetPrincipalId principal))

/-! ## What the list is to hold -/

/-- A collection with a URI, as it is passed to the listing. -/
structure StartCollection where
  serialno : Id
  resourcetype : ResourceType
  uri : Text
  parentId : Id
  bindId : Id
  isCollection : resourcetype.isCollection = true

def StartCollection.item (start : StartCollection) : DavReposResource where
  serialno := start.serialno
  resourcetype := start.resourcetype
  uri := some start.uri
  parentId := start.parentId
  bindId := start.bindId
  hasBind := false

/-- The binds that the filter admits and that lead to collections. -/
def admittedGraph (tables : RepoTables)
    (grantdeny : Option (Bind → Option Char)) : Multigraph Id Bind :=
  (bindGraph tables.binds.rows).restrict fun bind =>
    Kept grantdeny bind ∧ ∃ resource ∈ tables.resources,
      resource.id = bind.resourceId ∧ resource.resourcetype.isCollection = true

/--
The binds to be listed: the filter admits the resource, and the collection is
the start or is reached from it through admitted collections.
-/
structure Listed (tables : RepoTables)
    (grantdeny : Option (Bind → Option Char)) (startId : Id) (bind : Bind) :
    Prop where
  bound : bind ∈ tables.binds.rows
  kept : Kept grantdeny bind
  reached : (admittedGraph tables grantdeny).Reaches startId bind.collectionId

/-- The URI of a member with this name. -/
def childUri (uri name : Text) : Text :=
  if uri = ['/'] then '/' :: name else uri ++ '/' :: name

/--
The URI of an item is that of the start with the names of binds after it
that lead to the resource.  Its tokens are these names as well, if each of
them is a segment.
-/
def Resolves (tables : RepoTables) (start : StartCollection)
    (item : DavReposResource) : Prop :=
  ∃ names uri, item.uri = some uri ∧
    uri = names.foldl childUri start.uri ∧
    Leads tables.binds.rows start.serialno names item.serialno ∧
    ((∀ name ∈ names, Segments.IsSegment '/' name) →
      Segments.tokens '/' uri = Segments.tokens '/' start.uri ++ names)

/-- One entry for each bind to be listed, and no other. -/
structure ListsExactly (tables : RepoTables)
    (grantdeny : Option (Bind → Option Char)) (startId : Id)
    (entries : List Entry) : Prop where
  once : (entries.map fun entry => entry.1.bindId).Nodup
  complete : ∀ bind, Listed tables grantdeny startId bind →
    ∃ entry ∈ entries, entry.1.bindId = bind.id
  sound : ∀ entry ∈ entries, ∃ bind, Listed tables grantdeny startId bind ∧
    entry.1.bindId = bind.id ∧ entry.1.serialno = bind.resourceId ∧
    entry.1.parentId = bind.collectionId

/-- The entry at an index points to an earlier entry of its resource. -/
def PointsBack (entries : List Entry) (index : Nat) (entry : Entry) : Prop :=
  ∃ earlier, earlier < index ∧ entry.2 = some (.item earlier) ∧
    ∃ other, entries[earlier]? = some other ∧
      other.1.serialno = entry.1.serialno

/--
Each resource but the start has one entry without a pointer, which comes
first; the entries after it point back.
-/
def FirstIsUnmarked (startId : Id) (entries : List Entry) : Prop :=
  ∀ id, id ≠ startId → (∃ entry ∈ entries, entry.1.serialno = id) →
    ∃ first entry, entries[first]? = some entry ∧ entry.1.serialno = id ∧
      entry.2 = none ∧
      ∀ index other, entries[index]? = some other → other.1.serialno = id →
        index ≠ first → first < index ∧ PointsBack entries index other

/-- The entries of the start point to the start. -/
def StartIsMarked (startId : Id) (entries : List Entry) : Prop :=
  ∀ entry ∈ entries, entry.1.serialno = startId → entry.2 = some .start

/--
Of the entries of the start, the first points to the start, and the others
point back.
-/
def FirstPointsToStart (startId : Id) (entries : List Entry) : Prop :=
  ∀ index entry, entries[index]? = some entry → entry.1.serialno = startId →
    (entry.2 = some .start ∧ ∀ earlier other, earlier < index →
      entries[earlier]? = some other → other.1.serialno ≠ startId) ∨
    PointsBack entries index entry

/-! ## The rows of one query -/

/-- The query has at most one row for each bind. -/
theorem nodup_memberRows (tables : ListedTables) (colIds : List Id) :
    ((memberRows tables.toRepoTables colIds).map
      fun row => row.childBind.id).Nodup := by
  let members := (Sql.crossJoin (tables.binds.rows.filter fun bind =>
    decide (bind.collectionId ∈ colIds)) tables.resources).filter
      fun pair => pair.2.id == pair.1.resourceId
  let versions := Sql.leftJoin members tables.versions fun pair version =>
    version.resourceId == pair.2.id
  let joined := Sql.leftJoin versions tables.vcrs fun row vrVcr =>
    row.2.any fun version => vrVcr.checkedId == version.resourceId
  have few : ∀ {Row : Type} {rows : List Row} {key : Row → Id},
      (rows.map key).Nodup → ∀ value,
        (rows.filter fun row => key row == value).length ≤ 1 := by
    intro Row rows key unique value
    rcases Sql.filter_key unique value with empty | ⟨row, single⟩
    · rw [empty]
      exact Nat.zero_le _
    · rw [single]
      exact Nat.le_refl _
  have ofVersions : versions.map Prod.fst = members := by
    apply Sql.map_fst_leftJoin
    intro pair _
    exact few tables.versionsResource pair.2.id
  have ofJoined : joined.map Prod.fst = versions := by
    apply Sql.map_fst_leftJoin
    rintro ⟨pair, version⟩ _
    cases version with
    | none => simp
    | some version => exact few tables.vcrsChecked version.resourceId
  have ids : (memberRows tables.toRepoTables colIds).map
      (fun row => row.childBind.id) =
        members.map fun pair => pair.1.id := by
    rw [← ofVersions, ← ofJoined, List.map_map, List.map_map]
    show (joined.map _).map _ = _
    rw [List.map_map]
    rfl
  rw [ids]
  have pairs : members.Nodup :=
    (Sql.nodup_crossJoin (tables.binds.pkey.of_map.filter _)
      tables.resourcesPkey.of_map).filter _
  apply pairs.map_on
  rintro ⟨bind, resource⟩ member ⟨other, otherResource⟩ otherMember same
  simp only [members, List.mem_filter, Sql.mem_crossJoin, beq_iff_eq]
    at member otherMember
  have binds : bind = other :=
    List.inj_on_of_nodup_map tables.binds.pkey member.1.1.1
      otherMember.1.1.1 same
  have resources : resource = otherResource := by
    apply List.inj_on_of_nodup_map tables.resourcesPkey member.1.2
      otherMember.1.2
    rw [member.2, otherMember.2, binds]
  rw [binds, resources]

section Query

variable {order : Sql.RowOrder MemberRow} {query : Nat}
  {tables : ListedTables} {grantdeny : Option (Bind → Option Char)}
  {items : List DavReposResource}

/-- The items of a query are those of different binds. -/
theorem nodup_dbmsGetCollectionResource :
    ((dbmsGetCollectionResource order query tables.toRepoTables grantdeny
      items).map DavReposResource.bindId).Nodup := by
  unfold dbmsGetCollectionResource
  rw [List.map_map]
  apply List.Nodup.sublist (List.filter_sublist.map _)
  have same := (order.perm query (memberRows tables.toRepoTables
    ((listedCollections items).map DavReposResource.serialno))).map
      fun row => row.childBind.id
  exact same.nodup_iff.mpr (nodup_memberRows tables _)

theorem length_dbmsGetCollectionResource_le
    {repo : RepoTables} :
    (dbmsGetCollectionResource order query repo grantdeny items).length ≤
      dbmsNumItems order query repo items := by
  unfold dbmsGetCollectionResource dbmsNumItems
  rw [List.length_map]
  exact List.length_filter_le _ _

end Query

/-! ## The items of one query -/

section Walk

variable {order : Sql.RowOrder MemberRow} {query : Nat}
  {tables : ListedTables} {grantdeny : Option (Bind → Option Char)}
  {start : StartCollection} {items marks done level : List DavReposResource}
  {item : DavReposResource} {chain : List Bind} {bind : Bind}

/-- The URI after the names of a chain. -/
def uriBelow (start : StartCollection) (chain : List Bind) : Text :=
  (chain.map Bind.name).foldl childUri start.uri

theorem uriBelow_snoc (start : StartCollection) (chain : List Bind)
    (bind : Bind) :
    uriBelow start (chain ++ [bind]) =
      childUri (uriBelow start chain) bind.name := by
  simp [uriBelow]

/-- A collection whose members are asked for: the start, or one below it. -/
structure Opened (tables : ListedTables)
    (grantdeny : Option (Bind → Option Char)) (start : StartCollection)
    (collection : DavReposResource) (chain : List Bind) : Prop where
  trail : (admittedGraph tables.toRepoTables grantdeny).Trail start.serialno
    chain collection.serialno
  uri : collection.uri = some (uriBelow start chain)

/-- The item of a bind, found through a chain of admitted collections. -/
structure Located (tables : ListedTables)
    (grantdeny : Option (Bind → Option Char)) (start : StartCollection)
    (item : DavReposResource) (chain : List Bind) (bind : Bind) : Prop where
  trail : (admittedGraph tables.toRepoTables grantdeny).Trail start.serialno
    chain bind.collectionId
  bound : bind ∈ tables.binds.rows
  kept : Kept grantdeny bind
  resource : ∃ resource ∈ tables.resources, resource.id = bind.resourceId ∧
    resource.resourcetype = item.resourcetype
  bindId : item.bindId = bind.id
  serialno : item.serialno = bind.resourceId
  parentId : item.parentId = bind.collectionId
  fresh : item.hasBind = false
  uri : item.uri = some (uriBelow start (chain ++ [bind]))

theorem opened_start : Opened tables grantdeny start start.item [] :=
  ⟨rfl, rfl⟩

/-- An item that is a collection can be asked for its members. -/
theorem Located.opened
    (located : Located tables grantdeny start item chain bind)
    (isCollection : item.resourcetype.isCollection = true) :
    Opened tables grantdeny start item (chain ++ [bind]) := by
  constructor
  case trail =>
    rcases located.resource with ⟨resource, member, same, ofType⟩
    rw [located.serialno]
    apply located.trail.append
    refine ⟨⟨located.bound, located.kept, resource, member, same, ?_⟩, rfl, rfl⟩
    rw [ofType]
    exact isCollection
  case uri => exact located.uri

/-- The URI of an item goes on from that of a collection of the level. -/
theorem exists_parent
    {collectionId : Id}
    (inside : collectionId ∈
      (listedCollections items).map DavReposResource.serialno) :
    ∃ parent ∈ listedCollections items, parent.serialno = collectionId ∧
      parentUri (listedCollections items) collectionId = parent.uri := by
  rcases List.mem_map.mp inside with ⟨other, listed, same⟩
  have isSome : ((listedCollections items).reverse.find? fun iter =>
      iter.serialno == collectionId).isSome := by
    rw [List.find?_isSome]
    exact ⟨other, List.mem_reverse.mpr listed, beq_iff_eq.mpr same⟩
  rcases Option.isSome_iff_exists.mp isSome with ⟨parent, equation⟩
  have isParent : parent.serialno = collectionId := by
    simpa using List.find?_some equation
  refine ⟨parent, List.mem_reverse.mp (List.mem_of_find?_eq_some equation),
    isParent, ?_⟩
  rw [parentUri, equation]
  rfl

/-- The items of a query are located if the collections are. -/
theorem located_of_mem
    (opened : ∀ collection ∈ listedCollections items, ∃ chain,
      Opened tables grantdeny start collection chain)
    (member : item ∈ dbmsGetCollectionResource order query
      tables.toRepoTables grantdeny items) :
    ∃ chain bind, Located tables grantdeny start item chain bind := by
  rcases mem_dbmsGetCollectionResource.mp member with
    ⟨bind, bound, resource, present, inside, same, kept, rfl⟩
  rcases exists_parent inside with ⟨found, foundListed, foundId, itsUri⟩
  rcases opened found foundListed with ⟨chain, collection⟩
  have parentUri_eq := itsUri.trans collection.uri
  refine ⟨chain, bind, ?_⟩
  constructor
  case trail =>
    rw [← foundId]
    exact collection.trail
  case bound => exact bound
  case kept => exact kept
  case resource => exact ⟨resource, present, same, rfl⟩
  case bindId => rfl
  case serialno => exact same
  case parentId => rfl
  case fresh => rfl
  case uri =>
    rw [uriBelow_snoc]
    simp only [memberItem, parentUri_eq, childUri]
    split
    · rfl
    · rfl

/-- Two located items of one bind have the same parent. -/
theorem Located.parentId_eq
    {other : DavReposResource} {otherChain : List Bind} {otherBind : Bind}
    (located : Located tables grantdeny start item chain bind)
    (otherLocated :
      Located tables grantdeny start other otherChain otherBind)
    (same : item.bindId = other.bindId) :
    item.parentId = other.parentId := by
  have binds : bind = otherBind :=
    List.inj_on_of_nodup_map tables.binds.pkey located.bound
      otherLocated.bound
      (located.bindId.symm.trans (same.trans otherLocated.bindId))
  rw [located.parentId, otherLocated.parentId, binds]

/-- Items of one resource have one type. -/
theorem Located.resourcetype_eq
    {other : DavReposResource} {otherChain : List Bind} {otherBind : Bind}
    (located : Located tables grantdeny start item chain bind)
    (otherLocated :
      Located tables grantdeny start other otherChain otherBind)
    (same : item.serialno = other.serialno) :
    item.resourcetype = other.resourcetype := by
  rcases located.resource with ⟨resource, member, id, ofType⟩
  rcases otherLocated.resource with ⟨second, secondMember, secondId, ofSecond⟩
  have resources : resource = second := by
    apply List.inj_on_of_nodup_map tables.resourcesPkey member secondMember
    rw [id, secondId, ← located.serialno, ← otherLocated.serialno, same]
  rw [← ofType, ← ofSecond, resources]

/-! ## The walk over the levels -/

/-- The collections asked for their members: the start and those met. -/
def IsOpened (start : StartCollection) (done : List DavReposResource)
    (id : Id) : Prop :=
  id = start.serialno ∨ ∃ item ∈ done,
    item.resourcetype.isCollection = true ∧ item.serialno = id

/--
The levels that are marked and the one that is not: the items are those of
the admitted binds in the start and in the marked collections.
-/
structure WalkInvariant (tables : ListedTables)
    (grantdeny : Option (Bind → Option Char)) (start : StartCollection)
    (done level : List DavReposResource) : Prop where
  located : ∀ item ∈ done ++ level, ∃ chain bind,
    Located tables grantdeny start item chain bind
  once : ((done ++ level).map DavReposResource.bindId).Nodup
  fetched : ∀ bind ∈ tables.binds.rows, Kept grantdeny bind →
    IsOpened start done bind.collectionId →
      ∃ item ∈ done ++ level, item.bindId = bind.id
  opened : ∀ item ∈ done ++ level, IsOpened start done item.parentId

theorem listedCollections_start :
    listedCollections [start.item] = [start.item] := by
  simp [listedCollections, StartCollection.item, start.isCollection]

theorem walkInvariant_start :
    WalkInvariant tables grantdeny start []
      (dbmsGetCollectionResource order query tables.toRepoTables grantdeny
        [start.item]) := by
  have opened : ∀ collection ∈ listedCollections [start.item], ∃ chain,
      Opened tables grantdeny start collection chain := by
    intro collection member
    rw [listedCollections_start, List.mem_singleton] at member
    rw [member]
    exact ⟨[], opened_start⟩
  constructor
  case located =>
    intro item member
    exact located_of_mem opened member
  case once => exact nodup_dbmsGetCollectionResource
  case fetched =>
    intro bind bound kept isOpened
    rcases isOpened with inStart | ⟨_, member, _⟩
    · have listed : start.item ∈ listedCollections [start.item] := by
        rw [listedCollections_start]
        exact List.mem_singleton_self _
      exact (exists_item_iff bound listed inStart).mpr kept
    · cases member
  case opened =>
    intro item member
    rcases mem_dbmsGetCollectionResource.mp member with
      ⟨bind, _, resource, _, inside, _, _, rfl⟩
    rw [listedCollections_start, List.map_singleton, List.mem_singleton]
      at inside
    exact Or.inl inside

/-- The collections asked for after a level is marked. -/
theorem mem_listedCollections_marked
    {entries : List Entry} :
    item ∈ listedCollections (entries.map Entry.toItem) ↔
      ∃ other, (other, none) ∈ entries ∧
        other.resourcetype.isCollection = true ∧
        item = { other with hasBind := false } := by
  unfold listedCollections
  rw [List.mem_filter, List.mem_map]
  constructor
  · rintro ⟨⟨⟨other, pointer⟩, member, rfl⟩, chosen⟩
    cases pointer with
    | none => exact ⟨other, member, by simpa [Entry.toItem] using chosen, rfl⟩
    | some pointer => simp [Entry.toItem] at chosen
  · rintro ⟨other, member, isCollection, rfl⟩
    exact ⟨⟨_, member, rfl⟩, by simpa using isCollection⟩

/-- The hash has the start and every resource of the marked levels. -/
def Retrieved (start : StartCollection) (done : List DavReposResource)
    (retrRs : List (Id × Pointer)) : Prop :=
  ∀ id, retrRs.lookup id = none ↔
    id ≠ start.serialno ∧ ∀ item ∈ done, item.serialno ≠ id

/-- The next level: members of the collections that were met just now. -/
theorem WalkInvariant.next
    (walk : WalkInvariant tables grantdeny start done level)
    {retrRs : List (Id × Pointer)} {index : Nat}
    (retrieved : Retrieved start done retrRs) :
    WalkInvariant tables grantdeny start (done ++ level)
      (dbmsGetCollectionResource order query tables.toRepoTables grantdeny
        ((LastSeen.mark DavReposResource.serialno Pointer.item retrRs index
          level).1.map Entry.toItem)) := by
  have new_of_listed : ∀ collection ∈ listedCollections
      ((LastSeen.mark DavReposResource.serialno Pointer.item retrRs index
        level).1.map Entry.toItem),
      collection ∈ level ∧ collection.resourcetype.isCollection = true ∧
        ¬ IsOpened start done collection.serialno := by
    intro collection member
    rcases mem_listedCollections_marked.mp member with
      ⟨other, marked, isCollection, rfl⟩
    rcases LastSeen.new_of_mem_mark marked with ⟨inLevel, absent⟩
    rcases walk.located other (List.mem_append_right _ inLevel) with
      ⟨chain, bind, located⟩
    have unchanged : { other with hasBind := false } = other := by
      rw [← located.fresh]
    rw [unchanged]
    refine ⟨inLevel, isCollection, ?_⟩
    rcases (retrieved _).mp absent with ⟨notStart, unmet⟩
    rintro (isStart | ⟨met, metDone, _, same⟩)
    · exact notStart isStart
    · exact unmet met metDone same
  have openedBy : ∀ collection ∈ listedCollections
      ((LastSeen.mark DavReposResource.serialno Pointer.item retrRs index
        level).1.map Entry.toItem), ∃ chain,
      Opened tables grantdeny start collection chain := by
    intro collection member
    rcases new_of_listed collection member with ⟨inLevel, isCollection, _⟩
    rcases walk.located collection (List.mem_append_right _ inLevel) with
      ⟨chain, bind, located⟩
    exact ⟨chain ++ [bind], located.opened isCollection⟩
  have parent_new : ∀ item ∈ dbmsGetCollectionResource order query
      tables.toRepoTables grantdeny
        ((LastSeen.mark DavReposResource.serialno Pointer.item retrRs index
          level).1.map Entry.toItem),
      IsOpened start (done ++ level) item.parentId ∧
        ¬ IsOpened start done item.parentId := by
    intro item member
    rcases mem_dbmsGetCollectionResource.mp member with
      ⟨bind, _, resource, _, inside, _, _, rfl⟩
    rcases List.mem_map.mp inside with ⟨parent, listed, same⟩
    rcases new_of_listed parent listed with ⟨inLevel, isCollection, isNew⟩
    show IsOpened start (done ++ level) bind.collectionId ∧
      ¬ IsOpened start done bind.collectionId
    rw [← same]
    exact ⟨Or.inr ⟨parent, List.mem_append_right _ inLevel, isCollection, rfl⟩,
      isNew⟩
  constructor
  case located =>
    intro item member
    rcases List.mem_append.mp member with old | new
    · exact walk.located item old
    · exact located_of_mem openedBy new
  case once =>
    rw [List.map_append, List.nodup_append]
    refine ⟨walk.once, nodup_dbmsGetCollectionResource, ?_⟩
    intro id oldId other newId same
    rcases List.mem_map.mp oldId with ⟨old, oldMember, rfl⟩
    rcases List.mem_map.mp newId with ⟨new, newMember, rfl⟩
    rcases walk.located old oldMember with ⟨_, _, oldLocated⟩
    rcases located_of_mem openedBy newMember with ⟨_, _, newLocated⟩
    have parents := oldLocated.parentId_eq newLocated same
    apply (parent_new new newMember).2
    rw [← parents]
    exact walk.opened old oldMember
  case fetched =>
    intro bind bound kept isOpened
    by_cases before : IsOpened start done bind.collectionId
    · rcases walk.fetched bind bound kept before with ⟨item, member, same⟩
      exact ⟨item, List.mem_append_left _ member, same⟩
    · -- The collection is met in this level, for the first time.
      have inLevel : ∃ item ∈ level,
          item.resourcetype.isCollection = true ∧
            item.serialno = bind.collectionId := by
        rcases isOpened with isStart | ⟨item, member, isCollection, same⟩
        · exact absurd (Or.inl isStart) before
        · rcases List.mem_append.mp member with old | new
          · exact absurd (Or.inr ⟨item, old, isCollection, same⟩) before
          · exact ⟨item, new, isCollection, same⟩
      rcases inLevel with ⟨item, member, isCollection, same⟩
      rcases walk.located item (List.mem_append_right _ member) with
        ⟨_, _, located⟩
      have alike : ∀ other ∈ done ++ level,
          other.serialno = bind.collectionId →
            other.resourcetype.isCollection = true := by
        intro other otherMember otherSame
        rcases walk.located other otherMember with ⟨_, _, otherLocated⟩
        rw [otherLocated.resourcetype_eq located (otherSame.trans same.symm)]
        exact isCollection
      have absent : retrRs.lookup bind.collectionId = none := by
        rw [retrieved]
        constructor
        · exact fun isStart => before (Or.inl isStart)
        · intro other otherMember otherSame
          exact before (Or.inr ⟨other, otherMember,
            alike other (List.mem_append_left _ otherMember) otherSame,
            otherSame⟩)
      have isNew : ∃ other, (other, none) ∈
          (LastSeen.mark DavReposResource.serialno Pointer.item retrRs index
            level).1 ∧ other.serialno = bind.collectionId :=
        LastSeen.exists_new ⟨item, member, same⟩ absent
      rcases isNew with ⟨other, marked, otherSame⟩
      have otherMember := (LastSeen.new_of_mem_mark marked).1
      have listed := mem_listedCollections_marked.mpr
        ⟨other, marked,
          alike other (List.mem_append_right _ otherMember) otherSame, rfl⟩
      rcases (exists_item_iff bound listed otherSame.symm).mpr kept with
        ⟨next, nextMember, nextSame⟩
      exact ⟨next, List.mem_append_right _ nextMember, nextSame⟩
  case opened =>
    intro item member
    rcases List.mem_append.mp member with old | new
    · rcases walk.opened item old with isStart | ⟨other, otherDone, rest⟩
      · exact Or.inl isStart
      · exact Or.inr ⟨other, List.mem_append_left _ otherDone, rest⟩
    · exact (parent_new item new).1

/-! ## The loop -/

/-- The entries of a pass are its items. -/
theorem map_fst_marked
    {entries : List Entry} {retrRs : List (Id × Pointer)} {startId : Id}
    (marked : LastSeen.mark DavReposResource.serialno Pointer.item
      [(startId, .start)] 0 done = (entries, retrRs)) :
    entries.map Prod.fst = done := by
  have mapped : (LastSeen.mark DavReposResource.serialno Pointer.item
      [(startId, .start)] 0 done).1.map Prod.fst = done :=
    LastSeen.map_fst_mark
  rwa [marked] at mapped

/-- The invariant of the loop. -/
structure LoopInvariant (tables : ListedTables)
    (grantdeny : Option (Bind → Option Char)) (start : StartCollection)
    (done : List DavReposResource) (state : ListingState) : Prop where
  marked : LastSeen.mark DavReposResource.serialno Pointer.item
    [(start.serialno, .start)] 0 done = (state.linkHead, state.retrRs)
  walk : WalkInvariant tables grantdeny start done state.nextLevelChildren
  counted : done.length + state.nextLevelChildren.length ≤ state.totalItems

theorem loopInvariant_start :
    LoopInvariant tables grantdeny start []
      (listingStart order tables.toRepoTables grantdeny start.item) := by
  constructor
  case marked => rfl
  case walk => exact walkInvariant_start
  case counted =>
    rw [List.length_nil, Nat.zero_add]
    exact length_dbmsGetCollectionResource_le

theorem LoopInvariant.retrieved
    {state : ListingState}
    (invariant : LoopInvariant tables grantdeny start done state) :
    Retrieved start done state.retrRs := by
  intro id
  have hash : state.retrRs = (LastSeen.mark DavReposResource.serialno
      Pointer.item [(start.serialno, .start)] 0 done).2 := by
    rw [invariant.marked]
  rw [hash, LastSeen.lookup_mark_eq_none, and_comm]
  apply and_congr_left
  intro _
  by_cases same : id = start.serialno
  · simp [same]
  · have other : (id == start.serialno) = false := beq_eq_false_iff_ne.mpr same
    simp [List.lookup_cons, other, same]

/-- The state after one more level with depth infinity. -/
def nextState (order : Sql.RowOrder MemberRow) (tables : RepoTables)
    (grantdeny : Option (Bind → Option Char)) (state : ListingState) :
    ListingState :=
  let marked := LastSeen.mark DavReposResource.serialno Pointer.item
    state.retrRs state.linkHead.length state.nextLevelChildren
  let nextLevelChildren := dbmsGetCollectionResource order state.queries
    tables grantdeny (marked.1.map Entry.toItem)
  { queries := state.queries + 1
    linkHead := state.linkHead ++ marked.1
    nextLevelChildren := nextLevelChildren
    retrRs := marked.2
    totalItems :=
      if nextLevelChildren = [] then state.totalItems
      else state.totalItems + dbmsNumItems order state.queries tables
        (marked.1.map Entry.toItem) }

theorem listLevel_infinity (state : ListingState) :
    listLevel order tables.toRepoTables grantdeny .infinity state =
      if state.nextLevelChildren = [] then
        .inl ⟨state.linkHead, some state.totalItems⟩
      else .inr (nextState order tables.toRepoTables grantdeny state) :=
  rfl

theorem LoopInvariant.next
    {state : ListingState}
    (invariant : LoopInvariant tables grantdeny start done state) :
    LoopInvariant tables grantdeny start (done ++ state.nextLevelChildren)
      (nextState order tables.toRepoTables grantdeny state) := by
  have length : done.length = state.linkHead.length := by
    rw [← map_fst_marked invariant.marked, List.length_map]
  constructor
  case marked =>
    rw [LastSeen.mark_append, invariant.marked, Nat.zero_add, length]
    rfl
  case walk => exact invariant.walk.next invariant.retrieved
  case counted =>
    have counted := invariant.counted
    rw [List.length_append]
    show _ + (dbmsGetCollectionResource order state.queries
      tables.toRepoTables grantdeny _).length ≤ if _ then _ else _
    split
    next empty =>
        rw [empty, List.length_nil]
        exact counted
    next _ =>
        exact Nat.add_le_add counted length_dbmsGetCollectionResource_le

/-- The resources that are not in the hash, and whether a level is left. -/
def remaining (tables : ListedTables) (state : ListingState) : Nat :=
  2 * (tables.resources.countP fun resource =>
      (state.retrRs.lookup resource.id).isNone) +
    if state.nextLevelChildren = [] then 0 else 1

theorem dbmsGetCollectionResource_eq_nil
    {repo : RepoTables}
    (noneListed : listedCollections items = []) :
    dbmsGetCollectionResource order query repo grantdeny items = [] := by
  rw [List.eq_nil_iff_forall_not_mem]
  intro item member
  rcases mem_dbmsGetCollectionResource.mp member with
    ⟨_, _, _, _, inside, _⟩
  rw [noneListed] at inside
  cases inside

/-- Each level meets a new resource, or is the last one. -/
theorem LoopInvariant.remaining_lt
    {state : ListingState}
    (invariant : LoopInvariant tables grantdeny start done state)
    (nonempty : state.nextLevelChildren ≠ []) :
    remaining tables (nextState order tables.toRepoTables grantdeny state) <
      remaining tables state := by
  let marked := LastSeen.mark DavReposResource.serialno Pointer.item
    state.retrRs state.linkHead.length state.nextLevelChildren
  have fewer : ∀ resource ∈ tables.resources,
      (marked.2.lookup resource.id).isNone = true →
        (state.retrRs.lookup resource.id).isNone = true := by
    intro resource _ absent
    rw [Option.isNone_iff_eq_none] at absent ⊢
    exact (LastSeen.lookup_mark_eq_none.mp absent).2
  have here : remaining tables state =
      2 * (tables.resources.countP fun resource =>
        (state.retrRs.lookup resource.id).isNone) + 1 := by
    rw [remaining, if_neg nonempty]
  rw [here]
  by_cases new : ∃ item, (item, none) ∈ marked.1
  · rcases new with ⟨item, isNew⟩
    rcases LastSeen.new_of_mem_mark isNew with ⟨inLevel, absent⟩
    rcases invariant.walk.located item (List.mem_append_right _ inLevel) with
      ⟨_, _, located⟩
    rcases located.resource with ⟨resource, member, same, _⟩
    have id : resource.id = item.serialno := same.trans located.serialno.symm
    have counted : (state.retrRs.lookup resource.id).isNone = true := by
      rw [id, absent]
      rfl
    have lost : (marked.2.lookup resource.id).isNone = false := by
      rw [← Bool.not_eq_true, Option.isNone_iff_eq_none,
        LastSeen.lookup_mark_eq_none]
      rintro ⟨unmet, _⟩
      exact unmet item inLevel id.symm
    have less := Loop.countP_lt_countP fewer member counted lost
    have parts : remaining tables
        (nextState order tables.toRepoTables grantdeny state) ≤
          2 * (tables.resources.countP fun resource =>
            (marked.2.lookup resource.id).isNone) + 1 := by
      apply Nat.add_le_add_left
      split
      · exact Nat.zero_le _
      · exact Nat.le_refl _
    omega
  · have noneListed :
        listedCollections (marked.1.map Entry.toItem) = [] := by
      rw [List.eq_nil_iff_forall_not_mem]
      intro item member
      rcases mem_listedCollections_marked.mp member with ⟨other, isNew, _⟩
      exact new ⟨other, isNew⟩
    have last : (nextState order tables.toRepoTables grantdeny
        state).nextLevelChildren = [] :=
      dbmsGetCollectionResource_eq_nil noneListed
    have le := List.countP_mono_left fewer
    rw [remaining, if_pos last]
    show 2 * tables.resources.countP (fun resource =>
      (marked.2.lookup resource.id).isNone) + 0 < _
    omega

/-! ## The list -/

/-- When no level is left, every bind to be listed has its item. -/
theorem WalkInvariant.listsExactly
    (walk : WalkInvariant tables grantdeny start done [])
    {entries : List Entry}
    (items : entries.map Prod.fst = done) :
    ListsExactly tables.toRepoTables grantdeny start.serialno entries := by
  have all : done ++ [] = done := List.append_nil done
  have fetched : ∀ bind ∈ tables.binds.rows, Kept grantdeny bind →
      IsOpened start done bind.collectionId →
        ∃ item ∈ done, item.bindId = bind.id := by
    have whole := walk.fetched
    rwa [all] at whole
  have located : ∀ item ∈ done, ∃ chain bind,
      Located tables grantdeny start item chain bind := by
    have whole := walk.located
    rwa [all] at whole
  have isOpened_of_reaches : ∀ id,
      (admittedGraph tables.toRepoTables grantdeny).Reaches start.serialno id →
        IsOpened start done id := by
    intro id reaches
    apply reaches.mem_of_closed
    · exact Or.inl rfl
    · intro bind arrow isOpened
      rcases arrow with ⟨bound, kept, resource, present, same, isCollection⟩
      rcases fetched bind bound kept isOpened with ⟨item, member, itemBind⟩
      rcases located item member with ⟨_, other, found⟩
      have binds : other = bind :=
        List.inj_on_of_nodup_map tables.binds.pkey found.bound bound
          (found.bindId.symm.trans itemBind)
      rcases found.resource with ⟨second, secondPresent, secondId, ofType⟩
      have resources : second = resource := by
        apply List.inj_on_of_nodup_map tables.resourcesPkey secondPresent
          present
        rw [secondId, same, binds]
      refine Or.inr ⟨item, member, ?_, ?_⟩
      · rw [← ofType, resources]
        exact isCollection
      · rw [found.serialno, binds]
        rfl
  constructor
  case once =>
    have ids : (entries.map fun entry => entry.1.bindId) =
        done.map DavReposResource.bindId := by
      rw [← items, List.map_map]
      rfl
    have once := walk.once
    rw [all] at once
    rw [ids]
    exact once
  case complete =>
    intro bind listed
    rcases fetched bind listed.bound listed.kept
      (isOpened_of_reaches _ listed.reached) with ⟨item, member, same⟩
    rw [← items] at member
    rcases List.mem_map.mp member with ⟨entry, entryMember, rfl⟩
    exact ⟨entry, entryMember, same⟩
  case sound =>
    intro entry member
    have inDone : entry.1 ∈ done := by
      rw [← items]
      exact List.mem_map.mpr ⟨entry, member, rfl⟩
    rcases located entry.1 inDone with ⟨chain, bind, found⟩
    exact ⟨bind, ⟨found.bound, found.kept, chain, found.trail⟩, found.bindId,
      found.serialno, found.parentId⟩

theorem tokens_childUri
    {uri name : Text}
    (segment : Segments.IsSegment '/' name) :
    Segments.tokens '/' (childUri uri name) =
      Segments.tokens '/' uri ++ [name] := by
  unfold childUri
  split
  next root =>
      rw [root, Segments.tokens_sep_cons, Segments.tokens_segment segment,
        Segments.tokens_sep_cons]
      rfl
  next _ =>
      rw [Segments.tokens_append_sep, Segments.tokens_segment segment]

theorem tokens_foldl_childUri
    {uri : Text} {names : List Text}
    (segments : ∀ name ∈ names, Segments.IsSegment '/' name) :
    Segments.tokens '/' (names.foldl childUri uri) =
      Segments.tokens '/' uri ++ names := by
  induction names generalizing uri with
  | nil => simp
  | cons name names induction =>
      simp only [List.mem_cons, forall_eq_or_imp] at segments
      rw [List.foldl_cons, induction segments.2, tokens_childUri segments.1,
        List.append_assoc]
      rfl

/-- The names in the URI of an item lead to its resource. -/
theorem Located.resolves
    (located : Located tables grantdeny start item chain bind) :
    Resolves tables.toRepoTables start item := by
  have trail : (bindGraph tables.binds.rows).Trail start.serialno
      (chain ++ [bind]) bind.resourceId :=
    (Multigraph.trail_restrict.mp located.trail).1.append
      ⟨located.bound, rfl, rfl⟩
  refine ⟨(chain ++ [bind]).map Bind.name, _, located.uri, rfl, ?_, ?_⟩
  · rw [located.serialno]
    exact leads_of_trail tables.binds trail
  · intro segments
    exact tokens_foldl_childUri segments

section Marks

variable {entries : List Entry} {retrRs : List (Id × Pointer)}
  {startId : Id}

/-- The pointer of an entry, from the items before it. -/
theorem entry_pointer
    (marked : LastSeen.mark DavReposResource.serialno Pointer.item
      [(startId, .start)] 0 done = (entries, retrRs))
    {index : Nat} {entry : Entry}
    (present : entries[index]? = some entry) :
    PointsBack entries index entry ∨
      (∀ earlier other, earlier < index → entries[earlier]? = some other →
        other.1.serialno ≠ entry.1.serialno) ∧
      entry.2 = [(startId, Pointer.start)].lookup entry.1.serialno := by
  have items := map_fst_marked marked
  have before : ∀ earlier, earlier < index → ∀ other,
      entries[earlier]? = some other →
        other.1 ∈ done.take index := by
    intro earlier less other found
    have placed : (done.take index)[earlier]? = some other.1 := by
      rw [List.getElem?_take_of_lt less, ← items, List.getElem?_map, found]
      rfl
    exact List.mem_of_getElem? placed
  have inMark : (LastSeen.mark DavReposResource.serialno Pointer.item
      [(startId, .start)] 0 done).1[index]? = some entry := by
    rw [marked]
    exact present
  rcases (LastSeen.isLast_of_getElem? inMark).2 with
    ⟨earlier, item, later, split, same, _, pointer⟩ | ⟨unlike, pointer⟩
  · left
    have less : earlier.length < index := by
      have length := congrArg List.length split
      rw [List.length_take, List.length_append, List.length_cons] at length
      omega
    have placed : (entries.map Prod.fst)[earlier.length]? = some item := by
      rw [items, ← List.getElem?_take_of_lt less, split,
        List.getElem?_append_right (Nat.le_refl _), Nat.sub_self,
        List.getElem?_cons_zero]
    rw [List.getElem?_map, Option.map_eq_some_iff] at placed
    rcases placed with ⟨other, found, rfl⟩
    rw [Nat.zero_add] at pointer
    exact ⟨earlier.length, less, pointer, other, found, same⟩
  · right
    refine ⟨?_, pointer⟩
    intro earlier other less found
    exact unlike other.1 (before earlier less other found)

theorem firstPointsToStart
    (marked : LastSeen.mark DavReposResource.serialno Pointer.item
      [(startId, .start)] 0 done = (entries, retrRs)) :
    FirstPointsToStart startId entries := by
  intro index entry present same
  rcases entry_pointer marked present with back | ⟨unlike, pointer⟩
  · exact Or.inr back
  · rw [same, List.lookup_cons_self] at pointer
    rw [same] at unlike
    exact Or.inl ⟨pointer, unlike⟩

theorem firstIsUnmarked
    (marked : LastSeen.mark DavReposResource.serialno Pointer.item
      [(startId, .start)] 0 done = (entries, retrRs)) :
    FirstIsUnmarked startId entries := by
  intro id other listed
  have notStart : [(startId, Pointer.start)].lookup id = none := by
    have different : (id == startId) = false := beq_eq_false_iff_ne.mpr other
    simp [List.lookup_cons, different]
  have occurs : ∃ index : Nat, ∃ entry, entries[index]? = some entry ∧
      entry.1.serialno = id := by
    rcases listed with ⟨entry, member, same⟩
    rcases List.mem_iff_getElem?.mp member with ⟨index, found⟩
    exact ⟨index, entry, found, same⟩
  -- The first entry of the resource is the one that finds no pointer.
  classical
  let first := Nat.find occurs
  rcases Nat.find_spec occurs with ⟨entry, found, same⟩
  have earliest : ∀ (index : Nat) (other : Entry),
      entries[index]? = some other → other.1.serialno = id →
        first ≤ index := by
    intro index other present otherSame
    apply Nat.find_min' occurs
    exact ⟨other, present, otherSame⟩
  refine ⟨first, entry, found, same, ?_, ?_⟩
  · rcases entry_pointer marked found with
      ⟨earlier, less, _, other, present, otherSame⟩ | ⟨_, pointer⟩
    · have le := earliest earlier other present (otherSame.trans same)
      omega
    · rw [same, notStart] at pointer
      exact pointer
  · intro index other present otherSame different
    have le := earliest index other present otherSame
    have less : first < index := by omega
    refine ⟨less, ?_⟩
    rcases entry_pointer marked present with back | ⟨unlike, _⟩
    · exact back
    · exact absurd (same.trans otherSame.symm) (unlike first entry less found)

end Marks

/-! ## The listing -/

/-- The list for depth infinity, and the number of its items. -/
structure ListsGraph (tables : RepoTables)
    (grantdeny : Option (Bind → Option Char)) (start : StartCollection)
    (children : Children) : Prop where
  binds : ListsExactly tables grantdeny start.serialno children.linkHead
  marks : FirstIsUnmarked start.serialno children.linkHead
  startMarks : FirstPointsToStart start.serialno children.linkHead
  uris : ∀ entry ∈ children.linkHead, Resolves tables start entry.1
  counted : ∃ count, children.numItems = some count ∧
    children.linkHead.length ≤ count

theorem LoopInvariant.listsGraph
    {state : ListingState}
    (invariant : LoopInvariant tables grantdeny start done state)
    (last : state.nextLevelChildren = []) :
    ListsGraph tables.toRepoTables grantdeny start
      ⟨state.linkHead, some state.totalItems⟩ := by
  have items := map_fst_marked invariant.marked
  have walk := invariant.walk
  rw [last] at walk
  constructor
  case binds => exact walk.listsExactly items
  case marks => exact firstIsUnmarked invariant.marked
  case startMarks => exact firstPointsToStart invariant.marked
  case uris =>
    intro entry member
    have inDone : entry.1 ∈ done ++ [] := by
      rw [List.append_nil, ← items]
      exact List.mem_map.mpr ⟨entry, member, rfl⟩
    rcases walk.located entry.1 inDone with ⟨_, _, located⟩
    exact located.resolves
  case counted =>
    refine ⟨state.totalItems, rfl, ?_⟩
    have counted := invariant.counted
    rw [last, ← items, List.length_map] at counted
    exact counted

theorem remaining_le (state : ListingState) :
    remaining tables state ≤ 2 * tables.resources.length + 1 := by
  have le := List.countP_le_length (l := tables.resources)
    (p := fun resource => (state.retrRs.lookup resource.id).isNone)
  unfold remaining
  split
  next _ => omega
  next _ => omega

/-- With depth infinity the listing ends, whatever the bind graph. -/
theorem exists_children
    (order : Sql.RowOrder MemberRow) (tables : ListedTables)
    (grantdeny : Option (Bind → Option Char)) (start : StartCollection) :
    ∃ children,
      (∀ fuel, 2 * tables.resources.length + 1 < fuel →
        sabridgeGetCollectionChildren fuel order tables.toRepoTables
          grantdeny start.item .infinity = some children) ∧
      ∃ done state, LoopInvariant tables grantdeny start done state ∧
        state.nextLevelChildren = [] ∧
        children = ⟨state.linkHead, some state.totalItems⟩ := by
  let Invariant : ListingState → Prop := fun state =>
    ∃ done, LoopInvariant tables grantdeny start done state
  have leaves : ∀ state children, Invariant state →
      listLevel order tables.toRepoTables grantdeny .infinity state =
        .inl children →
      ∃ done state, LoopInvariant tables grantdeny start done state ∧
        state.nextLevelChildren = [] ∧
        children = ⟨state.linkHead, some state.totalItems⟩ := by
    rintro state children ⟨done, invariant⟩ outcome
    rw [listLevel_infinity] at outcome
    split at outcome
    next last =>
        exact ⟨done, state, invariant, last, (Sum.inl.inj outcome).symm⟩
    next _ => cases outcome
  have continues : ∀ state next, Invariant state →
      listLevel order tables.toRepoTables grantdeny .infinity state =
        .inr next →
      Invariant next ∧ remaining tables next < remaining tables state := by
    rintro state next ⟨done, invariant⟩ outcome
    rw [listLevel_infinity] at outcome
    split at outcome
    next _ => cases outcome
    next more =>
        rw [← Sum.inr.inj outcome]
        exact ⟨⟨_, invariant.next⟩, invariant.remaining_lt more⟩
  have base : Invariant
      (listingStart order tables.toRepoTables grantdeny start.item) :=
    ⟨[], loopInvariant_start⟩
  have runs := Loop.run_spec leaves continues
    (Nat.lt_succ_of_le (remaining_le _)) base
  rcases runs with ⟨children, stopped, invariant⟩
  exact ⟨children, fun fuel enough => Loop.run_mono stopped enough, invariant⟩

/--
With depth infinity the listing ends, whatever the bind graph, and its list
is that of the graph.
-/
theorem getCollectionChildren_listsGraph
    (order : Sql.RowOrder MemberRow) (tables : ListedTables)
    (acl : AclTables) (principal : DavPrincipal) (aclPriv : Option Text)
    (start : StartCollection) :
    ∃ children,
      (∀ fuel, 2 * tables.resources.length + 1 < fuel →
        sabridgeGetCollectionChildren fuel order tables.toRepoTables
          (privFilter acl principal aclPriv) start.item .infinity =
            some children) ∧
      ListsGraph tables.toRepoTables (privFilter acl principal aclPriv) start
        children := by
  rcases exists_children order tables (privFilter acl principal aclPriv)
    start with ⟨children, stopped, done, state, invariant, last, rfl⟩
  exact ⟨_, stopped, invariant.listsGraph last⟩

end Walk

/-! ## Pointers and names that differ -/

/-- The tokens of the URI after those of the start lead to the resource. -/
def ResolvesByTokens (tables : RepoTables) (start : StartCollection)
    (item : DavReposResource) : Prop :=
  ∃ uri names, item.uri = some uri ∧
    Segments.tokens '/' uri = Segments.tokens '/' start.uri ++ names ∧
    Leads tables.binds.rows start.serialno names item.serialno

/-- The root collection. -/
def rootStart : StartCollection where
  serialno := rootCollectionId
  resourcetype := .collection
  uri := ['/']
  parentId := 0
  bindId := 0
  isCollection := rfl

/-- The collections 2 and 7 with some binds between them. -/
def twoCollections (rows : List Bind)
    (pkey : (rows.map Bind.id).Nodup)
    (collectionIdKey : (rows.map Bind.key).Nodup)
    (positive : ∀ bind ∈ rows, 0 < bind.id ∧ 0 < bind.resourceId)
    (between : ∀ bind ∈ rows,
      bind.collectionId ∈ [2, 7] ∧ bind.resourceId ∈ [2, 7]) :
    ListedTables where
  resources := [⟨2, .collection, 1, 1⟩, ⟨7, .collection, 1, 1⟩]
  binds := ⟨rows, pkey, collectionIdKey, positive⟩
  versions := []
  vhrs := []
  vcrs := []
  resourcesPkey := by decide
  vhrsResource := List.nodup_nil
  fkBindCollection := fun bind member => (between bind member).1
  fkBindResource := fun bind member => (between bind member).2
  fkVersionVhr := noVersions_fkVersionVhr
  fkVhrRootVersion := noVersions_fkVhrRootVersion
  versionType := nofun
  versionsResource := List.nodup_nil
  vcrsChecked := List.nodup_nil

/-- A member of the root with two binds back to the root. -/
def twoWaysBack : ListedTables :=
  twoCollections
    [⟨1, "a".toList, 2, 7, none⟩, ⟨2, "x".toList, 7, 2, none⟩,
      ⟨3, "y".toList, 7, 2, none⟩]
    (by decide) (by decide) (by decide) (by decide)

/-- A bind whose name is no segment of a URI. -/
def slashedName : ListedTables :=
  twoCollections [⟨1, "a/b".toList, 2, 7, none⟩]
    (by decide) (by decide) (by decide) (by decide)

/-- A run with enough fuel gives what any run that ends gives. -/
theorem children_unique
    {fuel other : Nat} {order : Sql.RowOrder MemberRow} {tables : RepoTables}
    {grantdeny : Option (Bind → Option Char)} {dbR : DavReposResource}
    {children otherChildren : Children}
    (stopped : sabridgeGetCollectionChildren fuel order tables grantdeny dbR
      .infinity = some children)
    (otherStopped : sabridgeGetCollectionChildren other order tables grantdeny
      dbR .infinity = some otherChildren) :
    children = otherChildren := by
  have first := Loop.run_mono stopped (Nat.le_max_left fuel other)
  have second := Loop.run_mono otherStopped (Nat.le_max_right fuel other)
  rw [first] at second
  exact Option.some.inj second

/--
The second entry of the start points to the first one, and a name with a
slash is two tokens that do not lead to the resource.
-/
theorem not_startIsMarked_not_resolvesByTokens :
    (¬ ∀ (order : Sql.RowOrder MemberRow) (tables : ListedTables)
        (acl : AclTables) (principal : DavPrincipal) (aclPriv : Option Text)
        (start : StartCollection), ∃ fuel children,
      sabridgeGetCollectionChildren fuel order tables.toRepoTables
        (privFilter acl principal aclPriv) start.item .infinity =
          some children ∧
      StartIsMarked start.serialno children.linkHead) ∧
    ¬ ∀ (order : Sql.RowOrder MemberRow) (tables : ListedTables)
        (acl : AclTables) (principal : DavPrincipal) (aclPriv : Option Text)
        (start : StartCollection), ∃ fuel children,
      sabridgeGetCollectionChildren fuel order tables.toRepoTables
        (privFilter acl principal aclPriv) start.item .infinity =
          some children ∧
      ∀ entry ∈ children.linkHead,
        ResolvesByTokens tables.toRepoTables start entry.1 := by
  constructor
  · intro always
    rcases always (Sql.RowOrder.stored _) twoWaysBack noEntries .unauthenticated
      none rootStart with ⟨fuel, children, stopped, marked⟩
    have list : sabridgeGetCollectionChildren 4 (Sql.RowOrder.stored _)
        twoWaysBack.toRepoTables (privFilter noEntries .unauthenticated none)
          rootStart.item .infinity =
        some ⟨[(⟨7, .collection, some "/a".toList, 2, 1, false⟩, none),
          (⟨2, .collection, some "/a/x".toList, 7, 2, false⟩, some .start),
          (⟨2, .collection, some "/a/y".toList, 7, 3, false⟩,
            some (.item 1))], some 3⟩ := by
      decide
    rw [children_unique stopped list] at marked
    have second := marked
      (⟨2, .collection, some "/a/y".toList, 7, 3, false⟩, some (.item 1))
      (by decide) rfl
    cases second
  · intro always
    rcases always (Sql.RowOrder.stored _) slashedName noEntries .unauthenticated
      none rootStart with ⟨fuel, children, stopped, resolves⟩
    have list : sabridgeGetCollectionChildren 3 (Sql.RowOrder.stored _)
        slashedName.toRepoTables (privFilter noEntries .unauthenticated none)
          rootStart.item .infinity =
        some ⟨[(⟨7, .collection, some "/a/b".toList, 2, 1, false⟩, none)],
          some 1⟩ := by
      decide
    rw [children_unique stopped list] at resolves
    rcases resolves _ (List.mem_singleton_self _) with
      ⟨uri, names, same, tokens, leads⟩
    cases same
    have spelled : names = ["a".toList, "b".toList] := tokens.symm
    rw [spelled] at leads
    have lost : (walk slashedName.binds.rows 2
        ["a".toList, "b".toList]).length = 0 := by
      decide
    have resolved := leads.1
    cases lost.symm.trans resolved

end Limestone.CollectionChildren
