import Limestone.CollectionChildren

/-!
# The order of a listing

Whoever goes through the list of `sabridge_get_collection_children` finds the
collection of every item before the item: it is the collection that was
listed, or an earlier item without a pointer, and the URI of the item is made
of its URI.  If the names of the binds are segments, no URI is there twice.
-/

namespace Limestone.ListingOrder

open Library
open DbmsBind
open DbmsCollection
open CollectionChildren

/-! ## What is found before an item -/

/-- The collection of an item and its URI are met before the item. -/
def MetAs (start : StartCollection) (before : List Entry) (id : Id)
    (uri : Text) : Prop :=
  (id = start.serialno ∧ uri = start.uri) ∨
    ∃ parent : DavReposResource, (parent, none) ∈ before ∧
      parent.serialno = id ∧ parent.uri = some uri

/-- The item is that of a bind, in a collection that was met. -/
structure IsPlaced (tables : ListedTables)
    (grantdeny : Option (Bind → Option Char)) (start : StartCollection)
    (before : List Entry) (item : DavReposResource) (bind : Bind)
    (parentUri : Text) : Prop where
  bound : bind ∈ tables.binds.rows
  kept : Kept grantdeny bind
  resource : ∃ resource ∈ tables.resources, resource.id = bind.resourceId ∧
    resource.resourcetype = item.resourcetype
  bindId : item.bindId = bind.id
  serialno : item.serialno = bind.resourceId
  parentId : item.parentId = bind.collectionId
  met : MetAs start before bind.collectionId parentUri
  uri : item.uri = some (childUri parentUri bind.name)

def Placed (tables : ListedTables)
    (grantdeny : Option (Bind → Option Char)) (start : StartCollection)
    (before : List Entry) (item : DavReposResource) : Prop :=
  ∃ bind parentUri,
    IsPlaced tables grantdeny start before item bind parentUri

/-- What the pointer of an entry says about the entries before it. -/
def Points (start : StartCollection) (before : List Entry)
    (entry : Entry) : Prop :=
  match entry.2 with
  | none => entry.1.serialno ≠ start.serialno ∧
      ∀ other ∈ before, other.1.serialno ≠ entry.1.serialno
  | some .start => entry.1.serialno = start.serialno
  | some (.item index) => ∃ other, before[index]? = some other ∧
      other.1.serialno = entry.1.serialno

/-- Every entry is placed and points to what is before it. -/
structure InOrder (tables : ListedTables)
    (grantdeny : Option (Bind → Option Char)) (start : StartCollection)
    (entries : List Entry) : Prop where
  placed : ∀ before entry after, entries = before ++ entry :: after →
    Placed tables grantdeny start before entry.1
  points : ∀ before entry after, entries = before ++ entry :: after →
    Points start before entry
  once : (entries.map fun entry => entry.1.bindId).Nodup

section Order

variable {order : Sql.RowOrder MemberRow} {query : Nat}
  {tables : ListedTables} {grantdeny : Option (Bind → Option Char)}
  {start : StartCollection} {before more entries : List Entry}
  {item : DavReposResource} {id : Id} {uri : Text}

theorem MetAs.append (met : MetAs start before id uri) :
    MetAs start (before ++ more) id uri := by
  rcases met with isStart | ⟨parent, member, same⟩
  · exact Or.inl isStart
  · exact Or.inr ⟨parent, List.mem_append_left _ member, same⟩

theorem Placed.append (placed : Placed tables grantdeny start before item) :
    Placed tables grantdeny start (before ++ more) item := by
  rcases placed with ⟨bind, parentUri, isPlaced⟩
  exact ⟨bind, parentUri, { isPlaced with met := isPlaced.met.append }⟩

/-- The members of collections that were met are placed. -/
theorem placed_of_mem
    {items : List DavReposResource}
    (opened : ∀ collection ∈ listedCollections items, ∃ uri,
      collection.uri = some uri ∧
        MetAs start before collection.serialno uri)
    (member : item ∈ dbmsGetCollectionResource order query
      tables.toRepoTables grantdeny items) :
    Placed tables grantdeny start before item := by
  rcases mem_dbmsGetCollectionResource.mp member with
    ⟨bind, bound, resource, present, inside, same, kept, rfl⟩
  rcases exists_parent inside with ⟨found, foundListed, foundId, itsUri⟩
  rcases opened found foundListed with ⟨uri, hasUri, met⟩
  have parentUri_eq := itsUri.trans hasUri
  refine ⟨bind, uri, ?_⟩
  constructor
  case bound => exact bound
  case kept => exact kept
  case resource => exact ⟨resource, present, same, rfl⟩
  case bindId => rfl
  case serialno => exact same
  case parentId => rfl
  case met => exact foundId ▸ met
  case uri =>
    simp only [memberItem, parentUri_eq, childUri]
    split
    · rfl
    · rfl

/-! ## The loop -/

/-- The entries that are marked and the level that is not are placed. -/
structure PlacedInvariant (tables : ListedTables)
    (grantdeny : Option (Bind → Option Char)) (start : StartCollection)
    (state : ListingState) : Prop where
  entries : ∀ before entry after, state.linkHead = before ++ entry :: after →
    Placed tables grantdeny start before entry.1
  level : ∀ item ∈ state.nextLevelChildren,
    Placed tables grantdeny start state.linkHead item
  fresh : ∀ item ∈ state.nextLevelChildren, item.hasBind = false

theorem hasBind_of_mem
    {items : List DavReposResource}
    (member : item ∈ dbmsGetCollectionResource order query
      tables.toRepoTables grantdeny items) :
    item.hasBind = false := by
  rcases mem_dbmsGetCollectionResource.mp member with
    ⟨bind, _, resource, _, _, _, _, rfl⟩
  rfl

theorem placedInvariant_start :
    PlacedInvariant tables grantdeny start
      (listingStart order tables.toRepoTables grantdeny start.item) := by
  constructor
  case entries =>
    intro before entry after split
    cases before with
    | nil => cases split
    | cons head tail => cases split
  case level =>
    intro item member
    apply placed_of_mem ?_ member
    intro collection listed
    rw [listedCollections_start, List.mem_singleton] at listed
    rw [listed]
    exact ⟨start.uri, rfl, Or.inl ⟨rfl, rfl⟩⟩
  case fresh =>
    intro item member
    exact hasBind_of_mem member

/-- A split of two lists that are joined splits one of them. -/
theorem split_append
    {α : Type*} {first second before after : List α} {value : α}
    (split : first ++ second = before ++ value :: after) :
    (∃ rest, first = before ++ value :: rest) ∨
      ∃ rest, before = first ++ rest ∧ second = rest ++ value :: after := by
  rcases List.append_eq_append_iff.mp split with
    ⟨rest, same, later⟩ | ⟨rest, same, later⟩
  · exact Or.inr ⟨rest, same, later⟩
  · cases rest with
    | nil =>
        right
        exact ⟨[], by simpa using same.symm, by simpa using later.symm⟩
    | cons head rest =>
        rcases List.cons.inj later with ⟨rfl, -⟩
        exact Or.inl ⟨rest, same⟩

theorem PlacedInvariant.next
    {state : ListingState}
    (invariant : PlacedInvariant tables grantdeny start state) :
    PlacedInvariant tables grantdeny start
      (nextState order tables.toRepoTables grantdeny state) := by
  constructor
  case entries =>
    intro before entry after split
    rcases split_append split with ⟨rest, same⟩ | ⟨rest, rfl, same⟩
    · exact invariant.entries before entry rest same
    · have member : entry ∈ (LastSeen.mark DavReposResource.serialno
          Pointer.item state.retrRs state.linkHead.length
          state.nextLevelChildren).1 := by
        rw [same]
        exact List.mem_append_right _ List.mem_cons_self
      exact (invariant.level _ (LastSeen.mem_of_mem_mark member)).append
  case level =>
    intro item member
    apply placed_of_mem ?_ member
    intro collection listed
    rcases mem_listedCollections_marked.mp listed with
      ⟨other, marked, isCollection, rfl⟩
    have inLevel := (LastSeen.new_of_mem_mark marked).1
    rcases invariant.level other inLevel with ⟨bind, parentUri, isPlaced⟩
    exact ⟨_, isPlaced.uri, Or.inr
      ⟨other, List.mem_append_right _ marked, rfl, isPlaced.uri⟩⟩
  case fresh =>
    intro item member
    exact hasBind_of_mem member

/-- What is found before the entries, from what the loop has marked. -/
theorem points_of_marked
    {done : List DavReposResource} {retrRs : List (Id × Pointer)}
    (marked : LastSeen.mark DavReposResource.serialno Pointer.item
      [(start.serialno, .start)] 0 done = (entries, retrRs))
    {after : List Entry} {entry : Entry}
    (split : entries = before ++ entry :: after) :
    Points start before entry := by
  have present : entries[before.length]? = some entry := by simp [split]
  have earlier : ∀ index, index < before.length →
      entries[index]? = before[index]? := by
    intro index less
    rw [split, List.getElem?_append_left less]
  rcases entry_pointer marked present with
    ⟨index, less, pointer, other, found, same⟩ | ⟨unlike, pointer⟩
  · rw [earlier index less] at found
    simp only [Points, pointer]
    exact ⟨other, found, same⟩
  · have isNew : ∀ other ∈ before,
        other.1.serialno ≠ entry.1.serialno := by
      intro other member
      rcases List.mem_iff_getElem?.mp member with ⟨index, found⟩
      have less : index < before.length :=
        (List.getElem?_eq_some_iff.mp found).1
      exact unlike index other less ((earlier index less).trans found)
    by_cases isStart : entry.1.serialno = start.serialno
    · rw [isStart, List.lookup_cons_self] at pointer
      simp only [Points, pointer]
      exact isStart
    · have other : (entry.1.serialno == start.serialno) = false :=
        beq_eq_false_iff_ne.mpr isStart
      simp only [List.lookup_cons, other, List.lookup_nil] at pointer
      simp only [Points, pointer]
      exact ⟨isStart, isNew⟩

/-- The listing with depth infinity ends, and its list is in order. -/
theorem exists_inOrder
    (order : Sql.RowOrder MemberRow) (tables : ListedTables)
    (grantdeny : Option (Bind → Option Char)) (start : StartCollection) :
    ∃ children,
      (∀ fuel, 2 * tables.resources.length + 1 < fuel →
        sabridgeGetCollectionChildren fuel order tables.toRepoTables
          grantdeny start.item .infinity = some children) ∧
      ListsGraph tables.toRepoTables grantdeny start children ∧
      InOrder tables grantdeny start children.linkHead := by
  rcases exists_children order tables grantdeny start with
    ⟨children, stopped, done, state, invariant, last, rfl⟩
  have lists := invariant.listsGraph last
  refine ⟨_, stopped, lists, ?_⟩
  have leaves : ∀ state children, PlacedInvariant tables grantdeny start state →
      listLevel order tables.toRepoTables grantdeny .infinity state =
        .inl children →
      ∀ before entry after, children.linkHead = before ++ entry :: after →
        Placed tables grantdeny start before entry.1 := by
    intro state children placed outcome
    rw [listLevel_infinity] at outcome
    split at outcome
    next =>
        rw [← Sum.inl.inj outcome]
        exact placed.entries
    next => cases outcome
  have continues : ∀ state next,
      PlacedInvariant tables grantdeny start state →
      listLevel order tables.toRepoTables grantdeny .infinity state =
        .inr next →
      PlacedInvariant tables grantdeny start next := by
    intro state next placed outcome
    rw [listLevel_infinity] at outcome
    split at outcome
    next => cases outcome
    next =>
        rw [← Sum.inr.inj outcome]
        exact placed.next
  constructor
  case placed =>
    exact Loop.run_induct leaves continues placedInvariant_start
      (stopped _ (Nat.lt_succ_self _))
  case points =>
    intro before entry after split
    exact points_of_marked invariant.marked split
  case once => exact lists.binds.once

end Order

/-! ## URIs -/

/-- The names of the binds are segments. -/
def HasSegments (binds : List Bind) : Prop :=
  ∀ bind ∈ binds, Segments.IsSegment '/' bind.name

/-- A text without a slash at its end. -/
def NoTrail (uri : Text) : Prop :=
  uri.getLast? ≠ some '/'

section Uris

variable {tables : ListedTables} {grantdeny : Option (Bind → Option Char)}
  {start : StartCollection} {entries before : List Entry}
  {uri other name otherName : Text}

theorem NoTrail.ne_root (noTrail : NoTrail uri) : uri ≠ ['/'] := by
  rintro rfl
  exact noTrail rfl

theorem NoTrail.childUri_eq (noTrail : NoTrail uri) :
    childUri uri name = uri ++ '/' :: name :=
  if_neg noTrail.ne_root

theorem noTrail_append_segment (segment : Segments.IsSegment '/' name) :
    NoTrail (uri ++ '/' :: name) := by
  rcases List.eq_nil_or_concat' name with empty | ⟨init, last, rfl⟩
  · exact absurd empty segment.1
  · have isLast : (uri ++ '/' :: (init ++ [last])).getLast? = some last := by
      rw [← List.cons_append, ← List.append_assoc, List.getLast?_concat]
    rw [NoTrail, isLast]
    intro same
    exact segment.2 (by simp [Option.some.inj same])

/-- The last name of a URI and what is before it are unique. -/
theorem append_segment_inj
    (segment : Segments.IsSegment '/' name)
    (otherSegment : Segments.IsSegment '/' otherName)
    (same : uri ++ '/' :: name = other ++ '/' :: otherName) :
    uri = other ∧ name = otherName := by
  have keep : ∀ (front back : Text), '/' ∉ back →
      (front ++ '/' :: back).reverse.takeWhile (fun char => char != '/') =
        back.reverse := by
    intro front back free
    rw [List.reverse_append, List.reverse_cons, List.append_assoc,
      List.takeWhile_append_of_pos]
    · simp
    · intro char member
      rw [List.mem_reverse] at member
      simp only [bne_iff_ne]
      rintro rfl
      exact free member
  have names : name.reverse = otherName.reverse := by
    rw [← keep uri name segment.2, ← keep other otherName otherSegment.2, same]
  have sameName : name = otherName := List.reverse_injective names
  rw [sameName] at same
  exact ⟨List.append_cancel_right same, sameName⟩

/-- The URIs of the entries, which are below that of the start. -/
structure UrisDiffer (start : StartCollection) (entries : List Entry) :
    Prop where
  once : (entries.map fun entry => entry.1.uri).Nodup
  below : ∀ entry ∈ entries, ∃ rest,
    entry.1.uri = some (start.uri ++ '/' :: rest) ∧
      NoTrail (start.uri ++ '/' :: rest)

theorem UrisDiffer.met
    (differ : UrisDiffer start before)
    (noTrail : NoTrail start.uri)
    {id : Id}
    (met : MetAs start before id uri) :
    NoTrail uri ∧
      (uri = start.uri ∨ ∃ rest, uri = start.uri ++ '/' :: rest) := by
  rcases met with ⟨-, rfl⟩ | ⟨parent, member, -, hasUri⟩
  · exact ⟨noTrail, Or.inl rfl⟩
  · rcases differ.below _ member with ⟨rest, hasOther, ends⟩
    rcases Option.some.inj (hasUri.symm.trans hasOther) with rfl
    exact ⟨ends, Or.inr ⟨rest, rfl⟩⟩

/-- One URI is met as that of one collection. -/
theorem UrisDiffer.met_unique
    (differ : UrisDiffer start before)
    {id otherId : Id}
    (met : MetAs start before id uri)
    (otherMet : MetAs start before otherId uri) :
    id = otherId := by
  have notStart : ∀ parent : DavReposResource, (parent, none) ∈ before →
      parent.uri = some uri → uri ≠ start.uri := by
    intro parent member hasUri same
    rcases differ.below _ member with ⟨rest, hasOther, -⟩
    rcases Option.some.inj (hasUri.symm.trans hasOther) with rfl
    exact List.cons_ne_nil _ _ (List.append_right_eq_self.mp same)
  rcases met with ⟨rfl, isStart⟩ | ⟨parent, member, rfl, hasUri⟩
  · rcases otherMet with ⟨rfl, -⟩ | ⟨parent, member, -, hasUri⟩
    · rfl
    · exact absurd isStart (notStart parent member hasUri)
  · rcases otherMet with ⟨-, isStart⟩ | ⟨second, secondMember, rfl, secondUri⟩
    · exact absurd isStart (notStart parent member hasUri)
    · have equal : ((parent, none) : Entry) = (second, none) :=
        List.inj_on_of_nodup_map differ.once member secondMember
          (hasUri.trans secondUri.symm)
      rw [(Prod.mk.inj equal).1]

theorem InOrder.initial
    {after : List Entry}
    (inOrder : InOrder tables grantdeny start (before ++ after)) :
    InOrder tables grantdeny start before := by
  constructor
  case placed =>
    rintro first entry rest rfl
    exact inOrder.placed first entry (rest ++ after) (by simp)
  case points =>
    rintro first entry rest rfl
    exact inOrder.points first entry (rest ++ after) (by simp)
  case once =>
    have once := inOrder.once
    rw [List.map_append] at once
    exact once.of_append_left

/-- The induction is on the list from its end: parents come first. -/
theorem InOrder.urisDiffer
    (inOrder : InOrder tables grantdeny start entries)
    (segments : HasSegments tables.binds.rows)
    (noTrail : NoTrail start.uri) :
    UrisDiffer start entries := by
  induction entries using List.reverseRec with
  | nil => exact ⟨List.nodup_nil, nofun⟩
  | append_singleton before entry induction =>
      have differ := induction inOrder.initial
      rcases inOrder.placed before entry [] rfl with
        ⟨bind, parentUri, isPlaced⟩
      have segment := segments bind isPlaced.bound
      rcases differ.met noTrail isPlaced.met with ⟨parentEnds, isBelow⟩
      have hasUri : entry.1.uri = some (parentUri ++ '/' :: bind.name) :=
        isPlaced.uri.trans (congrArg some parentEnds.childUri_eq)
      constructor
      case below =>
        intro other member
        rcases List.mem_append.mp member with old | isLast
        · exact differ.below other old
        · rcases List.mem_singleton.mp isLast with rfl
          have ends : NoTrail (parentUri ++ '/' :: bind.name) :=
            noTrail_append_segment segment
          rcases isBelow with rfl | ⟨rest, rfl⟩
          · exact ⟨bind.name, hasUri, ends⟩
          · rw [List.append_assoc, List.cons_append] at hasUri ends
            exact ⟨_, hasUri, ends⟩
      case once =>
        rw [List.map_append, List.map_singleton, List.nodup_append]
        refine ⟨differ.once, List.nodup_singleton _, ?_⟩
        rintro uri listed last isLast rfl
        rcases List.mem_singleton.mp isLast with rfl
        rcases List.mem_map.mp listed with ⟨other, member, same⟩
        rcases List.append_of_mem member with ⟨first, rest, split⟩
        rcases inOrder.placed first other (rest ++ [entry])
            (by simp [split]) with ⟨otherBind, otherUri, otherPlaced⟩
        have otherMet : MetAs start before otherBind.collectionId
            otherUri := by
          rw [split]
          exact otherPlaced.met.append
        have otherEnds := (differ.met noTrail otherMet).1
        have texts : otherUri ++ '/' :: otherBind.name =
            parentUri ++ '/' :: bind.name := by
          rw [← otherEnds.childUri_eq]
          exact Option.some.inj
            (otherPlaced.uri.symm.trans (same.trans hasUri))
        rcases append_segment_inj (segments _ otherPlaced.bound) segment
          texts with ⟨rfl, names⟩
        have collections := differ.met_unique otherMet isPlaced.met
        have binds : otherBind = bind :=
          List.inj_on_of_nodup_map tables.binds.collectionIdKey
            otherPlaced.bound isPlaced.bound (Prod.ext collections names)
        have once := inOrder.once
        rw [List.map_append, List.nodup_append] at once
        apply once.2.2 other.1.bindId (List.mem_map_of_mem member)
          entry.1.bindId (List.mem_singleton_self _)
        rw [otherPlaced.bindId, isPlaced.bindId, binds]

end Uris

end Limestone.ListingOrder
