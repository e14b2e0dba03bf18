import Limestone.CopyTreeSteps

/-!
# The loop of a recursive COPY

The copy of a collection that has just been created gets a copy of every
resource that can be read below the original, and one new bind for every bind
that is listed.  The invariant of the loop keeps, beside the state, which
resource is the copy of which.
-/

namespace Limestone.CopyTree

open Library
open BindInsert (BindEntry)
open BridgeProperty (DavReposResource ResourceRow)
open CollectionChildren
open CopyMedium
open DbmsBind
open DbmsCollection (Kept)
open GetResource (LeadsTo typeOf)
open InsertResource
open ListingOrder

/-! ## A collection and its new copy -/

/-- A collection, and the resource that its members are to be copied to. -/
structure FreshCopy where
  setting : Setting
  base : ContentStore
  constraints : Constraints base
  rSrc : DavReposResource
  rDst : DavReposResource
  type : ResourceType
  srcUri : Text
  rootPath : Text
  collPath : Text
  coll : Id
  segment : Text
  isColl : type.isCollection = true
  srcType : rSrc.resourcetype = some type
  srcIsUri : rSrc.uri = some srcUri
  srcEnds : NoTrail srcUri
  srcRow : typeOf base rSrc.serialno = some type
  srcOther : rSrc.serialno ≠ rDst.serialno
  dstType : rDst.resourcetype = some .collection
  dstPresent : rDst.serialno < base.nextId
  dstUnbound : ∀ bind ∈ base.binds.rows, bind.collectionId ≠ rDst.serialno
  dstRoot : rDst.rootPath = some rootPath
  dstUri : rDst.uri = some (rootPath ++ (collPath ++ '/' :: segment))
  uncontrolled : controlsChildren rDst.avNewChildren = false
  collLeads : LeadsTo base.binds.rows collPath coll
  collPlain : Rebind.IsPlain base.toPropertyTables coll
  missing : UriLookup.bindNamed base.binds.rows coll segment = none
  isSegment : Segments.IsSegment '/' segment
  segments : HasSegments base.binds.rows

/-- The collection as the listing takes it. -/
def FreshCopy.start (copy : FreshCopy) : StartCollection where
  serialno := copy.rSrc.serialno
  resourcetype := copy.type
  uri := copy.srcUri
  parentId := 0
  bindId := copy.rSrc.bindId
  isCollection := copy.isColl

def FreshCopy.tables (copy : FreshCopy) : ListedTables :=
  listedTables copy.base copy.constraints

/-- What the request may read. -/
def FreshCopy.readable (copy : FreshCopy) : Option (Bind → Option Char) :=
  privFilter copy.setting.acl copy.setting.principal (some "read".toList)

/-- The members of a listing. -/
def FreshCopy.members (copy : FreshCopy) (entries : List Entry) :
    List Member :=
  entries.map fun entry => (memberRecord copy.base copy.rSrc entry.1, entry.2)

section Listing

variable (copy : FreshCopy)

/-- The members are listed, each behind its parent. -/
theorem FreshCopy.exists_members :
    ∃ entries,
      sabridgeGetCollectionChildren copy.setting copy.base
          (some "read".toList) .infinity copy.rSrc
          (copy.rSrc.resourcetype.getD .collection) =
        some (copy.members entries) ∧
      ListsExactly copy.tables.toRepoTables copy.readable
        copy.start.serialno entries ∧
      InOrder copy.tables copy.readable copy.start entries := by
  rcases exists_inOrder copy.setting.order copy.tables copy.readable
    copy.start with ⟨children, stopped, lists, inOrder⟩
  refine ⟨children.linkHead, ?_, lists.binds, inOrder⟩
  have enough : 2 * copy.tables.resources.length + 1 <
      2 * copy.base.resources.length + 2 := by
    have length : copy.tables.resources.length = copy.base.resources.length :=
      List.length_map _
    rw [length]
    exact Nat.lt_succ_self _
  have root : listedRoot copy.rSrc
      (copy.rSrc.resourcetype.getD .collection) = copy.start.item := by
    simp only [listedRoot, copy.srcType, copy.srcIsUri, Option.getD_some,
      StartCollection.item, FreshCopy.start]
  unfold sabridgeGetCollectionChildren
  rw [dif_pos copy.constraints, root]
  exact congrArg (Option.map _) (stopped _ enough)

end Listing

section Members

variable {copy : FreshCopy} {before : List Entry} {entry : Entry}
  {bind : Bind} {parentUri : Text}

/-- A resource that is listed is one of the tables. -/
theorem serialno_lt_nextId
    (placed : IsPlaced copy.tables copy.readable copy.start before entry.1
      bind parentUri) :
    entry.1.serialno < copy.base.nextId := by
  rw [placed.serialno]
  exact lt_nextId (copy.constraints.1 bind placed.bound).2

/-- Its type is the one of its row. -/
theorem typeOf_entry
    (placed : IsPlaced copy.tables copy.readable copy.start before entry.1
      bind parentUri) :
    typeOf copy.base entry.1.serialno = some entry.1.resourcetype := by
  rcases placed.resource with ⟨resource, listed, same, ofType⟩
  rcases List.mem_map.mp listed with ⟨row, isRow, rfl⟩
  rw [placed.serialno, ← same, ← ofType]
  exact GetResource.typeOf_of_mem isRow

end Members

/-! ## Which resource is the copy of which -/

/-- The copy of a resource, by the list of the resources that have one. -/
def copyOf (copies : List (Id × Id)) (id : Id) : Id :=
  (copies.lookup id).getD 0

section Copies

variable {copies more : List (Id × Id)} {id other copyId : Id}

theorem copyOf_cons_self : copyOf ((id, copyId) :: copies) id = copyId := by
  simp [copyOf]

theorem copyOf_cons_of_ne (differ : other ≠ id) :
    copyOf ((id, copyId) :: copies) other = copyOf copies other := by
  have unlike : (other == id) = false := beq_eq_false_iff_ne.mpr differ
  simp [copyOf, List.lookup_cons, unlike]

theorem lookup_isSome_of_mem (member : id ∈ copies.map Prod.fst) :
    ∃ copyId, copies.lookup id = some copyId ∧ (id, copyId) ∈ copies := by
  induction copies with
  | nil => cases member
  | cons pair copies induction =>
      rcases pair with ⟨key, value⟩
      by_cases same : id = key
      · rcases same with rfl
        exact ⟨value, List.lookup_cons_self, List.mem_cons_self⟩
      · have later : id ∈ copies.map Prod.fst := by
          rcases List.mem_cons.mp member with first | later
          · exact absurd first same
          · exact later
        rcases induction later with ⟨copyId, found, listed⟩
        have unlike : (id == key) = false := beq_eq_false_iff_ne.mpr same
        exact ⟨copyId, by simp [List.lookup_cons, unlike, found],
          List.mem_cons_of_mem _ listed⟩

theorem mem_copies (member : id ∈ copies.map Prod.fst) :
    (id, copyOf copies id) ∈ copies := by
  rcases lookup_isSome_of_mem member with ⟨copyId, found, listed⟩
  rw [copyOf, found]
  exact listed

/-- More copies leave the old ones as they are. -/
theorem copyOf_append (member : id ∈ copies.map Prod.fst) :
    copyOf (copies ++ more) id = copyOf copies id := by
  rcases lookup_isSome_of_mem member with ⟨copyId, found, -⟩
  rw [copyOf, copyOf, List.lookup_append, found, Option.some_or]

theorem copyOf_append_self (absent : id ∉ copies.map Prod.fst) :
    copyOf (copies ++ [(id, copyId)]) id = copyId := by
  have none : copies.lookup id = none := by
    rw [List.lookup_eq_none_iff]
    rintro pair listed
    rw [bne_iff_ne]
    rintro rfl
    exact absent (List.mem_map_of_mem listed)
  simp [copyOf, List.lookup_append, none]

/-- Different copies are those of different resources. -/
theorem copyOf_injOn (once : (copies.map Prod.snd).Nodup) :
    Set.InjOn (copyOf copies) { id | id ∈ copies.map Prod.fst } := by
  intro first firstMember second secondMember same
  have equal : (first, copyOf copies first) = (second, copyOf copies second) :=
    List.inj_on_of_nodup_map once (mem_copies firstMember)
      (mem_copies secondMember) same
  exact (Prod.mk.inj equal).1

end Copies

/-! ## What every turn keeps -/

section Keeping

variable {copy : FreshCopy} {state : CopyState} {members : List Member}
  {member : Member} {entry : Entry} {rest : Text}

/-- Both readings of a property without an error are the same. -/
theorem rebindRead_of_read
    {store : ContentStore} {r record : DavReposResource}
    (read : CopyMedium.sabridgeGetProperty store r = .ok record) :
    Rebind.sabridgeGetProperty store.toPropertyTables r = .ok record := by
  rw [Rebind.sabridgeGetProperty_eq_ok]
  unfold CopyMedium.sabridgeGetProperty at read
  split at read
  next => cases read
  next found err outcome =>
      cases err with
      | some err => cases read
      | none =>
          rcases Except.ok.inj read with rfl
          exact outcome

/-- Nothing is at the URI of the new collection, nor below it. -/
theorem serialno_corrChild
    {count : Nat} {store : ContentStore} {rest : Text}
    {corrChild : DavReposResource}
    (grows : Grows copy.base store count)
    (read : CopyMedium.sabridgeGetProperty store
      { rootPath := copy.rDst.rootPath
        uri := some (copy.rDst.uri.getD [] ++ '/' :: rest) } =
          .ok corrChild) :
    corrChild.serialno = 0 := by
  have sameBinds : store.toPropertyTables.binds = copy.base.binds :=
    grows.binds
  have plain : Rebind.IsPlain store.toPropertyTables copy.coll := by
    rcases copy.collPlain with ⟨row, listed, same, noRedirect⟩
    have isType := grows.typeOf (GetResource.typeOf_of_mem listed)
    rcases Option.map_eq_some_iff.mp isType with ⟨other, found, otherType⟩
    have isOther := List.find?_some found
    rw [beq_iff_eq] at isOther
    exact ⟨other, List.mem_of_find?_eq_some found, isOther.trans same,
      otherType ▸ noRedirect⟩
  rcases MoveAsRebind.exists_trail copy.collLeads with ⟨trail, names⟩
  have unread : Rebind.IsUnread copy.rootPath
      (copy.collPath ++ '/' :: copy.segment ++ '/' :: rest)
      { rootPath := copy.rDst.rootPath
        uri := some (copy.rDst.uri.getD [] ++ '/' :: rest) } := by
    refine ⟨rfl, copy.dstRoot, ?_⟩
    simp only [copy.dstUri, Option.getD_some, List.append_assoc]
  have isTokens : Segments.tokens '/'
      (copy.collPath ++ '/' :: copy.segment ++ '/' :: rest) =
        (UriLookup.walkBinds copy.base.binds.rows rootCollectionId
          (Segments.tokens '/' copy.collPath)).map Bind.name ++
            copy.segment :: Segments.tokens '/' rest := by
    rw [names, Segments.tokens_append_sep, MoveAsRebind.tokens_member
      copy.isSegment, List.append_assoc]
    rfl
  exact (MoveAsRebind.isUnread_of_stop (Segments.tokens '/' rest) store.pkey
    (sameBinds ▸ trail) (sameBinds ▸ copy.missing) isTokens plain unread
    (rebindRead_of_read read)).unknown

/--
What every turn keeps, also one for a member of a type that is not copied:
nothing of the destination is used again, and no version is made.
-/
structure LoopKeeps (copy : FreshCopy) (state : CopyState) : Prop where
  grows : ∃ count, Grows copy.base state.store count
  uncontrolled : ∀ uri r, state.copyMap.lookup uri = some r →
    controlsChildren r.avNewChildren = false
  inUse : state.dstInUse = [copy.rDst.serialno]
  response : state.response = []

/-- The state before the loop. -/
theorem loopKeeps_start :
    LoopKeeps copy
      { store := copy.base
        copyMap := [(copy.rSrc.uri.getD [], copy.rDst)]
        dstInUse := [copy.rDst.serialno]
        copyBindsList := []
        response := [] } where
  grows := ⟨0, Grows.refl copy.base⟩
  uncontrolled := by
    intro uri r found
    rw [List.lookup_cons] at found
    split at found
    · rcases Option.some.inj found with rfl
      exact copy.uncontrolled
    · cases found
  inUse := rfl
  response := rfl

/-- No member of the new collection is there to be used again. -/
theorem LoopKeeps.returns_reuseChild
    (keeps : LoopKeeps copy state)
    {iter : DavReposResource}
    (isBelow : iter.uri = some (copy.srcUri ++ '/' :: rest)) :
    Returns (fun result => result = (state, none))
      (reuseChild copy.setting copy.rSrc copy.rDst state iter) := by
  have drop : (iter.uri.getD []).drop (copy.rSrc.uri.getD []).length =
      '/' :: rest := by
    rw [isBelow, copy.srcIsUri, Option.getD_some, Option.getD_some,
      List.drop_left]
  rcases keeps.grows with ⟨count, grows⟩
  unfold reuseChild
  refine (returns_ofBridge _).bind fun corrChild read => ?_
  rw [drop] at read
  rw [if_pos (Or.inl (serialno_corrChild grows read))]
  exact returns_ok rfl

/-- The copy that the pointer of a member leads to. -/
def pointedCopy (rSrc : DavReposResource) (members : List Member)
    (state : CopyState) (member : Member) : Option DavReposResource :=
  member.2.bind fun pointer =>
    (pointedUri rSrc members pointer).bind (List.lookup · state.copyMap)

/-- A copy is found only where a pointer leads to it. -/
theorem LoopKeeps.returns_findCopy
    (keeps : LoopKeeps copy state)
    (isBelow : member.1.uri = some (copy.srcUri ++ '/' :: rest))
    (parentCopy : DavReposResource) :
    Returns (fun result =>
        result = (state, pointedCopy copy.rSrc members state member, false))
      (findCopy copy.setting copy.rSrc copy.rDst members state member
        parentCopy) := by
  unfold findCopy pointedCopy
  cases member.2 with
  | some pointer => exact returns_ok rfl
  | none =>
      dsimp only
      split
      next =>
          refine (keeps.returns_reuseChild isBelow).bind ?_
          rintro _ rfl
          exact returns_ok rfl
      next => exact returns_ok rfl

/-- One turn of the loop. -/
theorem LoopKeeps.step
    (keeps : LoopKeeps copy state)
    (old : entry.1.serialno < copy.base.nextId)
    (isBelow : entry.1.uri = some (copy.srcUri ++ '/' :: rest)) :
    Returns (LoopKeeps copy)
      (copyMember copy.setting copy.rSrc copy.rDst members state
        (memberRecord copy.base copy.rSrc entry.1, entry.2)) := by
  unfold copyMember
  dsimp only
  split
  next => exact returns_error nofun
  next parentCopy isParent =>
      refine (keeps.returns_findCopy isBelow parentCopy).bind ?_
      rintro _ rfl
      have sets : ∀ store copyRes added,
          (∃ count, Grows copy.base store count) →
          controlsChildren copyRes.avNewChildren = false →
            LoopKeeps copy
              { state with
                store := store
                copyMap := (entry.1.uri.getD [], copyRes) :: state.copyMap
                copyBindsList := added } := by
        intro store copyRes added grows isFree
        refine ⟨grows, ?_, keeps.inUse, keeps.response⟩
        intro uri r found
        rw [List.lookup_cons] at found
        split at found
        · rcases Option.some.inj found with rfl
          exact isFree
        · exact keeps.uncontrolled uri r found
      dsimp only
      split
      next copyRes found =>
          refine returns_ok (sets _ _ _ keeps.grows ?_)
          rcases Option.bind_eq_some_iff.mp found with ⟨pointer, -, found⟩
          rcases Option.bind_eq_some_iff.mp found with ⟨uri, -, found⟩
          exact keeps.uncontrolled uri copyRes found
      next =>
          have uncontrolled := keeps.uncontrolled _ _ isParent
          refine (returns_sabridgeCreateCopy uncontrolled).bind ?_
          rintro ⟨store, copyRes⟩ creates
          rcases keeps.grows with ⟨count, grows⟩
          have still : entry.1.serialno < state.store.nextId := by
            rw [grows.nextId]
            exact lt_of_lt_of_le old
              (Int.le_add_of_nonneg_right (Int.natCast_nonneg _))
          rcases sabridgeCreateCopy_spec rfl rfl still uncontrolled creates
            with ⟨-, created⟩ | ⟨-, rfl, -, isFree⟩
          · exact returns_ok (sets _ _ _ ⟨_, grows.trans created.grows⟩
              created.uncontrolled)
          · exact returns_ok (sets _ _ _ ⟨count, grows⟩ isFree)

/-- The whole loop. -/
theorem LoopKeeps.run
    {turns : List Entry}
    (keeps : LoopKeeps copy state)
    (listed : ∀ entry ∈ turns, entry.1.serialno < copy.base.nextId ∧
      ∃ rest, entry.1.uri = some (copy.srcUri ++ '/' :: rest)) :
    Returns (LoopKeeps copy) ((copy.members turns).foldlM
      (copyMember copy.setting copy.rSrc copy.rDst members) state) := by
  induction turns generalizing state with
  | nil => exact returns_ok keeps
  | cons entry turns induction =>
      rcases List.forall_mem_cons.mp listed with ⟨⟨old, rest, isBelow⟩, others⟩
      have turn : Returns (LoopKeeps copy)
          (copyMember copy.setting copy.rSrc copy.rDst members state
            (memberRecord copy.base copy.rSrc entry.1, entry.2)) :=
        keeps.step old isBelow
      exact turn.bind fun next kept => induction kept others

end Keeping

/-! ## The invariant -/

/-- The copies, with that of the collection itself. -/
def FreshCopy.all (copy : FreshCopy) (copies : List (Id × Id)) :
    List (Id × Id) :=
  (copy.rSrc.serialno, copy.rDst.serialno) :: copies

/-- The bind of the copies that is listed for an entry. -/
def copiedBind (copies : List (Id × Id)) (entry : Entry) : BindEntry where
  parentId := copyOf copies entry.1.parentId
  resourceId := copyOf copies entry.1.serialno
  bindName := basename (entry.1.uri.getD [])

/-- A record in the hash is that of the copy. -/
structure IsFound (copies : List (Id × Id)) (state : CopyState) (uri : Text)
    (id : Id) (r : DavReposResource) : Prop where
  lookup : state.copyMap.lookup uri = some r
  serialno : r.serialno = copyOf copies id

/-- A copy has what the resource has; a name that is NULL is copied as empty. -/
structure IsMemberCopy (copy : FreshCopy) (entries : List Entry)
    (after : ContentStore) (id copyId : Id) : Prop where
  exists_entry : ∃ entry ∈ entries, entry.1.serialno = id ∧
    isCopyable entry.1.resourcetype = true ∧
    IsCopyOf copy.base after id entry.1.resourcetype
      ((copy.base.displayname id).getD []) copyId

/-- What the loop keeps, where `copies` says what has been copied. -/
structure CopyInvariant (copy : FreshCopy) (before : List Entry)
    (copies : List (Id × Id)) (state : CopyState) : Prop where
  keeps : LoopKeeps copy state
  grows : Grows copy.base state.store copies.length
  keys : ∀ id, id ∈ copies.map Prod.fst ↔
    id ≠ copy.rSrc.serialno ∧ ∃ entry ∈ before, entry.1.serialno = id
  ids : copies.map Prod.snd =
    (List.range copies.length).map fun index : Nat =>
      copy.base.nextId + index
  contents : ∀ pair ∈ copies,
    IsMemberCopy copy before state.store pair.1 pair.2
  rootFound : IsFound (copy.all copies) state copy.srcUri copy.rSrc.serialno
    copy.rDst
  found : ∀ entry ∈ before, ∀ uri, entry.1.uri = some uri →
    ∃ r, IsFound (copy.all copies) state uri entry.1.serialno r
  binds : state.copyBindsList = before.map (copiedBind (copy.all copies))

section Invariant

variable {copy : FreshCopy} {before after : List Entry} {entry : Entry}
  {copies : List (Id × Id)} {state next : CopyState} {bind : Bind}
  {parentUri uri : Text} {id : Id}

/-- The state before the loop. -/
theorem copyInvariant_start :
    CopyInvariant copy [] []
      { store := copy.base
        copyMap := [(copy.rSrc.uri.getD [], copy.rDst)]
        dstInUse := [copy.rDst.serialno]
        copyBindsList := []
        response := [] } where
  keeps := loopKeeps_start
  grows := Grows.refl copy.base
  keys := by simp
  ids := rfl
  contents := nofun
  rootFound :=
    { lookup := by simp [copy.srcIsUri]
      serialno := copyOf_cons_self.symm }
  found := nofun
  binds := rfl

/-- The ids of the copies are new. -/
theorem CopyInvariant.nextId_le
    (invariant : CopyInvariant copy before copies state)
    (member : id ∈ copies.map Prod.fst) :
    copy.base.nextId ≤ copyOf copies id := by
  have listed : copyOf copies id ∈ copies.map Prod.snd :=
    List.mem_map_of_mem (mem_copies member)
  rw [invariant.ids] at listed
  rcases List.mem_map.mp listed with ⟨index, -, same⟩
  rw [← same]
  exact Int.le_add_of_nonneg_right (Int.natCast_nonneg index)

theorem CopyInvariant.nodup_all
    (invariant : CopyInvariant copy before copies state) :
    ((copy.all copies).map Prod.snd).Nodup := by
  rw [FreshCopy.all, List.map_cons, invariant.ids, List.nodup_cons]
  constructor
  · intro member
    rcases List.mem_map.mp member with ⟨index, -, same⟩
    have isNew : copy.base.nextId ≤ copy.rDst.serialno := by
      rw [← show _ = copy.rDst.serialno from same]
      exact Int.le_add_of_nonneg_right (Int.natCast_nonneg index)
    exact absurd copy.dstPresent (Int.not_lt.mpr isNew)
  · apply List.nodup_range.map
    intro first second same
    exact Int.ofNat_inj.mp (Int.add_left_cancel same)

/-- The collection, and what has an entry, have a copy. -/
theorem CopyInvariant.mem_all
    (invariant : CopyInvariant copy before copies state) :
    id ∈ (copy.all copies).map Prod.fst ↔
      id = copy.rSrc.serialno ∨ ∃ entry ∈ before, entry.1.serialno = id := by
  rw [FreshCopy.all, List.map_cons, List.mem_cons, invariant.keys]
  by_cases isStart : id = copy.rSrc.serialno
  · simp [isStart]
  · simp [isStart]

/-- The copy of the parent is found by the URI of the parent. -/
theorem CopyInvariant.exists_parentCopy
    (invariant : CopyInvariant copy before copies state)
    (met : MetAs copy.start before id uri) :
    ∃ r, IsFound (copy.all copies) state uri id r := by
  rcases met with ⟨rfl, rfl⟩ | ⟨parent, member, rfl, hasUri⟩
  · exact ⟨copy.rDst, invariant.rootFound⟩
  · exact invariant.found _ member uri hasUri

theorem CopyInvariant.parentId_mem
    (invariant : CopyInvariant copy before copies state)
    (met : MetAs copy.start before id uri) :
    id ∈ (copy.all copies).map Prod.fst := by
  rw [invariant.mem_all]
  rcases met with ⟨rfl, -⟩ | ⟨parent, member, rfl, -⟩
  · exact Or.inl rfl
  · exact Or.inr ⟨_, member, rfl⟩

/-- `get_parent_uri` gives the URI that the parent was met with. -/
theorem getParentUri_eq
    (ends : NoTrail parentUri)
    (segment : Segments.IsSegment '/' bind.name) :
    getParentUri copy.setting.libraries (parentUri ++ '/' :: bind.name) =
      parentUri := by
  have cut : (parentUri ++ ['/']).rdropWhile (fun char => char == '/') =
      parentUri := by
    have slash : ['/'].rdropWhile (fun char => char == '/') = [] := rfl
    rw [MoveAsRebind.rdropWhile_append ends, slash, List.append_nil]
  unfold getParentUri
  rw [copy.setting.libraries.dirstr_append _ _ segment.2]
  exact cut

theorem basename_append_segment
    {name : Text} (segment : Segments.IsSegment '/' name) :
    basename (parentUri ++ '/' :: name) = name := by
  unfold basename
  rw [MoveAsRebind.tokens_member segment, List.getLastD_concat]

/-- The copy that a pointer leads to. -/
theorem CopyInvariant.exists_pointed
    (invariant : CopyInvariant copy before copies state)
    (after : List Entry)
    (uris : UrisDiffer copy.start before)
    (points : Points copy.start before entry)
    {pointer : Pointer} (isPointer : entry.2 = some pointer) :
    ∃ r, pointedCopy copy.rSrc (copy.members (before ++ entry :: after)) state
          (memberRecord copy.base copy.rSrc entry.1, entry.2) = some r ∧
      r.serialno = copyOf (copy.all copies) entry.1.serialno := by
  unfold Points at points
  unfold pointedCopy
  simp only [isPointer, Option.bind_some]
  rw [isPointer] at points
  cases pointer with
  | start =>
      have found := invariant.rootFound
      refine ⟨copy.rDst, ?_, ?_⟩
      · simp only [pointedUri, copy.srcIsUri, Option.bind_some, found.lookup]
      · rw [found.serialno, points]
        rfl
  | item index =>
      rcases points with ⟨other, found, same⟩
      have member := List.mem_of_getElem? found
      rcases uris.below other member with ⟨rest, hasUri, -⟩
      rcases invariant.found other member _ hasUri with ⟨r, isFound⟩
      have less : index < before.length :=
        (List.getElem?_eq_some_iff.mp found).1
      have listed : (copy.members (before ++ entry :: after))[index]? =
          some (memberRecord copy.base copy.rSrc other.1, other.2) := by
        rw [FreshCopy.members, List.getElem?_map,
          List.getElem?_append_left less, found, Option.map_some]
      refine ⟨r, ?_, ?_⟩
      · simp only [pointedUri, listed, Option.bind_some]
        show (other.1.uri).bind _ = _
        rw [hasUri, Option.bind_some, isFound.lookup]
      · rw [isFound.serialno, same]

/-- A record is set behind the URI of the next entry. -/
theorem IsFound.set
    {r copyRes : DavReposResource} {other : Text} {more : List (Id × Id)}
    (isFound : IsFound copies state uri id r)
    (differ : uri ≠ other)
    (map : next.copyMap = (other, copyRes) :: state.copyMap)
    (same : copyOf more id = copyOf copies id) :
    IsFound more next uri id r where
  lookup := by
    have unlike : (uri == other) = false := beq_eq_false_iff_ne.mpr differ
    rw [map, List.lookup_cons, unlike]
    exact isFound.lookup
  serialno := isFound.serialno.trans same.symm

theorem IsMemberCopy.mono
    {entries more : List Entry} {store later : ContentStore} {count : Nat}
    {copyId : Id}
    (isCopy : IsMemberCopy copy entries store id copyId)
    (grows : Grows store later count) :
    IsMemberCopy copy (entries ++ more) later id copyId := by
  rcases isCopy.exists_entry with
    ⟨entry, member, same, copyable, has⟩
  exact ⟨entry, List.mem_append_left _ member, same, copyable,
    has.mono grows.keeps⟩

/-- The state after a member, with the copies that it has added. -/
theorem CopyInvariant.extend
    (invariant : CopyInvariant copy before copies state)
    (inOrder : InOrder copy.tables copy.readable copy.start before)
    (uris : UrisDiffer copy.start (before ++ [entry]))
    (placed : IsPlaced copy.tables copy.readable copy.start before entry.1
      bind parentUri)
    {parentCopy copyRes : DavReposResource}
    (isParent : IsFound (copy.all copies) state parentUri bind.collectionId
      parentCopy)
    {extra : List (Id × Id)} {store : ContentStore}
    (grows : Grows state.store store extra.length)
    (keys : ∀ id, id ∈ (copies ++ extra).map Prod.fst ↔
      id ≠ copy.rSrc.serialno ∧
        ∃ other ∈ before ++ [entry], other.1.serialno = id)
    (ids : extra.map Prod.snd =
      (List.range extra.length).map fun index : Nat =>
        state.store.nextId + index)
    (contents : ∀ pair ∈ extra,
      IsMemberCopy copy (before ++ [entry]) store pair.1 pair.2)
    (isCopy : copyRes.serialno =
      copyOf (copy.all (copies ++ extra)) entry.1.serialno)
    (keeps : LoopKeeps copy next)
    (isNext : next = { state with
      store := store
      copyMap := (entry.1.uri.getD [], copyRes) :: state.copyMap
      copyBindsList := state.copyBindsList ++
        [⟨parentCopy.serialno, copyRes.serialno,
          basename (entry.1.uri.getD [])⟩] }) :
    CopyInvariant copy (before ++ [entry]) (copies ++ extra) next := by
  have stable : ∀ id, id ∈ (copy.all copies).map Prod.fst →
      copyOf (copy.all (copies ++ extra)) id =
        copyOf (copy.all copies) id := by
    intro id member
    show copyOf (copy.all copies ++ extra) id = _
    exact copyOf_append member
  have parentMem := invariant.parentId_mem placed.met
  rcases uris.below entry (by simp) with ⟨rest, isBelow, -⟩
  have hasUri : entry.1.uri = some (copy.srcUri ++ '/' :: rest) := isBelow
  have once := uris.once
  rw [List.map_append, List.nodup_append] at once
  have map : next.copyMap =
      (copy.srcUri ++ '/' :: rest, copyRes) :: state.copyMap := by
    rw [isNext, hasUri, Option.getD_some]
  constructor
  case keeps => exact keeps
  case grows =>
    rw [List.length_append, isNext]
    exact invariant.grows.trans grows
  case keys => exact keys
  case ids =>
    rw [List.map_append, invariant.ids, ids, List.length_append,
      List.range_add, List.map_append, List.map_map, invariant.grows.nextId]
    congr 1
    apply List.map_congr_left
    intro index _
    simp [Int.add_assoc]
  case contents =>
    intro pair member
    rw [isNext]
    rcases List.mem_append.mp member with old | isNew
    · exact (invariant.contents pair old).mono grows
    · exact contents pair isNew
  case rootFound =>
    apply invariant.rootFound.set ?_ map (stable _ ?_)
    · intro same
      exact List.cons_ne_nil _ _ (List.append_right_eq_self.mp same.symm)
    · rw [FreshCopy.all, List.map_cons]
      exact List.mem_cons_self
  case found =>
    intro other member otherUri hasOther
    rcases List.mem_append.mp member with old | isLast
    · rcases invariant.found other old otherUri hasOther with ⟨r, isFound⟩
      refine ⟨r, isFound.set ?_ map (stable _ ?_)⟩
      · rintro rfl
        exact once.2.2 _ (List.mem_map_of_mem old) _
          (List.mem_singleton_self _) (hasOther.trans hasUri.symm)
      · rw [invariant.mem_all]
        exact Or.inr ⟨other, old, rfl⟩
    · rcases List.mem_singleton.mp isLast with rfl
      rcases Option.some.inj (hasOther.symm.trans hasUri) with rfl
      refine ⟨copyRes, ?_, isCopy⟩
      rw [map, List.lookup_cons_self]
  case binds =>
    rw [isNext, List.map_append, List.map_singleton]
    show state.copyBindsList ++ _ = _
    rw [invariant.binds]
    congr 1
    · apply List.map_congr_left
      intro other member
      rcases List.append_of_mem member with ⟨first, rest, split⟩
      rcases inOrder.placed first other rest split with
        ⟨otherBind, otherUri, otherPlaced⟩
      have otherMet : MetAs copy.start before other.1.parentId otherUri := by
        rw [otherPlaced.parentId, split]
        exact otherPlaced.met.append
      have listed : other.1.serialno ∈ (copy.all copies).map Prod.fst := by
        rw [invariant.mem_all]
        exact Or.inr ⟨other, member, rfl⟩
      rw [copiedBind, copiedBind, stable _ (invariant.parentId_mem otherMet),
        stable _ listed]
    · rw [copiedBind, isCopy, isParent.serialno, placed.parentId,
        stable _ parentMem]

/-- A bind that no resource has the id of. -/
def IsSpoiled (state : CopyState) : Prop :=
  ∃ entry ∈ state.copyBindsList, entry.resourceId = 0

/-- A member with a pointer has a copy already. -/
theorem CopyInvariant.mem_of_marked
    (invariant : CopyInvariant copy before copies state)
    (points : Points copy.start before entry)
    (marked : entry.2 ≠ none) :
    entry.1.serialno ∈ (copy.all copies).map Prod.fst := by
  rw [invariant.mem_all]
  unfold Points at points
  cases isPointer : entry.2 with
  | none => exact absurd isPointer marked
  | some pointer =>
      rw [isPointer] at points
      cases pointer with
      | start => exact Or.inl points
      | item index =>
          rcases points with ⟨other, found, same⟩
          exact Or.inr ⟨other, List.mem_of_getElem? found, same⟩

theorem CopyInvariant.keys_marked
    (invariant : CopyInvariant copy before copies state)
    (listed : entry.1.serialno ∈ (copy.all copies).map Prod.fst)
    (id : Id) :
    id ∈ (copies ++ []).map Prod.fst ↔ id ≠ copy.rSrc.serialno ∧
      ∃ other ∈ before ++ [entry], other.1.serialno = id := by
  rw [List.append_nil, invariant.keys]
  apply and_congr_right
  intro notStart
  constructor
  · rintro ⟨other, member, same⟩
    exact ⟨other, List.mem_append_left _ member, same⟩
  · rintro ⟨other, member, same⟩
    rcases List.mem_append.mp member with old | isLast
    · exact ⟨other, old, same⟩
    · rcases List.mem_singleton.mp isLast with rfl
      rcases invariant.mem_all.mp listed with isStart | isOld
      · exact absurd (same.symm.trans isStart) notStart
      · exact same ▸ isOld

theorem CopyInvariant.keys_unmarked
    (invariant : CopyInvariant copy before copies state)
    (notStart : entry.1.serialno ≠ copy.rSrc.serialno)
    (newId id : Id) :
    id ∈ (copies ++ [(entry.1.serialno, newId)]).map Prod.fst ↔
      id ≠ copy.rSrc.serialno ∧
        ∃ other ∈ before ++ [entry], other.1.serialno = id := by
  rw [List.map_append, List.mem_append, invariant.keys]
  constructor
  · rintro (⟨other, entry, member, same⟩ | isLast)
    · exact ⟨other, entry, List.mem_append_left _ member, same⟩
    · rcases List.mem_singleton.mp isLast with rfl
      exact ⟨notStart, entry, by simp, rfl⟩
  · rintro ⟨other, found, member, same⟩
    rcases List.mem_append.mp member with old | isLast
    · exact Or.inl ⟨other, found, old, same⟩
    · rcases List.mem_singleton.mp isLast with rfl
      right
      simp [same]

/-- The copy that is created for a member, or that nothing is created. -/
theorem CopyInvariant.created
    (invariant : CopyInvariant copy before copies state)
    (placed : IsPlaced copy.tables copy.readable copy.start before entry.1
      bind parentUri)
    {parentCopy copyRes : DavReposResource} {store : ContentStore}
    (uncontrolled : controlsChildren parentCopy.avNewChildren = false)
    (creates : sabridgeCreateCopy copy.setting state.store
      (memberRecord copy.base copy.rSrc entry.1) parentCopy =
        .ok (store, copyRes)) :
    (CreatedCopy state.store store
        (memberRecord copy.base copy.rSrc entry.1) copyRes
        entry.1.resourcetype
        ((copy.base.displayname entry.1.serialno).getD []) ∧
      IsMemberCopy copy (before ++ [entry]) store entry.1.serialno
        state.store.nextId) ∨
      copyRes.serialno = 0 := by
  have old := serialno_lt_nextId placed
  have still : entry.1.serialno < state.store.nextId := by
    rw [invariant.grows.nextId]
    exact lt_of_lt_of_le old
      (Int.le_add_of_nonneg_right (Int.natCast_nonneg _))
  rcases sabridgeCreateCopy_spec rfl rfl still uncontrolled creates with
    ⟨copyable, created⟩ | ⟨-, -, isZero, -⟩
  · exact Or.inl ⟨created, entry, by simp, rfl, copyable,
      created.isCopy.of_grows invariant.grows old⟩
  · exact Or.inr isZero

/-- One turn of the loop. -/
theorem CopyInvariant.step
    (invariant : CopyInvariant copy before copies state)
    (inOrder : InOrder copy.tables copy.readable copy.start
      (before ++ entry :: after))
    (stepped : copyMember copy.setting copy.rSrc copy.rDst
      (copy.members (before ++ entry :: after)) state
      (memberRecord copy.base copy.rSrc entry.1, entry.2) = .ok next) :
    (∃ more, CopyInvariant copy (before ++ [entry]) more next) ∨
      IsSpoiled next := by
  have upTo : InOrder copy.tables copy.readable copy.start
      (before ++ [entry]) := by
    have all : before ++ entry :: after = (before ++ [entry]) ++ after := by
      simp
    exact (all ▸ inOrder).initial
  have uris := upTo.urisDiffer copy.segments copy.srcEnds
  have beforeUris := upTo.initial.urisDiffer copy.segments copy.srcEnds
  have points := inOrder.points before entry after rfl
  rcases inOrder.placed before entry after rfl with ⟨bind, parentUri, placed⟩
  have segment := copy.segments bind placed.bound
  have ends := (beforeUris.met copy.srcEnds placed.met).1
  have hasUri : entry.1.uri = some (parentUri ++ '/' :: bind.name) :=
    placed.uri.trans (congrArg some ends.childUri_eq)
  rcases invariant.exists_parentCopy placed.met with ⟨parentCopy, isParent⟩
  have uriEq : (memberRecord copy.base copy.rSrc entry.1).uri.getD [] =
      entry.1.uri.getD [] :=
    rfl
  have parentFound : state.copyMap.lookup (getParentUri
      copy.setting.libraries (entry.1.uri.getD [])) = some parentCopy := by
    rw [hasUri, Option.getD_some, getParentUri_eq ends segment]
    exact isParent.lookup
  rcases uris.below entry (by simp) with ⟨rest, isBelow, -⟩
  have keeps : LoopKeeps copy next :=
    (invariant.keeps.step (serialno_lt_nextId placed) isBelow).spec next
      stepped
  unfold copyMember at stepped
  simp only [uriEq, parentFound] at stepped
  rcases bind_eq_ok.mp stepped with ⟨found, finds, creating⟩
  rcases (invariant.keeps.returns_findCopy isBelow parentCopy).spec found
    finds with rfl
  cases isPointer : entry.2 with
  | some pointer =>
      left
      rcases invariant.exists_pointed after beforeUris points isPointer with
        ⟨r, pointed, serialno⟩
      simp only [pointed] at creating
      rcases bind_eq_ok.mp creating with ⟨⟨store, copyRes⟩, creates, result⟩
      have isNext := (Except.ok.inj result).symm
      rcases Prod.mk.inj (Except.ok.inj creates) with ⟨rfl, rfl⟩
      have listed := invariant.mem_of_marked points
        (isPointer ▸ Option.some_ne_none pointer)
      refine ⟨copies ++ [], invariant.extend upTo.initial uris placed isParent
        (Grows.refl _) (invariant.keys_marked listed) rfl nofun ?_
        keeps isNext⟩
      rw [List.append_nil]
      exact serialno
  | none =>
      simp only [pointedCopy, isPointer, Option.bind_none] at creating
      rcases bind_eq_ok.mp creating with ⟨⟨store, copyRes⟩, creates, result⟩
      have isNext := (Except.ok.inj result).symm
      have uncontrolled := invariant.keeps.uncontrolled _ _ isParent.lookup
      rcases invariant.created placed uncontrolled creates with
        ⟨created, isCopy⟩ | isZero
      · left
        unfold Points at points
        rw [isPointer] at points
        have absent : entry.1.serialno ∉ (copy.all copies).map Prod.fst := by
          rw [invariant.mem_all]
          rintro (isStart | ⟨other, member, same⟩)
          · exact points.1 isStart
          · exact points.2 other member same
        refine ⟨copies ++ [(entry.1.serialno, state.store.nextId)],
          invariant.extend upTo.initial uris placed isParent created.grows
            (invariant.keys_unmarked points.1 _) ?_ ?_ ?_ keeps isNext⟩
        · simp
        · intro pair member
          rcases List.mem_singleton.mp member with rfl
          exact isCopy
        · exact created.serialno.trans (copyOf_append_self absent).symm
      · right
        rw [isNext]
        exact ⟨_, List.mem_append_right _ (List.mem_singleton_self _), isZero⟩

end Invariant

/-! ## The whole loop -/

section Run

variable {copy : FreshCopy} {setting : Setting} {rSrc rDst : DavReposResource}
  {members : List Member} {member : Member} {state next : CopyState}

theorem reuseChild_binds
    {iter : DavReposResource} {result : CopyState × Option DavReposResource}
    (reused : reuseChild setting rSrc rDst state iter = .ok result) :
    result.1.copyBindsList = state.copyBindsList := by
  unfold reuseChild at reused
  rcases bind_eq_ok.mp reused with ⟨corrChild, -, rest⟩
  split at rest
  next => rw [← Except.ok.inj rest]
  next =>
      split at rest
      next => cases rest
      next => rw [← Except.ok.inj rest]
      next => rw [← Except.ok.inj rest]
      next => rw [← Except.ok.inj rest]

theorem findCopy_binds
    {parentCopy : DavReposResource}
    {result : CopyState × Option DavReposResource × Bool}
    (finds : findCopy setting rSrc rDst members state member parentCopy =
      .ok result) :
    result.1.copyBindsList = state.copyBindsList := by
  unfold findCopy at finds
  split at finds
  next => rw [← Except.ok.inj finds]
  next =>
      split at finds
      next =>
          rcases bind_eq_ok.mp finds with ⟨⟨later, found⟩, reused, ends⟩
          rw [← Except.ok.inj ends]
          exact reuseChild_binds reused
      next => rw [← Except.ok.inj finds]

/-- A turn adds at most one bind, named by the URI of the member. -/
theorem copyMember_binds
    (stepped : copyMember setting rSrc rDst members state member = .ok next) :
    ∃ added : List BindEntry,
      next.copyBindsList = state.copyBindsList ++ added ∧
      ∀ entry ∈ added, entry.bindName =
        basename (member.1.uri.getD []) := by
  have appended (parentId copyId : Id) (reused : Bool) :
      ∃ added : List BindEntry,
        (if reused = true then state.copyBindsList
        else state.copyBindsList ++ [⟨parentId, copyId,
          basename (member.1.uri.getD [])⟩]) =
          state.copyBindsList ++ added ∧
        ∀ entry ∈ added, entry.bindName =
          basename (member.1.uri.getD []) := by
    cases reused with
    | true => exact ⟨[], (List.append_nil _).symm, nofun⟩
    | false =>
        refine ⟨_, rfl, ?_⟩
        intro entry listed
        rw [List.mem_singleton.mp listed]
  unfold copyMember at stepped
  dsimp only at stepped
  split at stepped
  next => cases stepped
  next parentCopy _ =>
      rcases bind_eq_ok.mp stepped with ⟨⟨later, found, reused⟩, finds, rest⟩
      have same := findCopy_binds finds
      dsimp only at same rest
      split at rest
      next =>
          rcases bind_eq_ok.mp rest with ⟨⟨store, copyRes⟩, -, result⟩
          rw [← Except.ok.inj result]
          dsimp only
          rw [same]
          exact appended _ _ reused
      next =>
          rcases bind_eq_ok.mp rest with ⟨⟨store, copyRes⟩, -, result⟩
          rw [← Except.ok.inj result]
          dsimp only
          rw [same]
          exact appended _ _ reused

/-- The binds of the loop have the names of the members. -/
theorem foldlM_copyMember_binds
    {turns : List Member}
    (ran : turns.foldlM (copyMember setting rSrc rDst members) state =
      .ok next) :
    ∃ added : List BindEntry,
      next.copyBindsList = state.copyBindsList ++ added ∧
      ∀ entry ∈ added, ∃ member ∈ turns, entry.bindName =
        basename (member.1.uri.getD []) := by
  induction turns generalizing state with
  | nil =>
      rcases Except.ok.inj ran with rfl
      exact ⟨[], (List.append_nil _).symm, nofun⟩
  | cons member turns induction =>
      rw [List.foldlM_cons] at ran
      rcases bind_eq_ok.mp ran with ⟨middle, stepped, rest⟩
      rcases copyMember_binds stepped with ⟨first, isFirst, firstNames⟩
      rcases induction rest with ⟨later, isLater, laterNames⟩
      refine ⟨first ++ later, by rw [isLater, isFirst, List.append_assoc], ?_⟩
      intro entry listed
      rcases List.mem_append.mp listed with inFirst | inLater
      · exact ⟨member, List.mem_cons_self, firstNames entry inFirst⟩
      · rcases laterNames entry inLater with ⟨other, inTurns, same⟩
        exact ⟨other, List.mem_cons_of_mem _ inTurns, same⟩

/-- What the loop leaves: the copies, or a bind that no resource is for. -/
theorem CopyInvariant.run
    {entries before after : List Entry} {copies : List (Id × Id)}
    (inOrder : InOrder copy.tables copy.readable copy.start entries)
    (isSplit : entries = before ++ after)
    (invariant : CopyInvariant copy before copies state)
    (ran : (copy.members after).foldlM (copyMember copy.setting copy.rSrc
      copy.rDst (copy.members entries)) state = .ok next) :
    (∃ more, CopyInvariant copy entries more next) ∨ IsSpoiled next := by
  induction after generalizing before copies state with
  | nil =>
      rcases Except.ok.inj ran with rfl
      rw [List.append_nil] at isSplit
      exact Or.inl ⟨copies, isSplit ▸ invariant⟩
  | cons entry after induction =>
      have turns : copy.members (entry :: after) =
          (memberRecord copy.base copy.rSrc entry.1, entry.2) ::
            copy.members after :=
        rfl
      rw [turns, List.foldlM_cons] at ran
      rcases bind_eq_ok.mp ran with ⟨middle, stepped, rest⟩
      rcases isSplit with rfl
      rcases invariant.step inOrder stepped with
        ⟨more, kept⟩ | ⟨spoiled, listed, isZero⟩
      · exact induction (by simp) kept rest
      · right
        rcases foldlM_copyMember_binds rest with ⟨added, same, -⟩
        refine ⟨spoiled, ?_, isZero⟩
        rw [same]
        exact List.mem_append_left _ listed

end Run

/-! ## Nothing is cleared -/

section Clear

variable {copy : FreshCopy} {store : ContentStore} {r : DavReposResource}

/-- A collection without binds has no members. -/
theorem getD_children_one
    (setting : Setting)
    (unbound : ∀ bind ∈ store.binds.rows, bind.collectionId ≠ r.serialno) :
    (sabridgeGetCollectionChildren setting store none .one r
      .collection).getD [] = [] := by
  unfold sabridgeGetCollectionChildren
  split
  next constraints =>
      have none : DbmsCollection.dbmsGetCollectionResource setting.order 0
          (listedTables store constraints).toRepoTables
          (privFilter setting.acl setting.principal none)
          [listedRoot r .collection] = [] := by
        rw [List.eq_nil_iff_forall_not_mem]
        intro item member
        rcases DbmsCollection.mem_dbmsGetCollectionResource.mp member with
          ⟨bind, bound, _, _, inside, _⟩
        rcases List.mem_map.mp inside with ⟨listed, isListed, same⟩
        rcases List.mem_singleton.mp (List.mem_filter.mp isListed).1 with rfl
        exact unbound bind bound same.symm
      have stops : listLevel setting.order
          (listedTables store constraints).toRepoTables
          (privFilter setting.acl setting.principal Option.none) .one
          (listingStart setting.order
            (listedTables store constraints).toRepoTables
            (privFilter setting.acl setting.principal Option.none)
            (listedRoot r .collection)) = .inl ⟨[], some _⟩ :=
        if_pos none
      show (Option.map _ (Loop.run _ (_ + 1) _)).getD [] = []
      rw [Loop.run, stops]
      rfl
  next => rfl

/-- A new collection is in use, and nothing is below it. -/
theorem sabridgeClearUnused_fresh
    (setting : Setting)
    (isColl : r.resourcetype = some .collection)
    (unbound : ∀ bind ∈ store.binds.rows, bind.collectionId ≠ r.serialno) :
    sabridgeClearUnused setting store r [r.serialno] = .ok store := by
  have first : clearRound setting [r.serialno] ⟨store, [(r, none)], false, []⟩ =
      .inr ⟨store, [],
        sabridgeGetCollectionChildren setting store none .one r .collection ==
          some [], [r.serialno]⟩ := by
    simp only [clearRound, List.not_mem_nil, if_false, List.mem_singleton,
      if_true, isColl]
    show Sum.inr _ = _
    simp [getD_children_one setting unbound]
  unfold sabridgeClearUnused
  simp only [Loop.run, first]
  rfl

end Clear

end Limestone.CopyTree
