import Limestone.CopyTreeRun

/-!
# The graph of a recursive COPY

What is below the copy of a collection is what the request may read below the
collection: the same names lead from both to a resource and to its copy.
-/

namespace Limestone.CopyTree

open Library
open BindInsert (BindEntry)
open BridgeProperty (DavReposResource ResourceRow)
open BulkBinds (FitsBuffer bindTriple entryTriple)
open CollectionChildren
open CopyMedium
open DbmsBind
open DbmsCollection (Kept)
open GetResource (typeOf)
open InsertResource
open ListingOrder
open PathSearch (bindGraph)
open RestoreVcc

/-! ## What can be read below a collection -/

/-- The binds of collections whose resources the request may read. -/
def readableGraph (store : ContentStore)
    (readable : Option (Bind → Option Char)) : Multigraph Id Bind :=
  (bindGraph store.binds.rows).restrict fun bind =>
    Kept readable bind ∧
      (typeOf store bind.collectionId).any ResourceType.isCollection = true

section Readable

variable {copy : FreshCopy} {bind : Bind}

theorem mem_tables_resources
    {id : Id} :
    (∃ resource ∈ copy.tables.resources, resource.id = id ∧
      resource.resourcetype.isCollection = true) ↔
      (typeOf copy.base id).any ResourceType.isCollection = true := by
  constructor
  · rintro ⟨resource, listed, rfl, isColl⟩
    rcases List.mem_map.mp listed with ⟨row, isRow, rfl⟩
    show (typeOf copy.base row.id).any _ = true
    rw [GetResource.typeOf_of_mem isRow]
    exact isColl
  · intro isColl
    cases isType : typeOf copy.base id with
    | none =>
        rw [isType] at isColl
        cases isColl
    | some type =>
        rw [isType] at isColl
        rcases List.mem_map.mp ((mem_typedRows copy.base).mpr isType) with
          ⟨row, isRow, same⟩
        rcases Prod.mk.inj same with ⟨rfl, rfl⟩
        exact ⟨listedResource row, List.mem_map_of_mem isRow, rfl, isColl⟩

/-- The binds of the listing are the ones that are reached. -/
theorem listed_iff :
    Listed copy.tables.toRepoTables copy.readable copy.start.serialno bind ↔
      (readableGraph copy.base copy.readable).Arrow bind ∧
        (readableGraph copy.base copy.readable).Reaches copy.rSrc.serialno
          bind.collectionId := by
  have rootColl : (typeOf copy.base copy.rSrc.serialno).any
      ResourceType.isCollection = true := by
    rw [copy.srcRow]
    exact copy.isColl
  constructor
  · intro listed
    have both : (readableGraph copy.base copy.readable).Reaches
          copy.rSrc.serialno bind.collectionId ∧
        (typeOf copy.base bind.collectionId).any
          ResourceType.isCollection = true := by
      apply listed.reached.mem_of_closed
        (S := fun id => (readableGraph copy.base copy.readable).Reaches
          copy.rSrc.serialno id ∧
            (typeOf copy.base id).any ResourceType.isCollection = true)
        ⟨Multigraph.Reaches.refl _ _, rootColl⟩
      rintro arrow ⟨bound, kept, isColl⟩ ⟨reaches, sourceColl⟩
      exact ⟨reaches.tail ⟨bound, kept, sourceColl⟩,
        mem_tables_resources.mp isColl⟩
    exact ⟨⟨listed.bound, listed.kept, both.2⟩, both.1⟩
  · rintro ⟨⟨bound, kept, isColl⟩, reaches⟩
    refine ⟨bound, kept, ?_⟩
    have admitted := reaches.mem_of_closed
      (S := fun id => (typeOf copy.base id).any
        ResourceType.isCollection = true →
          (admittedGraph copy.tables.toRepoTables copy.readable).Reaches
            copy.rSrc.serialno id)
      (fun _ => Multigraph.Reaches.refl _ _) ?_
    · exact admitted isColl
    · rintro arrow ⟨bound, kept, sourceColl⟩ before targetColl
      exact (before sourceColl).tail
        ⟨bound, kept, mem_tables_resources.mpr targetColl⟩

end Readable

/-! ## The rows of the bulk insertion -/

section Rows

variable {resources : BridgeMkcol.ResourceTable}
  {binds result : BridgeMkcol.BindSequence}

theorem insertRow_rows
    {values : BindInsert.BindValues}
    (inserted : BindInsert.insertRow resources binds values = .ok result) :
    binds.rows <+: result.rows := by
  unfold BindInsert.insertRow BridgeMkcol.dbmsInsertBind at inserted
  split at inserted
  next =>
      rcases Except.ok.inj inserted with rfl
      exact List.prefix_append _ _
  next => cases inserted

theorem foldlM_insertRow_rows
    {rows : List BindInsert.BindValues}
    (inserted : rows.foldlM (BindInsert.insertRow resources) binds =
      .ok result) :
    binds.rows <+: result.rows := by
  induction rows generalizing binds with
  | nil =>
      rcases Except.ok.inj inserted with rfl
      exact List.prefix_rfl
  | cons values rows induction =>
      rw [List.foldlM_cons] at inserted
      rcases bind_eq_ok.mp inserted with ⟨middle, first, rest⟩
      exact (insertRow_rows first).trans (induction rest)

/-- What a bulk insertion of plain names adds. -/
theorem dbmsInsertBindList_plain
    {time : BindInsert.TimeText} {entries : List BindEntry}
    (nonempty : entries ≠ [])
    (plain : ∀ entry ∈ entries, '?' ∉ entry.bindName ∧
      DbmsDbd.quote ∉ entry.bindName)
    (inserted : BindInsert.dbmsInsertBindList resources binds time entries =
      .ok result) :
    (∀ entry ∈ entries, BulkBinds.FitsColumns resources entry) ∧
      ∃ added, result.rows = binds.rows ++ added ∧
        added.map bindTriple = entries.map entryTriple := by
  by_cases fits : FitsBuffer entries
  · rw [BulkBinds.dbmsInsertBindList_of_fits nonempty fits, if_neg,
      BulkBinds.map_escapeName_eq_self fun entry listed =>
        (plain entry listed).2] at inserted
    · have rows : BulkBinds.Inserts resources binds entries _ :=
        BulkBinds.inserts_map time entries
      cases ran : (entries.map (BulkBinds.entryValues time)).foldlM
          (BindInsert.insertRow resources) binds with
      | error err =>
          rw [ran] at inserted
          cases inserted
      | ok last =>
          rw [ran] at inserted rows
          rcases Except.ok.inj inserted with rfl
          rcases rows with ⟨accepted, other, same, triples⟩ | ⟨-, _, fails⟩
          · rcases Except.ok.inj same with rfl
            rcases foldlM_insertRow_rows ran with ⟨added, isAdded⟩
            refine ⟨accepted.1, added, isAdded.symm, ?_⟩
            rw [← isAdded, List.map_append] at triples
            exact List.append_cancel_left triples
          · cases fails
    · rintro ⟨entry, listed, question⟩
      exact (plain entry listed).1 question
  · rw [BulkBinds.dbmsInsertBindList_overflow nonempty fits] at inserted
    cases inserted

end Rows

/-! ## The members of the new collection -/

/-- The columns of the bind that corresponds to another one. -/
def imageTriple (image : Id → Id) (bind : Bind) : Id × Text × Id :=
  (image bind.collectionId, bind.name, image bind.resourceId)

/-- The binds that are listed for the collection. -/
def FreshCopy.Lists (copy : FreshCopy) (bind : Bind) : Prop :=
  Listed copy.tables.toRepoTables copy.readable copy.start.serialno bind

/-- The collection, and what is listed below it. -/
def FreshCopy.Covers (copy : FreshCopy) (id : Id) : Prop :=
  id = copy.rSrc.serialno ∨ ∃ bind, copy.Lists bind ∧ bind.resourceId = id

/-- What `sabridge_depth_inf_copy_coll` leaves below a new collection. -/
structure CopiedBelow (copy : FreshCopy) (after : ContentStore)
    (image : Id → Id) : Prop where
  keeps : Keeps copy.base after
  root : image copy.rSrc.serialno = copy.rDst.serialno
  fresh : ∀ id, copy.Covers id → id ≠ copy.rSrc.serialno →
    copy.base.nextId ≤ image id
  injective : Set.InjOn image { id | copy.Covers id }
  complete : ∀ bind, copy.Lists bind →
    ∃ twin ∈ after.binds.rows, bindTriple twin = imageTriple image bind
  sound : ∀ twin ∈ after.binds.rows, twin ∈ copy.base.binds.rows ∨
    ∃ bind, copy.Lists bind ∧ bindTriple twin = imageTriple image bind
  contents : ∀ id, copy.Covers id → id ≠ copy.rSrc.serialno →
    ∃ type, typeOf copy.base id = some type ∧ isCopyable type = true ∧
      IsCopyOf copy.base after id type
        ((copy.base.displayname id).getD []) (image id)

section Below

variable {copy : FreshCopy} {entries : List Entry} {state : CopyState}
  {copies : List (Id × Id)} {entry : Entry} {bind : Bind} {id : Id}
  {after : ContentStore}

/-- An entry is that of a bind that is listed. -/
theorem exists_listed
    (lists : ListsExactly copy.tables.toRepoTables copy.readable
      copy.start.serialno entries)
    (inOrder : InOrder copy.tables copy.readable copy.start entries)
    (member : entry ∈ entries) :
    ∃ bind, copy.Lists bind ∧ entry.1.bindId = bind.id ∧
      entry.1.serialno = bind.resourceId ∧
      entry.1.parentId = bind.collectionId ∧
      typeOf copy.base entry.1.serialno = some entry.1.resourcetype ∧
      basename (entry.1.uri.getD []) = bind.name := by
  rcases List.append_of_mem member with ⟨before, rest, split⟩
  rcases inOrder.placed before entry rest split with
    ⟨bind, parentUri, placed⟩
  rcases lists.sound entry member with ⟨other, listed, same, -, -⟩
  have binds : other = bind :=
    List.inj_on_of_nodup_map copy.tables.binds.pkey listed.bound placed.bound
      (same.symm.trans placed.bindId)
  rcases binds with rfl
  have upTo : InOrder copy.tables copy.readable copy.start before :=
    (split ▸ inOrder).initial
  have ends := ((upTo.urisDiffer copy.segments copy.srcEnds).met copy.srcEnds
    placed.met).1
  refine ⟨other, listed, same, placed.serialno, placed.parentId,
    typeOf_entry placed, ?_⟩
  rw [placed.uri, Option.getD_some, ends.childUri_eq,
    basename_append_segment (copy.segments other placed.bound)]

/-- Every bind that is listed has an entry. -/
theorem exists_entry
    (lists : ListsExactly copy.tables.toRepoTables copy.readable
      copy.start.serialno entries)
    (inOrder : InOrder copy.tables copy.readable copy.start entries)
    (listed : copy.Lists bind) :
    ∃ entry ∈ entries, entry.1.bindId = bind.id ∧
      entry.1.serialno = bind.resourceId ∧
      entry.1.parentId = bind.collectionId ∧
      basename (entry.1.uri.getD []) = bind.name := by
  rcases lists.complete bind listed with ⟨entry, member, same⟩
  rcases exists_listed lists inOrder member with
    ⟨other, otherListed, otherSame, serialno, parentId, -, name⟩
  have binds : other = bind :=
    List.inj_on_of_nodup_map copy.tables.binds.pkey otherListed.bound
      listed.bound (otherSame.symm.trans same)
  rcases binds with rfl
  exact ⟨entry, member, same, serialno, parentId, name⟩

/-- What is covered has a copy. -/
theorem covers_iff
    (lists : ListsExactly copy.tables.toRepoTables copy.readable
      copy.start.serialno entries)
    (inOrder : InOrder copy.tables copy.readable copy.start entries)
    (invariant : CopyInvariant copy entries copies state) :
    copy.Covers id ↔ id ∈ (copy.all copies).map Prod.fst := by
  rw [invariant.mem_all]
  apply or_congr_right
  constructor
  · rintro ⟨bind, listed, rfl⟩
    rcases exists_entry lists inOrder listed with
      ⟨entry, member, -, serialno, -⟩
    exact ⟨entry, member, serialno⟩
  · rintro ⟨entry, member, rfl⟩
    rcases exists_listed lists inOrder member with
      ⟨bind, listed, -, serialno, -⟩
    exact ⟨bind, listed, serialno.symm⟩

theorem entryTriple_copiedBind
    (copies : List (Id × Id))
    (lists : ListsExactly copy.tables.toRepoTables copy.readable
      copy.start.serialno entries)
    (inOrder : InOrder copy.tables copy.readable copy.start entries)
    (member : entry ∈ entries) :
    ∃ bind, copy.Lists bind ∧ entry.1.bindId = bind.id ∧
      entryTriple (copiedBind (copy.all copies) entry) =
        imageTriple (copyOf (copy.all copies)) bind := by
  rcases exists_listed lists inOrder member with
    ⟨bind, listed, same, serialno, parentId, -, name⟩
  refine ⟨bind, listed, same, ?_⟩
  rw [entryTriple, copiedBind, imageTriple, serialno, parentId, name]

/-- The copies and their binds, from the end of the loop. -/
theorem CopyInvariant.copiedBelow
    (lists : ListsExactly copy.tables.toRepoTables copy.readable
      copy.start.serialno entries)
    (inOrder : InOrder copy.tables copy.readable copy.start entries)
    (invariant : CopyInvariant copy entries copies state)
    {binds : BridgeMkcol.BindSequence} {added : List Bind}
    (rows : binds.rows = state.store.binds.rows ++ added)
    (triples : added.map bindTriple =
      (entries.map (copiedBind (copy.all copies))).map entryTriple) :
    CopiedBelow copy (withBinds state.store binds)
      (copyOf (copy.all copies)) := by
  have covers : ∀ id, copy.Covers id ↔ id ∈ (copy.all copies).map Prod.fst :=
    fun id => covers_iff lists inOrder invariant
  have isNew : ∀ id, copy.Covers id → id ≠ copy.rSrc.serialno →
      id ∈ copies.map Prod.fst ∧
        copyOf (copy.all copies) id = copyOf copies id := by
    intro id covered other
    have member := (covers id).mp covered
    rw [FreshCopy.all, List.map_cons, List.mem_cons] at member
    exact ⟨member.resolve_left other, copyOf_cons_of_ne other⟩
  constructor
  case keeps => exact invariant.grows.keeps.withBinds ⟨added, rows.symm⟩
  case root => exact copyOf_cons_self
  case fresh =>
    intro id covered other
    rcases isNew id covered other with ⟨member, same⟩
    rw [same]
    exact invariant.nextId_le member
  case injective =>
    intro first firstCovered second secondCovered same
    exact copyOf_injOn invariant.nodup_all ((covers first).mp firstCovered)
      ((covers second).mp secondCovered) same
  case complete =>
    intro bind listed
    rcases exists_entry lists inOrder listed with
      ⟨entry, member, sameBind, -⟩
    rcases entryTriple_copiedBind copies lists inOrder member with
      ⟨other, otherListed, otherSame, triple⟩
    have equal : other = bind :=
      List.inj_on_of_nodup_map copy.tables.binds.pkey otherListed.bound
        listed.bound (otherSame.symm.trans sameBind)
    rcases equal with rfl
    have inTriples : imageTriple (copyOf (copy.all copies)) other ∈
        added.map bindTriple := by
      rw [triples, ← triple]
      exact List.mem_map_of_mem (List.mem_map_of_mem member)
    rcases List.mem_map.mp inTriples with ⟨twin, isAdded, same⟩
    refine ⟨twin, ?_, same⟩
    show twin ∈ binds.rows
    rw [rows]
    exact List.mem_append_right _ isAdded
  case sound =>
    intro twin member
    have inRows : twin ∈ state.store.binds.rows ++ added := rows ▸ member
    rcases List.mem_append.mp inRows with old | isAdded
    · rw [invariant.grows.binds] at old
      exact Or.inl old
    · right
      have inTriples : bindTriple twin ∈
          (entries.map (copiedBind (copy.all copies))).map entryTriple := by
        rw [← triples]
        exact List.mem_map_of_mem isAdded
      rw [List.map_map] at inTriples
      rcases List.mem_map.mp inTriples with ⟨entry, listed, same⟩
      rcases entryTriple_copiedBind copies lists inOrder listed
        with ⟨bind, isListed, -, triple⟩
      exact ⟨bind, isListed, same.symm.trans triple⟩
  case contents =>
    intro id covered other
    rcases isNew id covered other with ⟨member, same⟩
    rcases (invariant.contents _ (mem_copies member)).exists_entry with
      ⟨entry, listed, isId, copyable, isCopy⟩
    rcases exists_listed lists inOrder listed with ⟨_, -, -, -, -, isType, -⟩
    refine ⟨entry.1.resourcetype, ?_, copyable, ?_⟩
    · have sameId : entry.1.serialno = id := isId
      exact sameId ▸ isType
    rw [same]
    exact isCopy.mono ((Grows.refl _).keeps.withBinds ⟨added, rows.symm⟩)

theorem returns_ofBindList
    {α : Type} (call : Except BindInsert.Stop α) :
    Returns (fun value => call = .ok value) (ofBindList call) := by
  cases call with
  | error stop =>
      cases stop with
      | davError err => exact returns_error nofun
      | overflow => exact returns_error nofun
  | ok value => exact returns_ok rfl

/-- The entries of the list are below the collection. -/
theorem below_of_inOrder
    (inOrder : InOrder copy.tables copy.readable copy.start entries) :
    ∀ entry ∈ entries, entry.1.serialno < copy.base.nextId ∧
      ∃ rest, entry.1.uri = some (copy.srcUri ++ '/' :: rest) := by
  intro entry member
  have uris := inOrder.urisDiffer copy.segments copy.srcEnds
  rcases uris.below entry member with ⟨rest, isBelow, -⟩
  rcases List.append_of_mem member with ⟨before, after, split⟩
  rcases inOrder.placed before entry after split with ⟨bind, uri, placed⟩
  exact ⟨serialno_lt_nextId placed, rest, isBelow⟩

/-- The members of a new collection are the copies of what can be read. -/
theorem returns_depthInfCopyColl
    (plain : ∀ bind, copy.Lists bind →
      '?' ∉ bind.name ∧ DbmsDbd.quote ∉ bind.name) :
    Returns (fun copied =>
        copied.response = [] ∧ ∃ image, CopiedBelow copy copied.store image)
      (sabridgeDepthInfCopyColl copy.setting copy.base copy.rSrc
        copy.rDst) := by
  rcases copy.exists_members with ⟨entries, listing, lists, inOrder⟩
  have loop := @LoopKeeps.run copy _ (copy.members entries) entries
    loopKeeps_start (below_of_inOrder inOrder)
  unfold sabridgeDepthInfCopyColl
  rw [listing]
  refine (returns_ok (rfl : _ = copy.members entries)).bind ?_
  rintro _ rfl
  refine (loop.of_ok fun state ran =>
    And.intro (loop.spec state ran) ran).bind ?_
  rintro state ⟨keeps, ran⟩
  have names : ∀ entry ∈ state.copyBindsList,
      '?' ∉ entry.bindName ∧ DbmsDbd.quote ∉ entry.bindName := by
    rcases foldlM_copyMember_binds ran with ⟨added, same, named⟩
    intro entry listed
    rw [same, List.nil_append] at listed
    rcases named entry listed with ⟨member, isMember, isName⟩
    rcases List.mem_map.mp isMember with ⟨other, inEntries, rfl⟩
    rcases exists_listed lists inOrder inEntries with
      ⟨bind, isListed, -, -, -, -, bindName⟩
    have sameName : entry.bindName = bind.name := isName.trans bindName
    rw [sameName]
    exact plain bind isListed
  have outcome := CopyInvariant.run inOrder (List.nil_append _).symm
    copyInvariant_start ran
  have unbound : ∀ bind ∈ state.store.binds.rows,
      bind.collectionId ≠ copy.rDst.serialno := by
    rcases keeps.grows with ⟨count, grows⟩
    rw [grows.binds]
    exact copy.dstUnbound
  rw [keeps.inUse,
    sabridgeClearUnused_fresh copy.setting copy.dstType unbound]
  refine (returns_ok (rfl : _ = state.store)).bind ?_
  rintro _ rfl
  split
  next empty =>
      rcases outcome with ⟨copies, invariant⟩ | ⟨entry, listed, -⟩
      · have noTriples : ([] : List Bind).map bindTriple =
            (entries.map (copiedBind (copy.all copies))).map entryTriple := by
          rw [← invariant.binds, empty]
          rfl
        have below : CopiedBelow copy
            (withBinds state.store (bindSequence state.store)) _ :=
          invariant.copiedBelow lists inOrder (List.append_nil _).symm
            noTriples
        exact returns_ok ⟨keeps.response, _, below⟩
      · rw [empty] at listed
        cases listed
  next nonempty =>
      refine (returns_ofBindList _).bind fun binds inserted => ?_
      rcases dbmsInsertBindList_plain nonempty names inserted with
        ⟨fits, added, rows, triples⟩
      rcases outcome with ⟨copies, invariant⟩ | ⟨entry, listed, isZero⟩
      · refine returns_ok ⟨keeps.response, _,
          invariant.copiedBelow lists inOrder rows ?_⟩
        rw [← invariant.binds]
        exact triples
      · -- No resource has the id zero.
        have present := (fits entry listed).2.1
        rw [isZero] at present
        rcases List.mem_map.mp present with ⟨row, inTable, same⟩
        have positive := ((resourceTable state.store).ids row inTable).1
        rw [same] at positive
        exact absurd positive (lt_irrefl 0)

end Below

end Limestone.CopyTree
