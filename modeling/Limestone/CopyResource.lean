import Limestone.CopyTreeGraph

/-!
# COPY of a collection to a new URI

The copy of a collection to a URI that names nothing, from the call of
`dav_repos_copy_resource` to the binds that it leaves: a tree that looks from
its new place as what the request may read looks from the old one, beside a
repository that is otherwise as it was.
-/

namespace Limestone.CopyResource

open Library
open BridgeProperty (DavReposResource ResourceRow)
open BulkBinds (bindTriple)
open CollectionChildren
open CopyMedium
open CopyTree
open DbmsBind
open GetResource (LeadsTo typeOf)
open InsertResource
open ListingOrder
open PathSearch (bindGraph)
open VersionLinks (Libraries)

/-! ## The tables behind a new resource -/

section Growing

variable {store after : ContentStore} {count : Nat} {id : Id}

theorem Constraints.of_grows
    (constraints : Constraints store)
    (grows : Grows store after count) :
    Constraints after := by
  rcases constraints with ⟨bound, vhrIds, toVhr, toRoot, isVersion, versionIds,
    checkedIds, present⟩
  unfold Constraints
  rw [grows.binds, grows.vhrs, grows.versions, grows.vcrs]
  refine ⟨?_, vhrIds, toVhr, toRoot, ?_, versionIds, checkedIds, ?_⟩
  · intro bind listed
    exact ⟨grows.mem_ids (bound bind listed).1,
      grows.mem_ids (bound bind listed).2⟩
  · intro version listed row isRow same
    rcases List.mem_map.mp (present version listed) with ⟨old, isOld, oldId⟩
    have wasVersion := isVersion version listed old isOld oldId
    have isType := grows.typeOf (GetResource.typeOf_of_mem isOld)
    rw [oldId, ← same, GetResource.typeOf_of_mem isRow] at isType
    rw [Option.some.inj isType]
    exact wasVersion
  · exact fun version listed => grows.mem_ids (present version listed)

/-- A resource that is there keeps its type. -/
theorem typeOf_of_grows
    (grows : Grows store after count)
    (present : id ∈ store.resources.map ResourceRow.id) :
    typeOf after id = typeOf store id := by
  rcases List.mem_map.mp present with ⟨row, listed, rfl⟩
  have isType := GetResource.typeOf_of_mem listed
  rw [isType]
  exact grows.typeOf isType

/-- What can be read below a collection does not depend on new resources. -/
theorem readableGraph_of_grows
    (constraints : Constraints store)
    (grows : Grows store after count)
    (readable : Option (Bind → Option Char)) :
    readableGraph after readable = readableGraph store readable := by
  have arrows : ∀ bind, (readableGraph after readable).Arrow bind ↔
      (readableGraph store readable).Arrow bind := by
    intro bind
    show (bind ∈ after.binds.rows ∧ _ ∧
        (typeOf after bind.collectionId).any ResourceType.isCollection = true) ↔
      (bind ∈ store.binds.rows ∧ _)
    rw [grows.binds]
    apply and_congr_right
    intro bound
    rw [typeOf_of_grows grows (constraints.1 bind bound).1]
  have sameArrows : (readableGraph after readable).Arrow =
      (readableGraph store readable).Arrow :=
    funext fun bind => propext (arrows bind)
  calc
    readableGraph after readable
        = { readableGraph store readable with
            Arrow := (readableGraph after readable).Arrow } := rfl
    _ = readableGraph store readable := by rw [sameArrows]

end Growing

/-! ## The call -/

/-- A URI at which a collection has no member. -/
structure Target where
  setting : Setting
  store : ContentStore
  dst : DavReposResource
  rootPath : Text
  collPath : Text
  coll : Id
  segment : Text
  constraints : Constraints store
  rootEnds : rootPath.getLast? ≠ some '/'
  isSegment : Segments.IsSegment '/' segment
  collLeads : LeadsTo store.binds.rows collPath coll
  collType : (typeOf store coll).any ResourceType.isCollection = true
  missing : UriLookup.bindNamed store.binds.rows coll segment = none
  dstUnknown : dst.serialno = 0
  dstRoot : dst.rootPath = some rootPath
  dstUri : dst.uri = some (rootPath ++ (collPath ++ '/' :: segment))

/-- A collection that is copied to such a URI. -/
structure Copy extends Target where
  src : DavReposResource
  type : ResourceType
  srcUri : Text
  segments : HasSegments store.binds.rows
  isColl : type.isCollection = true
  srcType : src.resourcetype = some type
  srcIsUri : src.uri = some srcUri
  srcRow : typeOf store src.serialno = some type
  uncontrolled : ∀ row ∈ store.collections, row.resourceId = coll →
    controlsChildren row.autoVersionNewChildren = false

/-- What the request may read. -/
def Copy.readable (copy : Copy) : Option (Bind → Option Char) :=
  privFilter copy.setting.acl copy.setting.principal (some "read".toList)

/-- The part of the repository that the request may read. -/
def Copy.graph (copy : Copy) : Multigraph Id Bind :=
  readableGraph copy.store copy.readable

/-- What is copied. -/
def Copy.inside (copy : Copy) : Set Id :=
  { id | copy.graph.Reaches copy.src.serialno id }

/-- What a recursive copy leaves; a name that is NULL is copied as empty. -/
structure CopiesTree (copy : Copy) (after : ContentStore) (image : Id → Id) :
    Prop where
  keeps : Keeps copy.store after
  isCopy : copy.graph.IsCopy (bindGraph after.binds.rows) Bind.name
    copy.inside image
  isNew : ∀ id ∈ copy.inside, copy.store.nextId ≤ image id
  root : IsCopyOf copy.store after copy.src.serialno copy.type
    (copy.src.displayname.getD copy.segment) (image copy.src.serialno)
  contents : ∀ id ∈ copy.inside, id ≠ copy.src.serialno →
    ∃ type, typeOf copy.store id = some type ∧ isCopyable type = true ∧
      IsCopyOf copy.store after id type
        ((copy.store.displayname id).getD []) (image id)
  bound : ∃ bind ∈ after.binds.rows, bind.key = (copy.coll, copy.segment) ∧
    bind.resourceId = image copy.src.serialno
  others : ∀ bind ∈ after.binds.rows, bind ∈ copy.store.binds.rows ∨
    bind.key = (copy.coll, copy.segment) ∨
    ∃ id ∈ copy.inside, bind.collectionId = image id

/-! ## The parent -/

section Parent

variable (target : Target)

theorem chompSlash_of_noTrail
    {uri : Text} (noTrail : NoTrail uri) : Search.chompSlash uri = uri :=
  List.rdropWhile_eq_self_iff.mpr fun nonempty slash =>
    noTrail (by
      rw [List.getLast?_eq_some_getLast nonempty, beq_iff_eq.mp slash])

theorem noTrail_chompSlash (uri : Text) : NoTrail (Search.chompSlash uri) := by
  intro ends
  have nonempty : Search.chompSlash uri ≠ [] := by
    intro empty
    rw [empty] at ends
    cases ends
  have last := List.rdropWhile_last_not (fun char => char == '/') uri nonempty
  rw [List.getLast?_eq_some_getLast nonempty] at ends
  exact last (beq_iff_eq.mpr (Option.some.inj ends))

/-- The URI of the destination ends in its name. -/
theorem Target.noTrail_dst :
    NoTrail (target.rootPath ++ (target.collPath ++ '/' :: target.segment)) := by
  rw [← List.append_assoc]
  exact noTrail_append_segment target.isSegment

/-- The collection of the destination. -/
theorem Target.exists_collRow :
    ∃ row ∈ target.store.resources, row.id = target.coll ∧
      row.type.isCollection = true := by
  rcases (Option.any_eq_true _ _).mp target.collType with ⟨type, isType, isColl⟩
  rcases List.mem_map.mp ((mem_typedRows target.store).mpr isType) with
    ⟨row, listed, same⟩
  rcases Prod.mk.inj same with ⟨isId, rfl⟩
  exact ⟨row, listed, isId, isColl⟩

theorem Target.uri_chomped :
    (chomped target.dst).uri = some
      (target.rootPath ++ (target.collPath ++ '/' :: target.segment)) := by
  rw [chomped, target.dstUri, Option.map_some,
    chompSlash_of_noTrail target.noTrail_dst]

theorem Target.coll_lt : target.coll < target.store.nextId := by
  rcases target.exists_collRow with ⟨row, listed, isId, -⟩
  exact isId ▸ (target.store.ids row listed).2

theorem Target.coll_pos : 0 < target.coll := by
  rcases target.exists_collRow with ⟨row, listed, isId, -⟩
  exact isId ▸ (target.store.ids row listed).1

variable {target}

/-- The parent that is read is the collection. -/
theorem Target.serialno_parent
    {r parent : DavReposResource}
    (hasRoot : r.rootPath = some target.rootPath)
    (hasUri : r.uri =
      some (target.rootPath ++ (target.collPath ++ '/' :: target.segment)))
    (retrieved : sabridgeRetrieveParent target.setting.libraries target.store r =
      .ok parent) :
    parent.serialno = target.coll := by
  have dir : target.setting.libraries.makeDirstrParent
      (target.rootPath ++ (target.collPath ++ '/' :: target.segment)) =
        target.rootPath ++ (target.collPath ++ ['/']) := by
    rw [← List.append_assoc,
      target.setting.libraries.dirstr_append _ _ target.isSegment.2,
      List.append_assoc]
  rcases MoveAsRebind.exists_chompTrailingSlash target.rootEnds
    (target.collPath ++ ['/']) with ⟨rest, chomped, tokens⟩
  rw [Segments.tokens_append_sep, Segments.tokens_nil,
    List.append_nil] at tokens
  have leads := MoveAsRebind.leadsTo_congr target.collLeads tokens
  rcases target.exists_collRow with ⟨row, listed, isId, -⟩
  unfold sabridgeRetrieveParent retrieveParent at retrieved
  rw [hasUri] at retrieved
  dsimp only at retrieved
  split at retrieved
  next => cases retrieved
  next =>
      rw [dir, chomped, hasRoot] at retrieved
      split at retrieved
      next read =>
          rcases Except.ok.inj retrieved with rfl
          rw [← isId] at leads
          have isRead := Rebind.isRead_of_leadsTo target.store.pkey listed leads
            ⟨rfl, rfl, rfl⟩ (rebindRead_of_read read)
          exact isRead.serialno.trans isId
      next => cases retrieved

/-- The record of the parent, with its row of `collections` if it has one. -/
theorem Target.findParent_spec
    {r : DavReposResource} {parent : Option DavReposResource}
    (found : findParent target.setting.libraries target.store target.coll r =
      .ok parent) :
    ∃ record, parent = some record ∧ record.serialno = target.coll ∧
      (record.avNewChildren = none ∨ ∃ row ∈ target.store.collections,
        row.resourceId = target.coll ∧
          record.avNewChildren = row.autoVersionNewChildren) := by
  unfold findParent at found
  rw [if_pos target.coll_pos] at found
  refine ⟨_, (Except.ok.inj found).symm, ?_⟩
  have known (read : DavReposResource)
      (isRead : (BridgeProperty.dbmsGetResource false
        target.store.toPropertyTables
        { rootPath := r.rootPath, serialno := target.coll }).1 = read) :
      read.serialno = target.coll ∧ read.avNewChildren = none := by
    rw [← isRead]
    unfold BridgeProperty.dbmsGetResource
    rw [if_neg Bool.false_ne_true]
    split
    · exact ⟨rfl, rfl⟩
    · exact ⟨rfl, rfl⟩
  rcases known _ rfl with ⟨isColl, fresh⟩
  unfold BridgeProperty.dbmsGetCollectionProps
  rw [if_neg Bool.false_ne_true]
  split
  next => exact ⟨isColl, Or.inl fresh⟩
  next row listed =>
      have same := List.find?_some listed
      rw [beq_iff_eq, isColl] at same
      exact ⟨isColl, Or.inr ⟨row, List.mem_of_find?_eq_some listed, same, rfl⟩⟩

end Parent

section Creation

/-- The members of the parent are not put under version control. -/
theorem Copy.controlsChildren_parent
    (copy : Copy) {record : DavReposResource}
    (children : record.avNewChildren = none ∨
      ∃ row ∈ copy.store.collections, row.resourceId = copy.coll ∧
        record.avNewChildren = row.autoVersionNewChildren) :
    controlsChildren record.avNewChildren = false := by
  rcases children with none | ⟨row, listed, same, some⟩
  · rw [none]
    rfl
  · rw [some]
    exact copy.uncontrolled row listed same

/-- The collection that is created, before its members are copied. -/
theorem Copy.createCollection_spec
    (copy : Copy) {r dstParent newR : DavReposResource} {store : ContentStore}
    (hasRoot : r.rootPath = some copy.rootPath)
    (hasUri : r.uri =
      some (copy.rootPath ++ (copy.collPath ++ '/' :: copy.segment)))
    (created : createCollection copy.setting copy.store r =
      .ok (dstParent, store, newR)) :
    dstParent.serialno = copy.coll ∧
      ∃ parent, controlsChildren parent.avNewChildren = false ∧
        InsertedBelow (copy.setting.nextRequest copy.store) copy.store store
          parent .collection r newR := by
  unfold createCollection at created
  rcases bind_eq_ok.mp created with ⟨retrieved, isRetrieved, rest⟩
  rcases bind_eq_ok.mp rest with ⟨parent, found, rest⟩
  have isColl := copy.serialno_parent hasRoot hasUri
    (ofBridge_eq_ok.mp isRetrieved)
  rw [ofBridge_eq_ok, isColl] at found
  rcases Target.findParent_spec found with ⟨record, rfl, -, children⟩
  rcases bind_eq_ok.mp rest with ⟨⟨after, inserted⟩, insertion, ends⟩
  rcases Prod.mk.inj (Except.ok.inj ends) with ⟨rfl, same⟩
  rcases Prod.mk.inj same with ⟨rfl, rfl⟩
  exact ⟨isColl, record, copy.controlsChildren_parent children,
    sabridgeInsertResource_spec (ofBridge_eq_ok.mp insertion)⟩

theorem returns_createCollection
    (setting : Setting) (store : ContentStore) (r : DavReposResource) :
    Returns (fun result => createCollection setting store r = .ok result)
      (createCollection setting store r) := by
  have returns : Returns (fun _ => True)
      (createCollection setting store r) := by
    unfold createCollection
    refine (returns_ofBridge _).bind fun dstParent _ => ?_
    refine (returns_ofBridge _).bind fun parent _ => ?_
    cases parent with
    | none => exact returns_error nofun
    | some parent =>
        exact (returns_ofBridge _).bind fun _ _ => returns_ok trivial
  exact returns.of_ok fun _ same => same

end Creation

/-! ## The new collection -/

/-- The new collection with the dead properties of the original. -/
structure CreatedRoot (copy : Copy) (base : ContentStore)
    (rDst : DavReposResource) : Prop where
  grows : Grows copy.store base 1
  serialno : rDst.serialno = copy.store.nextId
  isCopy : IsCopyOf copy.store base copy.src.serialno copy.type
    (copy.src.displayname.getD copy.segment) copy.store.nextId
  resourcetype : rDst.resourcetype = some .collection
  uncontrolled : controlsChildren rDst.avNewChildren = false
  rootPath : rDst.rootPath = some copy.rootPath
  uri : rDst.uri =
    some (copy.rootPath ++ (copy.collPath ++ '/' :: copy.segment))

section Root

variable {copy : Copy} {base : ContentStore} {rDst : DavReposResource}

theorem Copy.src_lt (copy : Copy) :
    copy.src.serialno < copy.store.nextId := by
  rcases GetResource.mem_of_typeOf copy.srcRow with ⟨row, listed, same⟩
  exact same ▸ (copy.store.ids row listed).2

/-- What is copied is there. -/
theorem Copy.mem_ids_of_inside
    (copy : Copy) {id : Id} (inside : id ∈ copy.inside) :
    id ∈ copy.store.resources.map ResourceRow.id := by
  rcases (@Multigraph.reaches_iff_last _ _ copy.graph copy.src.serialno id).mp
    inside with rfl | ⟨bind, present, -, rfl⟩
  · rcases GetResource.mem_of_typeOf copy.srcRow with ⟨row, listed, same⟩
    exact same ▸ List.mem_map_of_mem listed
  · exact (copy.constraints.1 bind present.1).2

theorem createdRoot
    {r parent : DavReposResource} {middle : ContentStore} {request : Request}
    (hasRoot : r.rootPath = some copy.rootPath)
    (hasUri : r.uri =
      some (copy.rootPath ++ (copy.collPath ++ '/' :: copy.segment)))
    (isName : r.displayname = copy.src.displayname)
    (uncontrolled : controlsChildren parent.avNewChildren = false)
    (below : InsertedBelow request copy.store middle parent .collection r
      rDst)
    (copied : sabridgeCopyDeadProps middle copy.src.serialno rDst.serialno =
      .ok base) :
    CreatedRoot copy base rDst := by
  have serialno := below.serialno
  have differ : copy.src.serialno ≠ rDst.serialno := by
    rw [serialno]
    exact Int.ne_of_lt copy.src_lt
  have properties := propertiesOf_sabridgeCopyDeadProps copied
  have otherProperties := fun id =>
    @propertiesOf_sabridgeCopyDeadProps_of_ne _ _ _ _ id copied
  have contents := below.grows.contents copy.src.serialno copy.src_lt
  rcases sabridgeCopyDeadProps_eq_ok copied with ⟨dead, rows, rfl, -⟩
  have sameGraph := sameGraph_contents middle middle.media dead rows
    middle.files
  constructor
  case grows =>
    apply grows_of_copied below.grows serialno sameGraph ?_ rfl id
    intro other differs
    apply Content.ext
    · rfl
    · rfl
    · exact otherProperties other differs
  case serialno => exact serialno
  case resourcetype => exact below.resourcetype
  case uncontrolled =>
    rw [below.avNewChildren, if_pos (Or.inl rfl)]
    exact uncontrolled
  case rootPath => exact below.rootPath.trans hasRoot
  case uri => exact below.uri.trans hasUri
  case isCopy =>
    rw [← serialno]
    constructor
    case isType =>
      rw [GetResource.typeOf_of_sameGraph sameGraph, serialno, below.isType,
        copy.isColl]
      rfl
    case displayname =>
      have named : middle.displayname rDst.serialno = rDst.displayname := by
        rw [serialno]
        exact below.isName
      have prepare : (prepared request (some parent) r).displayname =
          some (copy.src.displayname.getD copy.segment) := by
        simp only [prepared, isName, hasUri, Option.some.injEq]
        cases copy.src.displayname with
        | some name => rfl
        | none =>
            rw [← List.append_assoc]
            exact basename_append_segment copy.isSegment
      show middle.displayname rDst.serialno = _
      rw [named, below.displayname, prepare]
    case properties =>
      rw [if_neg differ] at properties
      exact properties.trans (congrArg Content.properties contents)
    case media =>
      intro isMedium
      rw [copy.isColl] at isMedium
      cases isMedium

/-- The new collection as the loop over the members takes it. -/
def CreatedRoot.freshCopy (created : CreatedRoot copy base rDst) :
    FreshCopy where
  setting := copy.setting
  base := base
  constraints := Constraints.of_grows copy.constraints created.grows
  rSrc := chomped copy.src
  rDst := rDst
  type := copy.type
  srcUri := Search.chompSlash copy.srcUri
  rootPath := copy.rootPath
  collPath := copy.collPath
  coll := copy.coll
  segment := copy.segment
  isColl := copy.isColl
  srcType := copy.srcType
  srcIsUri := by rw [chomped, copy.srcIsUri, Option.map_some]
  srcEnds := noTrail_chompSlash copy.srcUri
  srcRow := created.grows.typeOf copy.srcRow
  srcOther := by
    rw [created.serialno]
    exact Int.ne_of_lt copy.src_lt
  dstType := created.resourcetype
  dstPresent := by
    rw [created.serialno, created.grows.nextId]
    exact Int.lt_add_one_of_le le_rfl
  dstUnbound := by
    rw [created.grows.binds, created.serialno]
    intro bind listed
    exact Int.ne_of_lt (lt_nextId (copy.constraints.1 bind listed).1)
  dstRoot := created.rootPath
  dstUri := created.uri
  uncontrolled := created.uncontrolled
  collLeads := by
    rw [created.grows.binds]
    exact copy.collLeads
  collPlain := by
    rcases copy.exists_collRow with ⟨row, listed, isId, isColl⟩
    have isType := created.grows.typeOf (GetResource.typeOf_of_mem listed)
    rcases GetResource.mem_of_typeOf isType with ⟨other, isOther, same⟩
    have sameType : other.type = row.type := by
      have otherType := GetResource.typeOf_of_mem isOther
      rw [same, isType] at otherType
      exact (Option.some.inj otherType).symm
    refine ⟨other, isOther, same.trans isId, ?_⟩
    intro redirect
    rw [← sameType, redirect] at isColl
    cases isColl
  missing := by
    rw [created.grows.binds]
    exact copy.missing
  isSegment := copy.isSegment
  segments := by
    rw [created.grows.binds]
    exact copy.segments

theorem CreatedRoot.readableGraph_eq (created : CreatedRoot copy base rDst) :
    readableGraph base created.freshCopy.readable = copy.graph :=
  readableGraph_of_grows copy.constraints created.grows copy.readable

/-- The binds that are listed are those of what is copied. -/
theorem CreatedRoot.lists_iff
    (created : CreatedRoot copy base rDst) {bind : Bind} :
    created.freshCopy.Lists bind ↔
      copy.graph.Arrow bind ∧ bind.collectionId ∈ copy.inside := by
  have listed := @listed_iff created.freshCopy bind
  rw [show readableGraph created.freshCopy.base created.freshCopy.readable =
    copy.graph from created.readableGraph_eq] at listed
  exact listed

theorem CreatedRoot.covers_iff
    (created : CreatedRoot copy base rDst) {id : Id} :
    created.freshCopy.Covers id ↔ id ∈ copy.inside := by
  have last := @Multigraph.reaches_iff_last _ _ copy.graph copy.src.serialno id
  constructor
  · rintro (isStart | ⟨bind, lists, same⟩)
    · exact last.mpr (Or.inl isStart)
    · have listed := created.lists_iff.mp lists
      exact last.mpr (Or.inr ⟨bind, listed.1, listed.2, same⟩)
  · intro inside
    rcases last.mp inside with isStart | ⟨bind, present, reached, same⟩
    · exact Or.inl isStart
    · exact Or.inr ⟨bind, created.lists_iff.mpr ⟨present, reached⟩, same⟩

/-- The members below the new collection, and its bind. -/
theorem CreatedRoot.copiesTree
    (created : CreatedRoot copy base rDst)
    {below after : ContentStore} {image : Id → Id}
    (copied : CopiedBelow created.freshCopy below image)
    {binds : BridgeMkcol.BindSequence}
    (isAfter : after = RestoreVcc.withBinds below binds)
    (isBound : IsBoundAs below after copy.coll rDst.serialno copy.segment) :
    CopiesTree copy after image := by
  rcases isBound with ⟨top, rows, topColl, topResource, topName⟩
  have isRoot : image copy.src.serialno = copy.store.nextId :=
    copied.root.trans created.serialno
  have isNew : ∀ id ∈ copy.inside, copy.store.nextId ≤ image id := by
    intro id inside
    by_cases isStart : id = copy.src.serialno
    · rw [isStart, isRoot]
    · have le := copied.fresh id (created.covers_iff.mpr inside) isStart
      have grown : created.freshCopy.base.nextId = copy.store.nextId + 1 :=
        created.grows.nextId
      rw [grown] at le
      exact Int.le_of_lt (Int.lt_of_add_one_le le)
  have old : ∀ bind ∈ copy.store.binds.rows, ∀ id ∈ copy.inside,
      bind.collectionId ≠ image id := by
    intro bind listed id inside
    exact Int.ne_of_lt (lt_of_lt_of_le
      (lt_nextId (copy.constraints.1 bind listed).1) (isNew id inside))
  have baseBinds : created.freshCopy.base.binds.rows = copy.store.binds.rows :=
    congrArg BindTable.rows created.grows.binds
  have keepsBelow : Keeps below after := by
    rw [isAfter] at rows ⊢
    exact (Grows.refl below).keeps.withBinds ⟨[top], rows.symm⟩
  constructor
  case keeps =>
    have keeps : Keeps copy.store below := by
      apply created.grows.keeps.trans ?_ copied.keeps
      rw [created.grows.nextId]
      exact Int.le_of_lt (Int.lt_add_one_of_le le_rfl)
    rw [isAfter] at rows ⊢
    exact keeps.withBinds ⟨[top], rows.symm⟩
  case isNew => exact isNew
  case isCopy =>
    constructor
    case injective =>
      intro first isFirst second isSecond same
      exact copied.injective (created.covers_iff.mpr isFirst)
        (created.covers_iff.mpr isSecond) same
    case closed => exact fun bind present inside => inside.tail present
    case complete =>
      intro bind present inside
      rcases copied.complete bind (created.lists_iff.mpr ⟨present, inside⟩)
        with ⟨twin, listed, triple⟩
      rcases Prod.mk.inj triple with ⟨coll, rest⟩
      rcases Prod.mk.inj rest with ⟨name, resource⟩
      refine ⟨twin, ?_, coll, resource, name⟩
      show twin ∈ after.binds.rows
      rw [rows]
      exact List.mem_append_left _ listed
    case sound =>
      intro twin id present inside leaves
      have listed : twin ∈ below.binds.rows ++ [top] := rows ▸ present
      rcases List.mem_append.mp listed with isBelow | isTop
      · rcases copied.sound twin isBelow with isOld | ⟨bind, lists, triple⟩
        · exact absurd leaves (old twin (baseBinds ▸ isOld) id inside)
        · rcases Prod.mk.inj triple with ⟨coll, rest⟩
          rcases Prod.mk.inj rest with ⟨name, resource⟩
          have isListed := created.lists_iff.mp lists
          refine ⟨bind, isListed.1, ?_, resource, name.symm⟩
          exact copied.injective (created.covers_iff.mpr isListed.2)
            (created.covers_iff.mpr inside) (coll.symm.trans leaves)
      · rcases List.mem_singleton.mp isTop with rfl
        have isNewColl := isNew id inside
        have isColl : twin.collectionId = image id := leaves
        rw [← isColl, topColl] at isNewColl
        exact absurd copy.coll_lt (Int.not_lt.mpr isNewColl)
  case root =>
    rw [isRoot]
    exact (created.isCopy.mono copied.keeps).mono keepsBelow
  case contents =>
    intro id inside other
    rcases copied.contents id (created.covers_iff.mpr inside) other with
      ⟨type, isType, copyable, isCopy⟩
    have present := copy.mem_ids_of_inside inside
    have content := created.grows.contents id (lt_nextId present)
    have displayname : created.freshCopy.base.displayname id =
        copy.store.displayname id :=
      congrArg Content.displayname content
    rw [displayname] at isCopy
    refine ⟨type, ?_, copyable, ?_⟩
    · rw [← typeOf_of_grows created.grows present]
      exact isType
    · exact (isCopy.of_grows created.grows (lt_nextId present)).mono
        keepsBelow
  case bound =>
    refine ⟨top, ?_, Prod.ext topColl topName, ?_⟩
    · rw [rows]
      exact List.mem_append_right _ (List.mem_singleton_self top)
    · rw [topResource, isRoot, created.serialno]
  case others =>
    intro bind listed
    rw [rows] at listed
    rcases List.mem_append.mp listed with isBelow | isTop
    · rcases copied.sound bind isBelow with isOld | ⟨first, lists, triple⟩
      · exact Or.inl (baseBinds ▸ isOld)
      · have isListed := created.lists_iff.mp lists
        exact Or.inr (Or.inr ⟨first.collectionId, isListed.2,
          (Prod.mk.inj triple).1⟩)
    · rcases List.mem_singleton.mp isTop with rfl
      exact Or.inr (Or.inl (Prod.ext topColl topName))

end Root

/-! ## The function -/

section Copies

variable {copy : Copy} {copied : Copied}

/-- Names that the statement for the binds does not garble. -/
def Copy.HasPlainNames (copy : Copy) : Prop :=
  ∀ bind, copy.graph.Arrow bind → bind.collectionId ∈ copy.inside →
    '?' ∉ bind.name ∧ DbmsDbd.quote ∉ bind.name

theorem Copy.returns_copyCollWCreate
    {r : DavReposResource}
    (plain : copy.HasPlainNames)
    (isNew : r.serialno = 0)
    (hasRoot : r.rootPath = some copy.rootPath)
    (hasUri : r.uri =
      some (copy.rootPath ++ (copy.collPath ++ '/' :: copy.segment)))
    (isName : r.displayname = copy.src.displayname) :
    Returns (fun copied =>
        copied.response = [] ∧ ∃ image, CopiesTree copy copied.store image)
      (sabridgeCopyCollWCreate copy.setting copy.store (chomped copy.src) r
        true) := by
  unfold sabridgeCopyCollWCreate
  rw [if_neg fun holds => holds.1 isNew]
  refine (returns_createCollection _ _ r).bind ?_
  rintro ⟨dstParent, middle, rDst⟩ created
  rcases copy.createCollection_spec hasRoot hasUri created with
    ⟨isColl, parent, uncontrolled, below⟩
  let isMade (copied : Copied) : Prop :=
    copied.response = [] ∧ ∃ base, ∃ root : CreatedRoot copy base rDst,
      ∃ image, CopiedBelow root.freshCopy copied.store image
  refine @Returns.bind _ _ isMade _ _ _ ?_ ?_
  · refine (returns_ofBridge _).bind fun base copiedDead => ?_
    have root : CreatedRoot copy base rDst :=
      createdRoot hasRoot hasUri isName uncontrolled below copiedDead
    have plainNames : ∀ bind, root.freshCopy.Lists bind →
        '?' ∉ bind.name ∧ DbmsDbd.quote ∉ bind.name := by
      intro bind lists
      have listed := root.lists_iff.mp lists
      exact plain bind listed.1 listed.2
    have returns := @returns_depthInfCopyColl root.freshCopy plainNames
    rw [if_pos rfl]
    refine returns.of_ok fun copied content => ?_
    rcases returns.spec copied content with ⟨noResponse, image, isBelow⟩
    exact ⟨noResponse, base, root, image, isBelow⟩
  · rintro ⟨after, response⟩ ⟨noResponse, base, root, image, isBelow⟩
    dsimp only
    rw [if_neg (not_not.mpr isNew)]
    refine (returns_ofBridge _).bind fun last inserted => ?_
    refine returns_ok ⟨noResponse, image, ?_⟩
    have isInserted := mapError_eq_ok.mp inserted
    have segment : basename (rDst.uri.getD []) =
        copy.segment := by
      rw [root.uri, Option.getD_some, ← List.append_assoc]
      exact basename_append_segment copy.isSegment
    rw [segment, isColl] at isInserted
    rcases dbmsInsertBind_eq_ok isInserted with ⟨⟨binds, isAfter⟩, isBound⟩
    exact root.copiesTree isBelow isAfter isBound

theorem returns_davReposCheckDstParent
    (libraries : Libraries) (store : ContentStore) (dst : DavReposResource) :
    Returns
      (fun parent => davReposCheckDstParent libraries store dst = .ok parent)
      (davReposCheckDstParent libraries store dst) := by
  have returns : Returns (fun _ => True)
      (davReposCheckDstParent libraries store dst) := by
    unfold davReposCheckDstParent
    split
    next => exact returns_error nofun
    next =>
        split
        next => exact returns_error nofun
        next =>
            split
            next => exact returns_error nofun
            next => exact returns_error nofun
            next =>
                split
                next => exact returns_error nofun
                next => exact returns_ok trivial
  exact returns.of_ok fun _ same => same

/-- A recursive copy is that of a collection. -/
theorem Copy.returns_copyResource
    {post : Copied → Prop}
    (returns : ∀ r : DavReposResource, r.serialno = 0 →
      r.rootPath = some copy.rootPath →
      r.uri =
        some (copy.rootPath ++ (copy.collPath ++ '/' :: copy.segment)) →
      r.displayname = copy.src.displayname →
        Returns post (sabridgeCopyCollWCreate copy.setting copy.store
          (chomped copy.src) r true)) :
    Returns post (davReposCopyResource copy.setting copy.store copy.src
      copy.dst true) := by
  have noMedium : isMedium copy.src.resourcetype = false := by
    rw [copy.srcType, Bool.eq_false_iff]
    intro medium
    have noColl := isCollection_of_isMedium medium
    rw [copy.isColl] at noColl
    cases noColl
  have isColl : isCollection copy.src.resourcetype = true := by
    rw [copy.srcType, isCollection_some]
    exact copy.isColl
  unfold davReposCopyResource
  simp only [noMedium, isColl, Bool.false_eq_true, if_false, if_true]
  split
  next => exact returns_error nofun
  next =>
      refine (returns_davReposCheckDstParent _ _ _).bind fun parent _ => ?_
      split
      next => exact returns_error nofun
      next =>
          exact returns _ copy.dstUnknown copy.dstRoot
            copy.uri_chomped rfl

theorem leads_iff_spells
    (table : BindTable) {fromResId toResId : Id} {names : List Text} :
    ReverseLookup.Leads table.rows fromResId names toResId ↔
      (bindGraph table.rows).Spells Bind.name fromResId names toResId := by
  constructor
  · exact ReverseLookup.exists_trail_of_leads table
  · rintro ⟨chain, trail, rfl⟩
    exact ReverseLookup.leads_of_trail table trail

/-- Names that led somewhere lead there when there are more binds. -/
theorem leads_of_rows
    {table after : BindTable} {fromResId toResId : Id} {names : List Text}
    (more : table.rows <+: after.rows)
    (leads : ReverseLookup.Leads table.rows fromResId names toResId) :
    ReverseLookup.Leads after.rows fromResId names toResId := by
  rw [leads_iff_spells] at leads ⊢
  exact leads.mono (fun bind listed => more.subset listed) rfl rfl

/-- From the URI of the destination the names lead to the copies. -/
theorem CopiesTree.leads_iff
    {after : ContentStore} {image : Id → Id} {names : List Text}
    {copyId : Id}
    (tree : CopiesTree copy after image) :
    ReverseLookup.Leads after.binds.rows rootCollectionId
        (Segments.tokens '/' copy.collPath ++ copy.segment :: names)
        copyId ↔
      ∃ id ∈ copy.inside, image id = copyId ∧
        copy.graph.Spells Bind.name copy.src.serialno names id := by
  have toColl : ReverseLookup.Leads after.binds.rows rootCollectionId
      (Segments.tokens '/' copy.collPath) copy.coll :=
    leads_of_rows tree.keeps.binds
      ⟨copy.collLeads.whole, copy.collLeads.ends⟩
  rcases tree.bound with ⟨top, listed, isKey, isRoot⟩
  rcases Prod.mk.inj isKey with ⟨isColl, isName⟩
  have within : copy.src.serialno ∈ copy.inside :=
    Multigraph.Reaches.refl _ _
  rw [← tree.isCopy.spells_iff within, leads_iff_spells,
    Multigraph.spells_append]
  constructor
  · rintro ⟨middle, first, second⟩
    have same : middle = copy.coll :=
      ((leads_iff_spells _).mpr first).2.symm.trans toColl.2
    rcases Multigraph.spells_cons.mp second with
      ⟨bind, present, leaves, named, onward⟩
    have equal : bind = top := by
      apply List.inj_on_of_nodup_map after.binds.collectionIdKey present listed
      exact Prod.ext ((leaves.trans same).trans isColl.symm)
        (named.trans isName.symm)
    rw [← isRoot, ← equal]
    exact onward
  · intro onward
    refine ⟨copy.coll, (leads_iff_spells _).mp toColl,
      Multigraph.spells_cons.mpr ⟨top, listed, isColl, isName, ?_⟩⟩
    show Multigraph.Spells _ _ top.resourceId _ _
    rw [isRoot]
    exact onward

/--
After a recursive copy the URIs below the destination lead to new resources,
exactly where the names lead to what is copied; the URIs that resolved resolve
as before.
-/
theorem copyResource_leads
    (plain : copy.HasPlainNames) :
    Returns (fun copied => ∃ image : Id → Id,
        Set.InjOn image copy.inside ∧
        (∀ id ∈ copy.inside, copy.store.nextId ≤ image id) ∧
        (∀ names copyId,
          ReverseLookup.Leads copied.store.binds.rows rootCollectionId
              (Segments.tokens '/' copy.collPath ++ copy.segment :: names)
              copyId ↔
            ∃ id ∈ copy.inside, image id = copyId ∧
              copy.graph.Spells Bind.name copy.src.serialno names id) ∧
        (∀ names id,
          ReverseLookup.Leads copy.store.binds.rows rootCollectionId names
              id →
            ReverseLookup.Leads copied.store.binds.rows rootCollectionId
              names id))
      (davReposCopyResource copy.setting copy.store copy.src copy.dst
        true) := by
  apply Copy.returns_copyResource
  intro r isNew hasRoot hasUri isName
  have returns :=
    Copy.returns_copyCollWCreate plain isNew hasRoot hasUri isName
  refine returns.of_ok fun copied done => ?_
  rcases returns.spec copied done with ⟨-, image, tree⟩
  exact ⟨image, tree.isCopy.injective, tree.isNew,
    fun names copyId => tree.leads_iff,
    fun names id => leads_of_rows tree.keeps.binds⟩

end Copies

/-! ## Media -/

/-- A medium that is copied to a URI at which a collection has no member. -/
structure MediumCopy extends Target where
  src : DavReposResource
  type : ResourceType
  medium : isMedium (some type) = true
  srcType : src.resourcetype = some type
  srcRow : typeOf store src.serialno = some type

section Media

variable {target : Target} {copied : Copied}

theorem MediumCopy.src_lt (copy : MediumCopy) :
    copy.src.serialno < copy.store.nextId := by
  rcases GetResource.mem_of_typeOf copy.srcRow with ⟨row, listed, same⟩
  exact same ▸ (copy.store.ids row listed).2

end Media

/-! ## A collection that is its own member -/

section Examples

open RestoreVcc (namedRow someRequest)

/-- The collection `/a` with the medium `/a/x` and with itself as `/a/up`. -/
def loopStore : ContentStore where
  binds :=
    { rows := [⟨1, "a".toList, 2, 10, none⟩, ⟨2, "x".toList, 10, 11, none⟩,
        ⟨3, "up".toList, 10, 10, none⟩]
      pkey := by decide
      collectionIdKey := by decide
      positive := by decide }
  resources :=
    [namedRow 2 "" .collection, namedRow 10 "a" .collection,
      namedRow 11 "x" .resource]
  redirectrefs := []
  collections := []
  media := [⟨11, 1, none, "c".toList⟩]
  principals := []
  versions := []
  vhrs := []
  vcrs := []
  nextId := 21
  nextIdPos := by decide
  ids := by decide
  pkey := by decide
  nextBindId := 31
  nextBindIdPos := by decide
  bindIds := by decide
  dead :=
    { properties := []
      nextId := 1
      namespaces := []
      resources := [2, 10, 11]
      namespaceKeys := List.nodup_nil
      namespaceExists := DbmsProperties.noProperties_namespaceExists }
  deadResources := by decide
  files := ["c".toList]

/-- Everyone may read all that is below the root collection. -/
def readAll : DbmsAcl.AclTables where
  __ := DbmsAcl.noEntries
  aces := [⟨1, 'G', false, rootCollectionId, 3⟩]
  davAcesPrivileges := [(1, 5)]
  aclPrivileges := [⟨5, "read".toList, 1, 1, 2⟩]
  aclInheritance := [⟨2, [2]⟩, ⟨10, [2, 10]⟩, ⟨11, [2, 10, 11]⟩]
  acesPkey := by decide
  aclPrivilegesPkey := by decide
  aclPrivilegesName := by decide
  aclInheritancePkey := by decide
  fkPrivilegeNamespace := by decide

def exampleSetting : Setting where
  libraries := VersionLinks.apacheLibraries
  request := someRequest
  newUuid := fun id => (toString id).toList
  updatedAt :=
    ⟨"2007-01-01 00:00:00".toList, by simp [Char.isDigit], by simp⟩
  acl := readAll
  principal := .all
  order := Sql.RowOrder.stored _

/-- The record of `/a`, and that of the new URI `/z`. -/
def recordA : DavReposResource where
  serialno := 10
  rootPath := some []
  uri := some "/a".toList
  bindId := 1
  resourcetype := some .collection
  displayname := some "a".toList

def recordB : DavReposResource where
  rootPath := some []
  uri := some "/z".toList

theorem isCollection_recordA : ResourceType.collection.isCollection = true :=
  rfl

/-- The copy of `/a` to `/z`. -/
def copyLoop : Copy where
  setting := exampleSetting
  store := loopStore
  src := recordA
  dst := recordB
  type := .collection
  srcUri := "/a".toList
  rootPath := []
  collPath := []
  coll := 2
  segment := "z".toList
  constraints := by decide
  segments := by
    show ∀ bind ∈ loopStore.binds.rows, bind.name ≠ [] ∧ '/' ∉ bind.name
    decide
  isColl := isCollection_recordA
  srcType := rfl
  srcIsUri := rfl
  srcRow := by decide
  rootEnds := nofun
  isSegment := ⟨by decide, by decide⟩
  collLeads := ⟨by decide, by decide, by decide⟩
  collType := by decide
  missing := by decide
  uncontrolled := nofun
  dstUnknown := rfl
  dstRoot := rfl
  dstUri := by decide

theorem hasPlainNames_copyLoop : copyLoop.HasPlainNames := by
  have plain : ∀ bind ∈ loopStore.binds.rows,
      '?' ∉ bind.name ∧ DbmsDbd.quote ∉ bind.name := by
    decide
  exact fun bind present _ => plain bind present.1

theorem exists_ok_of_isOk
    {call : Except Stop Copied} (isOk : call.isOk = true) :
    ∃ copied, call = .ok copied := by
  cases call with
  | ok copied => exact ⟨copied, rfl⟩
  | error stop => cases isOk

theorem exists_copied :
    ∃ copied, davReposCopyResource exampleSetting loopStore recordA recordB
      true = .ok copied := by
  apply exists_ok_of_isOk
  decide +kernel

theorem leads_copyLoop :
    ∃ copied, davReposCopyResource exampleSetting loopStore recordA recordB
        true = .ok copied ∧
      ∃ image : Id → Id, Set.InjOn image copyLoop.inside ∧
        (∀ id ∈ copyLoop.inside, 21 ≤ image id) ∧
        (∀ names copyId,
          ReverseLookup.Leads copied.store.binds.rows rootCollectionId
              ("z".toList :: names) copyId ↔
            ∃ id ∈ copyLoop.inside, image id = copyId ∧
              copyLoop.graph.Spells Bind.name 10 names id) ∧
        (∀ names id,
          ReverseLookup.Leads loopStore.binds.rows rootCollectionId names
              id →
            ReverseLookup.Leads copied.store.binds.rows rootCollectionId names
              id) := by
  rcases exists_copied with ⟨copied, done⟩
  exact ⟨copied, done, (copyResource_leads
    hasPlainNames_copyLoop).spec copied done⟩

/-- The medium `/a/x`, which is copied to `/z`. -/
def copyMember : MediumCopy where
  toTarget := copyLoop.toTarget
  src :=
    { serialno := 11
      rootPath := some []
      uri := some "/a/x".toList
      bindId := 2
      resourcetype := some .resource
      displayname := some "x".toList
      getcontentlength := 1
      sha1str := some "c".toList }
  type := .resource
  medium := rfl
  srcType := rfl
  srcRow := by decide

end Examples

end Limestone.CopyResource
