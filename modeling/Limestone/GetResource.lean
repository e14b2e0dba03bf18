import Limestone.CopyMedium
import Limestone.RedirectTarget

/-!
# The record of a request: `dav_repos_get_resource`

A request brings a URI, and all that is known of its resource is read through
`sabridge_get_property`.  Where the URI resolves as a whole, the name is the one
in `resources`, the hash the one in `media`, and the state of a resource under
version control the one in `vcrs`.
-/

namespace Limestone.GetResource

open Library
open BridgeMkcol (Stop)
open BridgeProperty hiding sabridgeGetProperty
open CopyMedium
open DbmsBind
open DbmsDeltav (Vcr Version)
open DbmsLookup

/-- The URI resolves as a whole, and its last bind leads to the resource. -/
structure LeadsTo (binds : List Bind) (uri : Text) (id : Id) : Prop where
  noQuestion : '?' ∉ uri
  whole : (UriLookup.walk binds rootCollectionId
    (Segments.tokens '/' uri)).length = (Segments.tokens '/' uri).length
  ends : (UriLookup.walk binds rootCollectionId
    (Segments.tokens '/' uri)).getLast?.getD rootCollectionId = id

/-- The record for a URI, as `dav_repos_get_resource` reads it. -/
def getResource (store : ContentStore) (rootPath uri : Text) :
    Except Stop DavReposResource :=
  sabridgeGetProperty store (newResource rootPath (rootPath ++ uri))

/-- The record of a URI, its id being known. -/
def identified (rootPath uri : Text) (id : Id) : DavReposResource :=
  { newResource rootPath (rootPath ++ uri) with serialno := id }

/-! ## The lookup -/

section Lookup

variable {store : ContentStore} {rootPath uri : Text} {id : Id}

theorem exists_bind_of_leadsTo
    (table : BindTable) (lastModified : Id → Option Text)
    (leads : LeadsTo table.rows uri id) :
    ∃ bind, dbmsLookupUri false table.rows lastModified uri = .found bind ∧
      bind.resourceId = id := by
  have notInPart : ¬ UriLookup.ResolvesInPart table.rows uri :=
    fun inPart => Nat.ne_of_lt inPart.2 leads.whole
  rcases (UriLookup.lookupAgrees_iff table false lastModified uri).mpr
    ⟨leads.noQuestion, Or.inr (Or.inr notInPart)⟩ with ⟨noError, agrees⟩
  have agreement := agrees fun err failed =>
    Bool.false_ne_true (noError err failed)
  rcases agreement.complete leads.whole with ⟨bind, found, isId, -⟩
  exact ⟨bind, found, isId.trans leads.ends⟩

/-- The id of a resource that a URI leads to. -/
theorem LeadsTo.positive
    {table : BindTable} (leads : LeadsTo table.rows uri id) : 0 < id := by
  rw [← leads.ends, UriLookup.walk_eq, List.getLast?_map]
  cases ends : (UriLookup.walkBinds table.rows rootCollectionId
      (Segments.tokens '/' uri)).getLast? with
  | none => decide
  | some last =>
      have member := List.mem_of_getLast? ends
      exact (table.positive last
        (UriLookup.mem_of_mem_walkBinds member)).2

/-- A URI that leads to a resource is read as the resource with the id. -/
theorem getLookedUp_of_leadsTo
    {tables : PropertyTables}
    (r : DavReposResource)
    (leads : LeadsTo tables.binds.rows uri id) :
    ∃ bind, getLookedUp false tables r
        (dbmsLookupUri false tables.binds.rows (lastmodified tables) uri) =
      getPropertyOf false tables { r with serialno := id } (some bind)
        false := by
  rcases exists_bind_of_leadsTo tables.binds (lastmodified tables) leads with
    ⟨bind, found, isId⟩
  refine ⟨bind, ?_⟩
  have positive := leads.positive
  have listed : bind.resourceId ≠ -1 :=
    isId ▸ Int.ne_of_gt (Int.lt_trans (by decide) positive)
  have selected : (if bind.resourceId = -1 then bind.parentId
      else bind.resourceId) = id :=
    (if_neg listed).trans isId
  have isBind : (bind.resourceId == -1) = false :=
    beq_eq_false_iff_ne.mpr listed
  rw [found]
  unfold getLookedUp
  simp only
  rw [isBind, selected]
  exact if_neg (Int.ne_of_gt positive)

theorem getResource_of_leadsTo
    (leads : LeadsTo store.binds.rows uri id) :
    ∃ bind, getResource store rootPath uri =
      match getPropertyOf false store.toPropertyTables
          (identified rootPath uri id) (some bind) false with
      | .undefined => .error .nullDereference
      | .returned r err => returned err r := by
  rcases @getLookedUp_of_leadsTo uri id store.toPropertyTables
    (newResource rootPath (rootPath ++ uri)) leads with ⟨bind, looked⟩
  refine ⟨bind, ?_⟩
  unfold getResource sabridgeGetProperty
  rewrite [RedirectTarget.sabridgeGetProperty_newResource, looked]
  rfl

end Lookup

/-! ## What the queries leave -/

section Queries

variable {tables : PropertyTables} {r : DavReposResource}

/-- Id, name and type are the same. -/
structure SameResource (r record : DavReposResource) : Prop where
  serialno : record.serialno = r.serialno
  rootPath : record.rootPath = r.rootPath
  displayname : record.displayname = r.displayname
  resourcetype : record.resourcetype = r.resourcetype

/-- The row of `resources` that a record has been read from. -/
structure RowColumns where
  id : Id
  resourcetype : Option ResourceType
  createdAt : Option Text
  displayname : Option Text
  getcontentlanguage : Option Text
  ownerId : Id
  comment : Option Text
  creatorId : Id
  uuid : Option Text
  limebarState : Option Text
deriving DecidableEq, Repr

/-- The row of `resources` as a record has it. -/
def recordColumns (r : DavReposResource) : RowColumns where
  id := r.serialno
  resourcetype := r.resourcetype
  createdAt := r.createdAt
  displayname := r.displayname
  getcontentlanguage := r.getcontentlanguage
  ownerId := r.ownerId
  comment := r.comment
  creatorId := r.creatorId
  uuid := r.uuid
  limebarState := r.limebarState

/-- The row of `resources` and the URI are the same. -/
structure KeepsRow (r record : DavReposResource) : Prop where
  columns : recordColumns record = recordColumns r
  rootPath : record.rootPath = r.rootPath
  uri : record.uri = r.uri

theorem KeepsRow.trans
    {middle record : DavReposResource}
    (first : KeepsRow r middle)
    (second : KeepsRow middle record) : KeepsRow r record where
  columns := second.columns.trans first.columns
  rootPath := second.rootPath.trans first.rootPath
  uri := second.uri.trans first.uri

theorem KeepsRow.sameResource
    {record : DavReposResource}
    (keeps : KeepsRow r record) : SameResource r record where
  serialno := congrArg RowColumns.id keeps.columns
  rootPath := keeps.rootPath
  displayname := congrArg RowColumns.displayname keeps.columns
  resourcetype := congrArg RowColumns.resourcetype keeps.columns

theorem keepsRow_extendReftarget (bind : Option DbmsBindList) :
    KeepsRow r (extendReftarget
      (dbmsGetRedirectProps false tables r).1 bind) := by
  have props : KeepsRow r (dbmsGetRedirectProps false tables r).1 := by
    unfold dbmsGetRedirectProps
    split
    · exact ⟨rfl, rfl, rfl⟩
    · split <;> exact ⟨rfl, rfl, rfl⟩
  cases bind with
  | none => exact props
  | some bind => exact props.trans ⟨rfl, rfl, rfl⟩

/-- The record after `dbms_get_collection_props`. -/
def collectionRecord (tables : PropertyTables) (r : DavReposResource) :
    DavReposResource :=
  match r.resourcetype with
  | some .collection | some .versionedCollection =>
      { (dbmsGetCollectionProps false tables r).1 with
        getcontenttype := some dirMagicType }
  | _ => r

theorem keepsRow_collectionRecord :
    KeepsRow r (collectionRecord tables r) := by
  have props : KeepsRow r (dbmsGetCollectionProps false tables r).1 := by
    unfold dbmsGetCollectionProps
    rw [if_neg Bool.false_ne_true]
    split <;> exact ⟨rfl, rfl, rfl⟩
  unfold collectionRecord
  split
  · exact props.trans ⟨rfl, rfl, rfl⟩
  · exact props.trans ⟨rfl, rfl, rfl⟩
  · exact ⟨rfl, rfl, rfl⟩

theorem keepsRow_dbmsGetMediaProps :
    KeepsRow r (dbmsGetMediaProps false tables r).1 := by
  unfold dbmsGetMediaProps
  split
  · rw [if_neg Bool.false_ne_true]
    split <;> exact ⟨rfl, rfl, rfl⟩
  · rw [if_neg Bool.false_ne_true]
    split <;> exact ⟨rfl, rfl, rfl⟩
  · rw [if_neg Bool.false_ne_true]
    split <;> exact ⟨rfl, rfl, rfl⟩
  · exact ⟨rfl, rfl, rfl⟩

theorem dbmsGetMediaProps_noError :
    (dbmsGetMediaProps false tables r).2 = none := by
  unfold dbmsGetMediaProps
  split
  · rw [if_neg Bool.false_ne_true]
    split <;> rfl
  · rw [if_neg Bool.false_ne_true]
    split <;> rfl
  · rw [if_neg Bool.false_ne_true]
    split <;> rfl
  · rfl

/-- Only the queries about versions return an error. -/
theorem getTypedProps_eq :
    getTypedProps false tables r =
      dbmsGetDeltavProps false tables
        (dbmsGetMediaProps false tables (collectionRecord tables r)).1 := by
  have noError : (dbmsGetCollectionProps false tables r).2 = none := by
    unfold dbmsGetCollectionProps
    rw [if_neg Bool.false_ne_true]
    split <;> rfl
  have media (r : DavReposResource) :
      ∃ read, dbmsGetMediaProps false tables r = (read, none) :=
    ⟨_, Prod.ext rfl dbmsGetMediaProps_noError⟩
  rcases props : dbmsGetCollectionProps false tables r with ⟨collected, err⟩
  rw [props] at noError
  cases noError
  rcases media { collected with getcontenttype := some dirMagicType } with
    ⟨readCollection, isCollection⟩
  rcases media r with ⟨read, isRead⟩
  unfold getTypedProps collectionRecord
  rcases r.resourcetype with _ | type
  · simp only [isRead]
  · cases type <;> simp only [props, isCollection, isRead]

theorem keepsRow_dbmsGetVcrProps :
    KeepsRow r (dbmsGetVcrProps false tables r).1 := by
  unfold dbmsGetVcrProps
  rw [if_neg Bool.false_ne_true]
  split
  · exact ⟨rfl, rfl, rfl⟩
  · unfold dbmsGetVersionNumber
    rw [if_neg Bool.false_ne_true]
    split <;> exact ⟨rfl, rfl, rfl⟩

theorem keepsRow_dbmsGetDeltavProps :
    KeepsRow r (dbmsGetDeltavProps false tables r).1 := by
  have creator (vr : DavReposResource) :
      KeepsRow vr (dbmsGetCreatorDisplayname false tables vr).1 := by
    unfold dbmsGetCreatorDisplayname
    rw [if_neg Bool.false_ne_true]
    exact ⟨rfl, rfl, rfl⟩
  have version :
      KeepsRow r (dbmsGetVersionResourceProps false tables r).1 := by
    unfold dbmsGetVersionResourceProps
    rw [if_neg Bool.false_ne_true]
    split <;> exact ⟨rfl, rfl, rfl⟩
  have root (vhr : DavReposResource) :
      KeepsRow vhr (dbmsGetVhrRootVersionId false tables vhr).1 := by
    unfold dbmsGetVhrRootVersionId
    rw [if_neg Bool.false_ne_true]
    split <;> exact ⟨rfl, rfl, rfl⟩
  unfold dbmsGetDeltavProps
  split
  · exact keepsRow_dbmsGetVcrProps
  · exact keepsRow_dbmsGetVcrProps
  · exact version.trans (creator _)
  · exact version.trans (creator _)
  · unfold dbmsGetVhrProps
    rw [if_neg Bool.false_ne_true]
    split
    · exact ⟨rfl, rfl, rfl⟩
    next row _ =>
        have read : KeepsRow r { r with
            vcrId := row.resourceId
            checkedState := row.checkedState
            checkedId := row.checkedId } :=
          ⟨rfl, rfl, rfl⟩
        exact read.trans (root _)
  · exact ⟨rfl, rfl, rfl⟩

theorem dbmsGetDeltavProps_of_versioned
    (versioned : r.resourcetype = some .versioned ∨
      r.resourcetype = some .versionedCollection) :
    dbmsGetDeltavProps false tables r = dbmsGetVcrProps false tables r := by
  unfold dbmsGetDeltavProps
  rcases versioned with type | type <;> rw [type]

theorem dbmsGetDeltavProps_noError
    (unversioned : ¬ (r.resourcetype = some .versioned ∨
      r.resourcetype = some .versionedCollection)) :
    (dbmsGetDeltavProps false tables r).2 = none := by
  unfold dbmsGetDeltavProps
  split
  next type => exact (unversioned (Or.inl type)).elim
  next type => exact (unversioned (Or.inr type)).elim
  · unfold dbmsGetCreatorDisplayname
    rw [if_neg Bool.false_ne_true]
  · unfold dbmsGetCreatorDisplayname
    rw [if_neg Bool.false_ne_true]
  · unfold dbmsGetVhrProps
    rw [if_neg Bool.false_ne_true]
    split
    · rfl
    · unfold dbmsGetVhrRootVersionId
      rw [if_neg Bool.false_ne_true]
      split <;> rfl
  · rfl

theorem keepsRow_getTypedProps :
    KeepsRow r (getTypedProps false tables r).1 := by
  rw [getTypedProps_eq]
  exact (keepsRow_collectionRecord.trans
    keepsRow_dbmsGetMediaProps).trans keepsRow_dbmsGetDeltavProps

/-- What is read behind the row of `resources`, the row is left as it is. -/
theorem keepsRow_getPropertyOf
    {record : DavReposResource} {bind : Option DbmsBindList}
    {err : Option DavError}
    (read : getPropertyOf false tables r bind false = .returned record err) :
    KeepsRow (dbmsGetResource false tables r).1 record := by
  unfold getPropertyOf at read
  dsimp only at read
  rw [if_neg fun both => Bool.false_ne_true both.1] at read
  rw [← (Outcome.returned.inj read).1]
  refine KeepsRow.trans ?_ keepsRow_getTypedProps
  cases bind with
  | none =>
      dsimp only
      split
      · exact keepsRow_extendReftarget _
      · exact ⟨rfl, rfl, rfl⟩
  | some bind =>
      have bound : KeepsRow (dbmsGetResource false tables r).1
          { (dbmsGetResource false tables r).1 with
            bindId := bind.bindId
            updatedAt := some bind.updatedAt } :=
        ⟨rfl, rfl, rfl⟩
      dsimp only
      split
      · exact bound.trans (keepsRow_extendReftarget _)
      · exact bound

end Queries

/-! ## Records -/

/-- The type of a resource. -/
def typeOf (store : ContentStore) (id : Id) : Option ResourceType :=
  (store.resources.find? fun row => row.id == id).map ResourceRow.type

/-- The number of the checked version is found, where it is looked for. -/
def IsNumbered (store : ContentStore) (id : Id) : Prop :=
  typeOf store id = some .versioned ∨
      typeOf store id = some .versionedCollection →
    ∀ vcr, (store.vcrs.find? fun row => row.resourceId == id) = some vcr →
      vcr.checkedId ∈ store.versions.map Version.resourceId

section Types

variable {store after : ContentStore} {id : Id}

/-- The type is read off the rows that the graph keeps. -/
theorem typeOf_eq (store : ContentStore) (id : Id) :
    typeOf store id =
      ((store.resources.map fun row => (row.id, row.type)).find?
        fun row => row.1 == id).map Prod.snd := by
  rw [typeOf, List.find?_map, Option.map_map]
  rfl

theorem typeOf_of_sameGraph (same : SameGraph store after) (id : Id) :
    typeOf after id = typeOf store id := by
  rw [typeOf_eq, typeOf_eq, same.types]

/-- The primary key: a row with the id has the type of the resource. -/
theorem typeOf_of_mem
    {row : ResourceRow} (listed : row ∈ store.resources) :
    typeOf store row.id = some row.type := by
  cases found : store.resources.find? fun other => other.id == row.id with
  | none =>
      exact absurd (beq_self_eq_true row.id)
        (List.find?_eq_none.mp found row listed)
  | some other =>
      have same := List.find?_some found
      rw [beq_iff_eq] at same
      have equal := List.inj_on_of_nodup_map store.pkey
        (List.mem_of_find?_eq_some found) listed same
      rw [typeOf, found, equal]
      rfl

theorem mem_of_typeOf
    {type : ResourceType} (isType : typeOf store id = some type) :
    ∃ row ∈ store.resources, row.id = id := by
  rcases Option.map_eq_some_iff.mp isType with ⟨row, found, -⟩
  have same := List.find?_some found
  exact ⟨row, List.mem_of_find?_eq_some found, beq_iff_eq.mp same⟩

/-- An id with a type is one of the sequence. -/
theorem typeOf_pos
    {id : Id} {type : ResourceType}
    (isType : typeOf store id = some type) : 0 < id := by
  rcases mem_of_typeOf isType with ⟨row, listed, same⟩
  exact same ▸ (store.ids row listed).1

theorem displayname_ne_none
    {type : ResourceType}
    (named : ∀ row ∈ store.resources, row.displayname ≠ none)
    (isType : typeOf store id = some type) :
    store.displayname id ≠ none := by
  rcases Option.map_eq_some_iff.mp isType with ⟨row, found, -⟩
  rw [ContentStore.displayname, found]
  exact named row (List.mem_of_find?_eq_some found)

end Types

/-- The `displayname` that is read of a resource. -/
def readDisplayname (store : ContentStore) (id : Id) : Option Text :=
  (store.resources.find? fun row => row.id == id).bind fun row =>
    columnText row.displayname

/-- Where no `displayname` is NULL, each is read as it is. -/
theorem readDisplayname_eq
    {store : ContentStore}
    (named : ∀ row ∈ store.resources, row.displayname ≠ none) (id : Id) :
    readDisplayname store id = store.displayname id := by
  rw [readDisplayname, ContentStore.displayname]
  cases found : store.resources.find? fun row => row.id == id with
  | none => rfl
  | some row =>
      rcases Option.ne_none_iff_exists'.mp
        (named row (List.mem_of_find?_eq_some found)) with ⟨name, isName⟩
      rw [Option.bind_some, Option.bind_some, columnText, isName]
      rfl

/-- What every record has of its resource. -/
structure IsRecordOf (store : ContentStore) (rootPath : Text) (id : Id)
    (record : DavReposResource) : Prop where
  serialno : record.serialno = id
  rootPath : record.rootPath = some rootPath
  displayname : record.displayname = readDisplayname store id
  resourcetype : record.resourcetype = typeOf store id

section Records

variable {store : ContentStore} {rootPath uri : Text} {id : Id}
  {r : DavReposResource}

/-- A record that nothing has been read into. -/
structure IsBlank (rootPath : Text) (id : Id) (r : DavReposResource) :
    Prop where
  serialno : r.serialno = id
  rootPath : r.rootPath = some rootPath
  displayname : r.displayname = none
  resourcetype : r.resourcetype = none
  sha1str : r.sha1str = none

theorem isBlank_identified : IsBlank rootPath id (identified rootPath uri id) :=
  ⟨rfl, rfl, rfl, rfl, rfl⟩

/-- The record before the queries that depend on the type. -/
def boundRecord (store : ContentStore) (r : DavReposResource)
    (bind : Option DbmsBindList) : DavReposResource :=
  let r := (dbmsGetResource false store.toPropertyTables r).1
  let r : DavReposResource :=
    match bind with
    | none => r
    | some bind =>
        { r with bindId := bind.bindId, updatedAt := some bind.updatedAt }
  if r.resourcetype = some .redirect then
    extendReftarget (dbmsGetRedirectProps false store.toPropertyTables r).1
      bind
  else r

theorem getPropertyOf_eq (r : DavReposResource) (bind : Option DbmsBindList) :
    getPropertyOf false store.toPropertyTables r bind false =
      .returned
        (getTypedProps false store.toPropertyTables
          (boundRecord store r bind)).1
        (getTypedProps false store.toPropertyTables
          (boundRecord store r bind)).2 := by
  unfold getPropertyOf boundRecord
  exact if_neg fun both => Bool.false_ne_true both.1

theorem isRecordOf_dbmsGetResource (blank : IsBlank rootPath id r) :
    IsRecordOf store rootPath id
      (dbmsGetResource false store.toPropertyTables r).1 := by
  unfold dbmsGetResource
  rw [if_neg Bool.false_ne_true, blank.serialno]
  cases found : store.resources.find? fun row => row.id == id with
  | none =>
      constructor
      · exact blank.serialno
      · exact blank.rootPath
      · rw [readDisplayname, found]
        exact blank.displayname
      · rw [typeOf, found]
        exact blank.resourcetype
  | some row =>
      constructor
      · rfl
      · exact blank.rootPath
      · rw [readDisplayname, found]
        rfl
      · rw [typeOf, found]
        rfl

theorem keepsRow_boundRecord (bind : Option DbmsBindList) :
    KeepsRow (dbmsGetResource false store.toPropertyTables r).1
      (boundRecord store r bind) := by
  unfold boundRecord
  cases bind with
  | none =>
      simp only
      split
      · exact keepsRow_extendReftarget _
      · exact ⟨rfl, rfl, rfl⟩
  | some bind =>
      have bound : KeepsRow
          (dbmsGetResource false store.toPropertyTables r).1
          { (dbmsGetResource false store.toPropertyTables r).1 with
            bindId := bind.bindId
            updatedAt := some bind.updatedAt } :=
        ⟨rfl, rfl, rfl⟩
      simp only
      split
      · exact bound.trans (keepsRow_extendReftarget _)
      · exact bound

theorem IsRecordOf.of_same
    {r record : DavReposResource}
    (isRecord : IsRecordOf store rootPath id r)
    (same : SameResource r record) : IsRecordOf store rootPath id record where
  serialno := same.serialno.trans isRecord.serialno
  rootPath := same.rootPath.trans isRecord.rootPath
  displayname := same.displayname.trans isRecord.displayname
  resourcetype := same.resourcetype.trans isRecord.resourcetype

/-- The record after the queries for media. -/
def mediaRecord (store : ContentStore) (r : DavReposResource)
    (bind : Option DbmsBindList) : DavReposResource :=
  (dbmsGetMediaProps false store.toPropertyTables
    (collectionRecord store.toPropertyTables (boundRecord store r bind))).1

theorem isRecordOf_mediaRecord
    (blank : IsBlank rootPath id r) (bind : Option DbmsBindList) :
    IsRecordOf store rootPath id (mediaRecord store r bind) :=
  (isRecordOf_dbmsGetResource blank).of_same
    ((keepsRow_boundRecord bind).trans
      (keepsRow_collectionRecord.trans
        keepsRow_dbmsGetMediaProps)).sameResource

/-- The queries about versions come last. -/
theorem getPropertyOf_eq_deltav
    (r : DavReposResource) (bind : Option DbmsBindList) :
    getPropertyOf false store.toPropertyTables r bind false =
      .returned
        (dbmsGetDeltavProps false store.toPropertyTables
          (mediaRecord store r bind)).1
        (dbmsGetDeltavProps false store.toPropertyTables
          (mediaRecord store r bind)).2 := by
  rw [getPropertyOf_eq, getTypedProps_eq]
  rfl

theorem getResource_eq (leads : LeadsTo store.binds.rows uri id) :
    ∃ bind, getResource store rootPath uri =
      returned
        (dbmsGetDeltavProps false store.toPropertyTables
          (mediaRecord store (identified rootPath uri id) bind)).2
        (dbmsGetDeltavProps false store.toPropertyTables
          (mediaRecord store (identified rootPath uri id) bind)).1 := by
  rcases @getResource_of_leadsTo store rootPath uri id leads with ⟨bind, read⟩
  refine ⟨some bind, ?_⟩
  rw [read, getPropertyOf_eq_deltav]

theorem returned_eq_ok
    {α : Type} {err : Option DavError} {value result : α} :
    returned err value = .ok result ↔ err = none ∧ value = result := by
  cases err with
  | none => simp [returned]
  | some err => simp [returned]

theorem isRecordOf_getResource
    {record : DavReposResource}
    (leads : LeadsTo store.binds.rows uri id)
    (read : getResource store rootPath uri = .ok record) :
    IsRecordOf store rootPath id record := by
  rcases @getResource_eq store rootPath uri id leads with ⟨bind, isRead⟩
  rw [isRead, returned_eq_ok] at read
  rw [← read.2]
  exact (isRecordOf_mediaRecord isBlank_identified bind).of_same
    keepsRow_dbmsGetDeltavProps.sameResource

/-- A resource that is read by its id. -/
theorem sabridgeGetProperty_of_id
    (blank : IsBlank rootPath id r)
    (nonzero : id ≠ 0) :
    sabridgeGetProperty store r =
      returned
        (dbmsGetDeltavProps false store.toPropertyTables
          (mediaRecord store r none)).2
        (dbmsGetDeltavProps false store.toPropertyTables
          (mediaRecord store r none)).1 := by
  unfold sabridgeGetProperty BridgeProperty.sabridgeGetProperty
  rw [if_pos (blank.serialno ▸ nonzero), getPropertyOf_eq_deltav]

theorem sabridgeGetProperty_isOk_of_id
    (blank : IsBlank rootPath id r)
    (nonzero : id ≠ 0)
    (unversioned : ¬ (typeOf store id = some .versioned ∨
      typeOf store id = some .versionedCollection)) :
    ∃ record, sabridgeGetProperty store r = .ok record ∧
      IsRecordOf store rootPath id record := by
  have isRecord := @isRecordOf_mediaRecord store _ _ _ blank none
  rw [← isRecord.resourcetype] at unversioned
  refine ⟨(dbmsGetDeltavProps false store.toPropertyTables
    (mediaRecord store r none)).1, ?_,
      isRecord.of_same keepsRow_dbmsGetDeltavProps.sameResource⟩
  rw [sabridgeGetProperty_of_id blank nonzero, returned_eq_ok]
  exact ⟨dbmsGetDeltavProps_noError unversioned, rfl⟩

theorem dbmsGetVcrProps_noError_iff
    {tables : PropertyTables} {r : DavReposResource} :
    (dbmsGetVcrProps false tables r).2 = none ↔
      ∀ vcr, (tables.vcrs.find? fun row => row.resourceId == r.serialno) =
          some vcr →
        vcr.checkedId ∈ tables.versions.map Version.resourceId := by
  unfold dbmsGetVcrProps
  rw [if_neg Bool.false_ne_true]
  cases tables.vcrs.find? fun row => row.resourceId == r.serialno with
  | none => exact iff_of_true rfl nofun
  | some vcr =>
      unfold dbmsGetVersionNumber
      simp only [Bool.false_eq_true, if_false]
      cases found : tables.versions.find? fun row =>
          row.resourceId == vcr.checkedId with
      | none =>
          refine iff_of_false nofun fun numbered => ?_
          rcases List.mem_map.mp (numbered vcr rfl) with
            ⟨version, listed, same⟩
          exact List.find?_eq_none.mp found version listed
            (beq_iff_eq.mpr same)
      | some version =>
          refine iff_of_true rfl ?_
          rintro _ ⟨⟩
          have same := List.find?_some found
          rw [beq_iff_eq] at same
          rw [← same]
          exact List.mem_map_of_mem (List.mem_of_find?_eq_some found)

/-- Which URIs are read without an error. -/
theorem getResource_isOk_iff (leads : LeadsTo store.binds.rows uri id) :
    (∃ record, getResource store rootPath uri = .ok record) ↔
      IsNumbered store id := by
  rcases @getResource_eq store rootPath uri id leads with ⟨bind, isRead⟩
  have isRecord : IsRecordOf store rootPath id _ :=
    isRecordOf_mediaRecord (@isBlank_identified rootPath uri id) bind
  have noError : (∃ record, getResource store rootPath uri = .ok record) ↔
      (dbmsGetDeltavProps false store.toPropertyTables
        (mediaRecord store (identified rootPath uri id) bind)).2 = none := by
    rw [isRead]
    simp only [returned_eq_ok]
    exact ⟨fun ⟨_, noError, _⟩ => noError, fun noError => ⟨_, noError, rfl⟩⟩
  rw [noError, IsNumbered, ← isRecord.resourcetype]
  by_cases versioned :
      (mediaRecord store (identified rootPath uri id) bind).resourcetype =
          some .versioned ∨
        (mediaRecord store (identified rootPath uri id) bind).resourcetype =
          some .versionedCollection
  · rw [dbmsGetDeltavProps_of_versioned versioned,
      dbmsGetVcrProps_noError_iff, isRecord.serialno]
    exact ⟨fun numbered _ => numbered, fun numbered => numbered versioned⟩
  · exact iff_of_true (dbmsGetDeltavProps_noError versioned)
      fun either => (versioned either).elim

/-- The record of a medium under version control. -/
structure IsVcrRecord (store : ContentStore) (rootPath : Text) (vcr : Vcr)
    (number : Int) (record : DavReposResource) : Prop extends
    IsRecordOf store rootPath vcr.resourceId record where
  checkedState : record.checkedState = vcr.checkedState
  checkedId : record.checkedId = vcr.checkedId
  vhrId : record.vhrId = vcr.vhrId
  vrNum : record.vrNum = number
  sha1str : record.sha1str =
    (store.media.find? fun row => row.resourceId == vcr.resourceId).map
      MediaRow.sha1

theorem sha1str_mediaRecord
    (blank : IsBlank rootPath id r)
    (versioned : typeOf store id = some .versioned)
    (bind : Option DbmsBindList) :
    (mediaRecord store r bind).sha1str =
      (store.media.find? fun row => row.resourceId == id).map
        MediaRow.sha1 := by
  have isRecord := (isRecordOf_dbmsGetResource blank).of_same
    (@keepsRow_boundRecord store r bind).sameResource
  have type : (boundRecord store r bind).resourcetype = some .versioned :=
    isRecord.resourcetype.trans versioned
  have unset : (boundRecord store r bind).sha1str = none := by
    have readType := (@isRecordOf_dbmsGetResource store _ _ _
      blank).resourcetype.trans versioned
    have read : (dbmsGetResource false store.toPropertyTables r).1.sha1str =
        none := by
      unfold dbmsGetResource
      rw [if_neg Bool.false_ne_true]
      split <;> exact blank.sha1str
    have other : (dbmsGetResource false
        store.toPropertyTables r).1.resourcetype ≠ some .redirect := by
      rw [readType]
      decide
    unfold boundRecord
    cases bind <;> simp only [if_neg other] <;> exact read
  have collection : collectionRecord store.toPropertyTables
      (boundRecord store r bind) = boundRecord store r bind := by
    unfold collectionRecord
    rw [type]
  unfold mediaRecord dbmsGetMediaProps
  rw [collection, type, if_neg Bool.false_ne_true, isRecord.serialno]
  cases store.media.find? fun row => row.resourceId == id with
  | none => exact unset
  | some row => rfl

/-- A medium that is checked in or out is read with its version. -/
theorem getResource_of_vcr
    {vcr : Vcr} {version : Version}
    (leads : LeadsTo store.binds.rows uri vcr.resourceId)
    (versioned : typeOf store vcr.resourceId = some .versioned)
    (isVcr : (store.vcrs.find? fun row =>
      row.resourceId == vcr.resourceId) = some vcr)
    (isVersion : (store.versions.find? fun row =>
      row.resourceId == vcr.checkedId) = some version) :
    ∃ record, getResource store rootPath uri = .ok record ∧
      IsVcrRecord store rootPath vcr version.number record := by
  rcases @getResource_eq store rootPath uri vcr.resourceId leads with
    ⟨bind, isRead⟩
  have blank := @isBlank_identified rootPath uri vcr.resourceId
  have isRecord : IsRecordOf store rootPath vcr.resourceId _ :=
    isRecordOf_mediaRecord blank bind
  have sha1str := sha1str_mediaRecord blank versioned bind
  rw [dbmsGetDeltavProps_of_versioned
    (Or.inl (isRecord.resourcetype.trans versioned))] at isRead
  have props : dbmsGetVcrProps false store.toPropertyTables
      (mediaRecord store (identified rootPath uri vcr.resourceId) bind) =
        ({ mediaRecord store (identified rootPath uri vcr.resourceId) bind with
            checkedState := vcr.checkedState
            checkedId := vcr.checkedId
            vhrId := vcr.vhrId
            autoversionType := vcr.versionType
            vrNum := version.number }, none) := by
    unfold dbmsGetVcrProps dbmsGetVersionNumber
    simp only [Bool.false_eq_true, if_false, isRecord.serialno, isVcr,
      isVersion]
  rw [props] at isRead
  refine ⟨_, isRead, ?_⟩
  exact
    { serialno := isRecord.serialno
      rootPath := isRecord.rootPath
      displayname := isRecord.displayname
      resourcetype := isRecord.resourcetype
      checkedState := rfl
      checkedId := rfl
      vhrId := rfl
      vrNum := rfl
      sha1str := sha1str }

/-- A medium that is read as checked in has the rows of its state. -/
theorem exists_vcr_of_checkedState
    {record : DavReposResource}
    (leads : LeadsTo store.binds.rows uri id)
    (versioned : typeOf store id = some .versioned)
    (read : getResource store rootPath uri = .ok record)
    (controlled : record.checkedState ≠ .notVersioned) :
    ∃ vcr version,
      (store.vcrs.find? fun row => row.resourceId == id) = some vcr ∧
      (store.versions.find? fun row => row.resourceId == vcr.checkedId) =
        some version ∧
      vcr.resourceId = id ∧
      IsVcrRecord store rootPath vcr version.number record := by
  cases found : store.vcrs.find? fun row => row.resourceId == id with
  | none =>
      exfalso
      apply controlled
      rcases @getResource_eq store rootPath uri id leads with ⟨bind, isRead⟩
      have isRecord : IsRecordOf store rootPath id _ :=
        isRecordOf_mediaRecord (@isBlank_identified rootPath uri id) bind
      rw [dbmsGetDeltavProps_of_versioned
        (Or.inl (isRecord.resourcetype.trans versioned))] at isRead
      rw [isRead, returned_eq_ok] at read
      rw [← read.2]
      unfold dbmsGetVcrProps
      rw [if_neg Bool.false_ne_true, isRecord.serialno, found]
  | some vcr =>
      have numbered := (@getResource_isOk_iff store rootPath uri id leads).mp
        ⟨record, read⟩ (Or.inl versioned) vcr found
      have isId := List.find?_some found
      rw [beq_iff_eq] at isId
      cases foundVersion : store.versions.find? fun row =>
          row.resourceId == vcr.checkedId with
      | none =>
          rcases List.mem_map.mp numbered with ⟨version, listed, same⟩
          exact absurd (beq_iff_eq.mpr same)
            (List.find?_eq_none.mp foundVersion version listed)
      | some version =>
          rcases @getResource_of_vcr store rootPath uri vcr version
            (isId.symm ▸ leads) (isId.symm ▸ versioned)
            (isId.symm ▸ found) foundVersion with ⟨same, readSame, isVcr⟩
          rw [← Except.ok.inj (readSame.symm.trans read)]
          exact ⟨vcr, version, rfl, foundVersion, isId, isVcr⟩

/-- The record of a redirect reference on the way. -/
def IsRedirectRecord (store : ContentStore) (record : DavReposResource) :
    Prop :=
  typeOf store record.serialno = some .redirect

/-- A URI that resolves in part leads to a redirect reference or nowhere. -/
theorem getPropertyOf_inPart
    {r record : DavReposResource} {bind : DbmsBindList}
    {err : Option DavError}
    (read : getPropertyOf false store.toPropertyTables r (some bind) true =
      .returned record err) :
    record.displayname = none ∨ r.resourcetype = some .redirect ∨
      IsRedirectRecord store record := by
  unfold getPropertyOf at read
  simp only [true_and] at read
  split at read
  next =>
      left
      rw [← (Outcome.returned.inj read).1]
  next isRedirect =>
      have redirect := not_not.mp isRedirect
      rw [if_pos redirect] at read
      right
      rw [← (Outcome.returned.inj read).1]
      unfold IsRedirectRecord
      rw [keepsRow_getTypedProps.sameResource.serialno,
        (keepsRow_extendReftarget _).sameResource.serialno]
      unfold dbmsGetResource at redirect ⊢
      rw [if_neg Bool.false_ne_true] at redirect ⊢
      cases found : store.resources.find? fun row =>
          row.id == r.serialno with
      | none =>
          rw [found] at redirect
          exact Or.inl redirect
      | some row =>
          rw [found] at redirect
          right
          show typeOf store r.serialno = _
          rw [typeOf, found]
          exact redirect

/-- Where a URI does not lead to a resource, there is no name. -/
theorem displayname_of_not_leadsTo
    {record : DavReposResource}
    (slash : uri.head? = some '/')
    (noQuestion : '?' ∉ uri)
    (leadsNowhere : ∀ id, ¬ LeadsTo store.binds.rows uri id)
    (read : getResource store rootPath uri = .ok record) :
    record.displayname = none ∨ IsRedirectRecord store record := by
  have notWhole : ¬ (UriLookup.walk store.binds.rows rootCollectionId
      (Segments.tokens '/' uri)).length =
        (Segments.tokens '/' uri).length :=
    fun whole => leadsNowhere _ ⟨noQuestion, whole, rfl⟩
  rcases (UriLookup.lookupAgrees_iff store.binds false
    (lastmodified store.toPropertyTables) uri).mpr
      ⟨noQuestion, Or.inl slash⟩ with ⟨noError, agrees⟩
  have agreement := agrees fun err failed =>
    Bool.false_ne_true (noError err failed)
  have nonempty : Segments.tokens '/' uri ≠ [] := by
    intro empty
    rw [empty] at notWhole
    exact notWhole rfl
  unfold getResource sabridgeGetProperty at read
  rw [RedirectTarget.sabridgeGetProperty_newResource] at read
  by_cases unresolved : UriLookup.walk store.binds.rows rootCollectionId
      (Segments.tokens '/' uri) = []
  · rw [agreement.none unresolved nonempty] at read
    left
    rw [← (returned_eq_ok.mp read).2]
    rfl
  · have shorter := UriLookup.length_walkBinds_le store.binds.rows
      rootCollectionId (Segments.tokens '/' uri)
    have length := congrArg List.length (UriLookup.walk_eq store.binds
      rootCollectionId (Segments.tokens '/' uri))
    rw [List.length_map] at length
    rw [← length] at shorter
    rcases agreement.inPart (List.length_pos_iff.mpr unresolved)
      (Nat.lt_of_le_of_ne shorter notWhole) with
        ⟨bind, part, found, inPart, -⟩
    rw [found] at read
    simp only [getLookedUp, inPart, if_true] at read
    by_cases nowhere : bind.parentId = 0
    · rw [if_pos nowhere] at read
      left
      rw [← (returned_eq_ok.mp read).2]
      rfl
    · rw [if_neg nowhere] at read
      cases props : getPropertyOf false store.toPropertyTables
          { newResource rootPath (rootPath ++ uri) with
            serialno := bind.parentId } (some bind) (-1 == (-1 : Id)) with
      | undefined =>
          rw [props] at read
          cases read
      | returned r err =>
          rw [props] at read
          rw [← (returned_eq_ok.mp read).2]
          rcases getPropertyOf_inPart props with unnamed | redirect | redirect
          · exact Or.inl unnamed
          · cases redirect
          · exact Or.inr redirect

end Records

end Limestone.GetResource
