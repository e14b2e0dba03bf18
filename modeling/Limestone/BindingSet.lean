import Limestone.CollectionChildren
import Limestone.VersionLinks

/-!
# The binds of a collection version

When a version of a collection is made, a join writes the binds of its
version-controlled members down, each with the history of the member.  The
report of the version reads them with the listing of collections, which asks
for the members of two types of resources; a version of a collection is of
neither type.
-/

namespace Limestone.BindingSet

open Library
open CollectionChildren
open DbmsBind
open DbmsCollection
open VersionLinks (Libraries davReposMkHref)

/-! ## The writer -/

/-- The rows that `dbms_copy_resource_collection_version` inserts. -/
def dbmsCopyResourceCollectionVersion (tables : RepoTables) (nextBindId : Id)
    (srcId dstId : Id) : List Bind :=
  copiedBinds tables.binds.rows
    (tables.vcrs.map fun vcr => (vcr.resourceId, vcr.vhrId)) nextBindId srcId
    dstId

/-! ## The reader -/

/-- `sabridge_mk_vhr_uri`. -/
def sabridgeMkVhrUri (rootPath : Text) (vhrId : Id) : Text :=
  rootPath ++ "/history/".toList ++ (toString vhrId).toList ++ "/vhr".toList

/-- The element for one bind. -/
def versionControlledBinding (libraries : Libraries) (rootPath : Text)
    (name : Text) (vhrId : Id) : Text :=
  "<D:version-controlled-binding>".toList ++
    "<D:binding-name>".toList ++ name ++ "</D:binding-name>".toList ++
    "<D:version-history>".toList ++
    davReposMkHref libraries (sabridgeMkVhrUri rootPath vhrId) ++
    "</D:version-history>".toList ++
    "</D:version-controlled-binding>".toList

/--
`displayname` of an item.  `apr_dbd_get_entry` gives the empty text for a NULL,
so that the name of the bind is never taken in its place.
-/
def itemDisplayname (displayname : Id → Option Text)
    (item : DavReposResource) : Text :=
  (displayname item.serialno).getD []

/--
The part of `sabridge_build_vr_pr_hash` for the version of a collection;
`none` while the listing is running.
-/
def versionControlledBindingSet (fuel : Nat) (order : Sql.RowOrder MemberRow)
    (libraries : Libraries) (rootPath : Text) (tables : RepoTables)
    (displayname : Id → Option Text) (dbR : DavReposResource) : Option Text :=
  (sabridgeGetCollectionChildren fuel order tables none dbR .one).map
    fun children => children.linkHead.flatMap fun entry =>
      versionControlledBinding libraries rootPath
        (itemDisplayname displayname entry.1) entry.1.serialno

/-! ## What is to hold -/

/--
A version of a version-controlled collection, with the tables when it was made
and when it is reported.
-/
structure MadeVersion where
  before : RepoTables
  nextBindId : Id
  /-- The collection. -/
  vcc : Id
  version : Id
  isCollection : ∃ resource ∈ before.resources,
    resource.id = vcc ∧ resource.resourcetype = .versionedCollection
  vcrsResource : (before.vcrs.map Vcr.resourceId).Nodup
  reported : RepoTables
  isVersion : ∃ resource ∈ reported.resources,
    resource.id = version ∧ resource.resourcetype = .collectionVersion
  recorded : reported.binds.rows.filter
      (fun bind => bind.collectionId == version) =
    dbmsCopyResourceCollectionVersion before nextBindId vcc version

/-- The record of the version. -/
def MadeVersion.dbR (made : MadeVersion) (uri : Text) :
    DavReposResource where
  serialno := made.version
  resourcetype := .collectionVersion
  uri := some uri
  parentId := 0
  bindId := 0
  hasBind := false

/-- The name of a bind and the history of its member. -/
def controlled (tables : RepoTables) (bind : Bind) : Option (Text × Id) :=
  (tables.vcrs.find? fun vcr => vcr.resourceId == bind.resourceId).map
    fun vcr => (bind.name, vcr.vhrId)

/-- One pair for each bind of the collection to a controlled member. -/
def MadeVersion.expected (made : MadeVersion) : List (Text × Id) :=
  (made.before.binds.rows.filter fun bind =>
    bind.collectionId == made.vcc).filterMap (controlled made.before)

/-- The value of the property lists the pairs, in some order. -/
def Lists (libraries : Libraries) (rootPath : Text)
    (expected : List (Text × Id)) (value : Text) : Prop :=
  ∃ listed : List (Text × Id), listed.Perm expected ∧
    value = listed.flatMap fun pair =>
      versionControlledBinding libraries rootPath pair.1 pair.2

/-! ## What is reported -/

section Reported

variable {order : Sql.RowOrder MemberRow} {tables : RepoTables}
  {dbR : DavReposResource}

/-- A resource of another type has no members. -/
theorem dbmsGetCollectionResource_of_not_isCollection
    (other : dbR.resourcetype.isCollection = false) (query : Nat)
    (grantdeny : Option (Bind → Option Char)) :
    dbmsGetCollectionResource order query tables grantdeny [dbR] = [] := by
  have unlisted : listedCollections [dbR] = [] := by
    simp [listedCollections, other]
  apply List.eq_nil_iff_forall_not_mem.mpr
  intro item member
  rcases mem_dbmsGetCollectionResource.mp member with
    ⟨childBind, -, resource, -, inside, -⟩
  rw [unlisted] at inside
  cases inside

/-- The listing of such a resource ends at once. -/
theorem listLevel_of_not_isCollection
    (other : dbR.resourcetype.isCollection = false)
    (grantdeny : Option (Bind → Option Char)) (depth : Depth) :
    listLevel order tables grantdeny depth
        (listingStart order tables grantdeny dbR) =
      .inl ⟨[], some (dbmsNumItems order 0 tables [dbR])⟩ :=
  if_pos (dbmsGetCollectionResource_of_not_isCollection other 0 grantdeny)

end Reported

variable {libraries : Libraries} {rootPath : Text}

theorem versionControlledBinding_ne_nil (name : Text) (vhrId : Id) :
    versionControlledBinding libraries rootPath name vhrId ≠ [] :=
  List.cons_ne_nil _ _

/-- An empty value lists no bind. -/
theorem lists_nil_iff {expected : List (Text × Id)} :
    Lists libraries rootPath expected [] ↔ expected = [] := by
  constructor
  · rintro ⟨listed, same, empty⟩
    have none : listed = [] := by
      rcases listed with _ | ⟨pair, listed⟩
      · rfl
      · rw [List.flatMap_cons] at empty
        exact (versionControlledBinding_ne_nil _ _
          (List.append_eq_nil_iff.mp empty.symm).1).elim
    rw [none] at same
    exact List.nil_perm.mp same
  · rintro rfl
    exact ⟨[], List.Perm.refl _, rfl⟩

/-- The value is empty, whatever is recorded. -/
theorem versionControlledBindingSet_eq_nil
    {fuel : Nat} {order : Sql.RowOrder MemberRow} {tables : RepoTables}
    {displayname : Id → Option Text} {dbR : DavReposResource} {value : Text}
    (other : dbR.resourcetype.isCollection = false)
    (reported : versionControlledBindingSet fuel order libraries rootPath
      tables displayname dbR = some value) :
    value = [] := by
  cases fuel with
  | zero => cases reported
  | succ fuel =>
      rw [versionControlledBindingSet] at reported
      rcases Option.map_eq_some_iff.mp reported with ⟨children, stopped, same⟩
      have first : sabridgeGetCollectionChildren (fuel + 1) order tables none
          dbR .one = some ⟨[], some (dbmsNumItems order 0 tables [dbR])⟩ := by
        show Loop.run _ (fuel + 1) _ = _
        rw [Loop.run, listLevel_of_not_isCollection other]
      rw [first] at stopped
      rw [← same, ← Option.some.inj stopped]
      rfl

/-- The listing needs one round. -/
theorem versionControlledBindingSet_one
    {order : Sql.RowOrder MemberRow} {tables : RepoTables}
    {displayname : Id → Option Text} {dbR : DavReposResource}
    (other : dbR.resourcetype.isCollection = false) :
    versionControlledBindingSet 1 order libraries rootPath tables displayname
      dbR = some [] := by
  have first : sabridgeGetCollectionChildren 1 order tables none dbR .one =
      some ⟨[], some (dbmsNumItems order 0 tables [dbR])⟩ := by
    show Loop.run _ 1 _ = _
    rw [Loop.run, listLevel_of_not_isCollection other]
  rw [versionControlledBindingSet, first]
  rfl

theorem controlled_eq_none_iff {tables : RepoTables} {bind : Bind} :
    controlled tables bind = none ↔
      bind.resourceId ∉ tables.vcrs.map Vcr.resourceId := by
  rw [controlled, Option.map_eq_none_iff, List.find?_eq_none, List.mem_map]
  simp only [beq_iff_eq, not_exists, not_and]

/--
The report lists the binds of the version iff the collection had no bind to
a version-controlled member when the version was made.
-/
theorem lists_expected_iff
    (libraries : Libraries) (rootPath : Text) (made : MadeVersion)
    (order : Sql.RowOrder MemberRow) (displayname : Id → Option Text)
    (uri : Text) :
    (∃ fuel value,
        versionControlledBindingSet fuel order libraries rootPath
          made.reported displayname (made.dbR uri) = some value ∧
        Lists libraries rootPath made.expected value) ↔
      ∀ bind ∈ made.before.binds.rows, bind.collectionId = made.vcc →
        bind.resourceId ∉ made.before.vcrs.map Vcr.resourceId := by
  have other : (made.dbR uri).resourcetype.isCollection = false := rfl
  have empty : made.expected = [] ↔
      ∀ bind ∈ made.before.binds.rows, bind.collectionId = made.vcc →
        bind.resourceId ∉ made.before.vcrs.map Vcr.resourceId := by
    rw [MadeVersion.expected, List.filterMap_eq_nil_iff]
    simp only [List.mem_filter, beq_iff_eq, controlled_eq_none_iff, and_imp]
  rw [← empty]
  constructor
  · rintro ⟨fuel, value, reported, lists⟩
    rw [versionControlledBindingSet_eq_nil other reported] at lists
    exact lists_nil_iff.mp lists
  · intro none
    exact ⟨1, [], versionControlledBindingSet_one other,
      lists_nil_iff.mpr none⟩

/-! ## One controlled member -/

/-- The collection 3 with the member 4 of the history 5; version 6 of it. -/
def oneMember (binds : BindTable)
    (known : ∀ bind ∈ binds.rows, bind.collectionId ∈ [3, 4, 5, 6, 7] ∧
      bind.resourceId ∈ [3, 4, 5, 6, 7]) :
    RepoTables where
  resources :=
    [⟨3, .versionedCollection, 1, 1⟩, ⟨4, .versioned, 1, 1⟩,
      ⟨5, .versionHistory, 1, 1⟩, ⟨6, .collectionVersion, 1, 1⟩,
      ⟨7, .version, 1, 1⟩]
  binds := binds
  versions := [⟨7, 1, 5⟩]
  vhrs := [⟨5, 7⟩]
  vcrs := [⟨4, 7, 5⟩]
  resourcesPkey := by decide
  vhrsResource := by decide
  fkBindCollection := fun bind member => (known bind member).1
  fkBindResource := fun bind member => (known bind member).2
  fkVersionVhr := by decide
  fkVhrRootVersion := by decide
  versionType := by decide

/-- The version of the collection with its member. -/
def madeVersion : MadeVersion where
  before := oneMember
    { rows := [⟨1, "a".toList, 3, 4, none⟩]
      pkey := by decide
      collectionIdKey := by decide
      positive := by decide }
    (by decide)
  nextBindId := 2
  vcc := 3
  version := 6
  isCollection := by decide
  vcrsResource := by decide
  reported := oneMember
    { rows := [⟨1, "a".toList, 3, 4, none⟩, ⟨2, "a".toList, 6, 5, none⟩]
      pkey := by decide
      collectionIdKey := by decide
      positive := by decide }
    (by decide)
  isVersion := by decide
  recorded := by decide

/-- The bind of the member is not reported. -/
theorem not_lists_expected :
    ¬ ∀ (libraries : Libraries) (rootPath : Text) (made : MadeVersion)
        (order : Sql.RowOrder MemberRow) (displayname : Id → Option Text)
        (uri : Text), ∃ fuel value,
      versionControlledBindingSet fuel order libraries rootPath
          made.reported displayname (made.dbR uri) = some value ∧
        Lists libraries rootPath made.expected value := by
  intro always
  rcases always VersionLinks.apacheLibraries [] madeVersion
    (Sql.RowOrder.stored _) (fun _ => none) "/history/8/1".toList with
    ⟨fuel, value, reported, lists⟩
  rw [versionControlledBindingSet_eq_nil rfl reported] at lists
  have listed : madeVersion.expected = [("a".toList, 5)] := by decide
  rw [lists_nil_iff, listed] at lists
  cases lists

end Limestone.BindingSet
