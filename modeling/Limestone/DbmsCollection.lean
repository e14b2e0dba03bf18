import Limestone.DbmsAcl
import Limestone.DbmsBind

/-!
# The members of collections: `dbms_get_collection_resource`

One query lists the members of all collections of a list of resources.  When
it is asked for a privilege, it has a column with the decision of the access
control entries for every member, and members without a grant are skipped.
-/

namespace Limestone.DbmsCollection

open Library
open DbmsAcl
open DbmsBind

/-- A row of `resources`. -/
structure Resource where
  id : Id
  resourcetype : ResourceType
  ownerId : Id
  creatorId : Id
deriving DecidableEq, Repr

/-- A row of `versions`. -/
structure Version where
  resourceId : Id
  number : Int
  vhrId : Id
deriving DecidableEq, Repr

/-- A row of `vhrs`. -/
structure Vhr where
  resourceId : Id
  rootVersionId : Id
deriving DecidableEq, Repr

/-- A row of `vcrs`. -/
structure Vcr where
  resourceId : Id
  checkedId : Id
  vhrId : Id
deriving DecidableEq, Repr

/--
The tables of the bind graph and of the version histories, with the keys of
the schema and what holds when a transaction ends: the root version of a
history is one of its versions, and versions are resources of two types.
Inside a transaction a history that is just made may await its first version.
-/
structure RepoTables where
  resources : List Resource
  binds : BindTable
  versions : List Version
  vhrs : List Vhr
  vcrs : List Vcr
  resourcesPkey : (resources.map Resource.id).Nodup
  vhrsResource : (vhrs.map Vhr.resourceId).Nodup
  fkBindCollection : ∀ bind ∈ binds.rows,
    bind.collectionId ∈ resources.map Resource.id
  fkBindResource : ∀ bind ∈ binds.rows,
    bind.resourceId ∈ resources.map Resource.id
  fkVersionVhr : ∀ version ∈ versions,
    version.vhrId ∈ vhrs.map Vhr.resourceId
  fkVhrRootVersion : ∀ vhr ∈ vhrs, ∃ version ∈ versions,
    version.resourceId = vhr.rootVersionId ∧ version.vhrId = vhr.resourceId
  versionType : ∀ version ∈ versions, ∀ resource ∈ resources,
    resource.id = version.resourceId →
      resource.resourcetype = .version ∨
        resource.resourcetype = .collectionVersion

/-- Without versions there is nothing to refer to. -/
theorem noVersions_fkVersionVhr :
    ∀ version ∈ ([] : List Version),
      version.vhrId ∈ ([] : List Vhr).map Vhr.resourceId :=
  nofun

theorem noVersions_fkVhrRootVersion :
    ∀ vhr ∈ ([] : List Vhr), ∃ version ∈ ([] : List Version),
      version.resourceId = vhr.rootVersionId ∧
        version.vhrId = vhr.resourceId :=
  nofun

/-- An item of the lists of `dav_repos_resource`s. -/
structure DavReposResource where
  serialno : Id
  resourcetype : ResourceType
  uri : Option Text
  parentId : Id
  bindId : Id
  /-- `bind` is not NULL. -/
  hasBind : Bool
deriving DecidableEq, Repr

/-- The items whose ids the query names. -/
def listedCollections (items : List DavReposResource) :
    List DavReposResource :=
  items.filter fun iter =>
    !iter.hasBind && iter.resourcetype.isCollection

/-- A row of the joins; the tables with a row for each resource are left out. -/
structure MemberRow where
  childBind : Bind
  resource : Resource
  version : Option Version
  vrVcr : Option Vcr
deriving DecidableEq, Repr

/--
The rows of both queries.  A bind without a resource, for which only one of
them has a row, is excluded by a foreign key.
-/
def memberRows (tables : RepoTables) (colIds : List Id) : List MemberRow :=
  let childBinds := tables.binds.rows.filter fun bind =>
    decide (bind.collectionId ∈ colIds)
  let members := (Sql.crossJoin childBinds tables.resources).filter
    fun pair => pair.2.id == pair.1.resourceId
  let versions := Sql.leftJoin members tables.versions fun pair version =>
    version.resourceId == pair.2.id
  (Sql.leftJoin versions tables.vcrs fun row vrVcr =>
    row.2.any fun version => vrVcr.checkedId == version.resourceId).map
      fun row => ⟨row.1.1.1, row.1.1.2, row.1.2, row.2⟩

/-- `id_uri_hash` looked up for a parent. -/
def parentUri (listed : List DavReposResource) (parentId : Id) :
    Option Text :=
  (listed.reverse.find? fun iter => iter.serialno == parentId).bind
    DavReposResource.uri

/-- The item for a row. -/
def memberItem (listed : List DavReposResource) (row : MemberRow) :
    DavReposResource where
  serialno := row.resource.id
  resourcetype := row.resource.resourcetype
  uri :=
    match parentUri listed row.childBind.collectionId with
    | none => some ('/' :: row.childBind.name)
    | some uri =>
        if uri = ['/'] then some ('/' :: row.childBind.name)
        else some (uri ++ '/' :: row.childBind.name)
  parentId := row.childBind.collectionId
  bindId := row.childBind.id
  hasBind := false

/--
`dbms_get_collection_resource` for a list of resources.  The column
`grantdeny` is there when a privilege is asked for; NULL is read as the empty
text.
-/
def dbmsGetCollectionResource (order : Sql.RowOrder MemberRow) (query : Nat)
    (tables : RepoTables) (grantdeny : Option (Bind → Option Char))
    (items : List DavReposResource) : List DavReposResource :=
  let listed := listedCollections items
  let rows := order.arrange query
    (memberRows tables (listed.map DavReposResource.serialno))
  (rows.filter fun row =>
    match grantdeny with
    | none => true
    | some column => column row.childBind == some aclGrant).map
      (memberItem listed)

/-! ## The column with the decision -/

/-- `CHAR_LENGTH(par_res_path) DESC, protected DESC, id`. -/
def nearestFirst (row : AceRow) : ℕᵒᵈ ×ₗ Bool ×ₗ Int :=
  toLex (OrderDual.toDual (charLength row),
    toLex (!row.ace.isProtected, row.ace.id))

/-- The scalar subquery `grantdeny`; the privilege is asked for by its name. -/
def grantdenyColumn (acl : AclTables) (principalId : Id) (aclPriv : Text)
    (childBind : Bind) : Option Char :=
  (Sql.limitOne (Sql.orderBy nearestFirst
    (aceRows acl ((membership acl principalId).map fun groupId => (0, groupId))
      (parPrivIds acl fun chi => chi.name == aclPriv)
      (inheritedRes acl childBind.resourceId)))).map fun row =>
        row.ace.grantdeny

/-- The listing for the principal of the request. -/
def collectionResourceFor (order : Sql.RowOrder MemberRow) (query : Nat)
    (tables : RepoTables) (acl : AclTables) (principal : DavPrincipal)
    (aclPriv : Option Text) (items : List DavReposResource) :
    List DavReposResource :=
  dbmsGetCollectionResource order query tables
    (aclPriv.map (grantdenyColumn acl (davReposGetPrincipalId principal)))
    items

/-! ## The rows -/

section Rows

variable {tables : RepoTables} {colIds : List Id} {childBind : Bind}
  {resource : Resource}

/-- The pairs of a bind and its resource that have a row. -/
theorem exists_mem_memberRows :
    (∃ version vrVcr, (⟨childBind, resource, version, vrVcr⟩ : MemberRow) ∈
        memberRows tables colIds) ↔
      (childBind ∈ tables.binds.rows ∧ childBind.collectionId ∈ colIds) ∧
        resource ∈ tables.resources ∧
        resource.id = childBind.resourceId := by
  constructor
  · rintro ⟨version, vrVcr, member⟩
    rcases List.mem_map.mp member with ⟨row, joined, equal⟩
    have versioned := Sql.exists_mem_leftJoin.mp ⟨row.2, joined⟩
    have paired := Sql.exists_mem_leftJoin.mp ⟨row.1.2, versioned⟩
    simp only [List.mem_filter, Sql.mem_crossJoin, decide_eq_true_eq,
      beq_iff_eq] at paired
    rcases MemberRow.mk.inj equal with ⟨rfl, rfl, -, -⟩
    exact ⟨paired.1.1, paired.1.2, paired.2⟩
  · rintro ⟨bound, listed, same⟩
    have paired : (childBind, resource) ∈
        (Sql.crossJoin (tables.binds.rows.filter fun bind =>
          decide (bind.collectionId ∈ colIds)) tables.resources).filter
            fun pair => pair.2.id == pair.1.resourceId := by
      simp only [List.mem_filter, Sql.mem_crossJoin, decide_eq_true_eq,
        beq_iff_eq]
      exact ⟨⟨bound, listed⟩, same⟩
    rcases Sql.exists_mem_leftJoin.mpr paired with ⟨version, versioned⟩
    rcases Sql.exists_mem_leftJoin.mpr versioned with ⟨vrVcr, joined⟩
    exact ⟨version, vrVcr, List.mem_map.mpr ⟨_, joined, rfl⟩⟩

end Rows

/-! ## The items -/

section Items

variable {order : Sql.RowOrder MemberRow} {query : Nat} {tables : RepoTables}
  {grantdeny : Option (Bind → Option Char)} {items : List DavReposResource}
  {item iter : DavReposResource} {bind : Bind}

/-- A row of the query is kept. -/
def Kept (grantdeny : Option (Bind → Option Char)) (bind : Bind) : Prop :=
  ∀ column, grantdeny = some column → column bind = some aclGrant

/-- The items of a listing. -/
theorem mem_dbmsGetCollectionResource :
    item ∈ dbmsGetCollectionResource order query tables grantdeny items ↔
      ∃ childBind ∈ tables.binds.rows, ∃ resource ∈ tables.resources,
        childBind.collectionId ∈
          (listedCollections items).map DavReposResource.serialno ∧
        resource.id = childBind.resourceId ∧ Kept grantdeny childBind ∧
        item = memberItem (listedCollections items)
          ⟨childBind, resource, none, none⟩ := by
  have keeps : ∀ childBind, Kept grantdeny childBind ↔
      (match grantdeny with
        | none => true
        | some column => column childBind == some aclGrant) = true := by
    intro childBind
    cases grantdeny with
    | none => exact iff_of_true nofun rfl
    | some column =>
        rw [beq_iff_eq]
        constructor
        · intro kept
          exact kept column rfl
        · intro granted other same
          rw [← Option.some.inj same]
          exact granted
  simp only [dbmsGetCollectionResource, List.mem_map, List.mem_filter,
    Sql.RowOrder.mem_arrange]
  constructor
  · rintro ⟨⟨childBind, resource, version, vrVcr⟩, ⟨member, kept⟩, rfl⟩
    rcases exists_mem_memberRows.mp ⟨version, vrVcr, member⟩ with
      ⟨⟨bound, inside⟩, listed, same⟩
    exact ⟨childBind, bound, resource, listed, List.mem_map.mp inside, same,
      (keeps childBind).mpr kept, rfl⟩
  · rintro ⟨childBind, bound, resource, listed, inside, same, kept, rfl⟩
    rcases exists_mem_memberRows.mpr
        ⟨⟨bound, List.mem_map.mpr inside⟩, listed, same⟩ with
      ⟨version, vrVcr, member⟩
    exact ⟨_, ⟨member, (keeps childBind).mp kept⟩, rfl⟩

/-- A bind in a listed collection has an item iff its row is kept. -/
theorem exists_item_iff
    (bound : bind ∈ tables.binds.rows)
    (listed : iter ∈ listedCollections items)
    (inside : bind.collectionId = iter.serialno) :
    (∃ item ∈ dbmsGetCollectionResource order query tables grantdeny items,
        item.bindId = bind.id) ↔
      Kept grantdeny bind := by
  simp only [mem_dbmsGetCollectionResource]
  constructor
  · rintro ⟨-, ⟨childBind, childBound, resource, -, -, -, kept, rfl⟩, same⟩
    have equal : childBind = bind :=
      List.inj_on_of_nodup_map tables.binds.pkey childBound bound same
    rwa [equal] at kept
  · intro kept
    rcases List.mem_map.mp (tables.fkBindResource bind bound) with
      ⟨resource, present, same⟩
    exact ⟨_, ⟨bind, bound, resource, present,
      List.mem_map.mpr ⟨iter, listed, inside.symm⟩, same, kept, rfl⟩, rfl⟩

end Items

end Limestone.DbmsCollection
