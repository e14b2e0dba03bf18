import Limestone.CollectionChildren
import Mathlib.Algebra.Order.BigOperators.Group.List

/-!
# The bytes of a tree: `sabridge_get_used_bytes`

The sum is over the items of a listing that point to no other item.  The
length of each item is read as an `int`, and so is the sum after each item.  A
resource that is not a plain collection and has the right owner is not listed
at all.
-/

namespace Limestone.UsedBytes

open Library
open DbmsAcl
open DbmsBind
open DbmsCollection
open CollectionChildren

/-- The types of the resources with a body. -/
def isMedia (resourcetype : ResourceType) : Bool :=
  resourcetype == .resource || resourcetype == .versioned ||
    resourcetype == .version

/-- The tables of the listing with `media`, of which `size` is a `bigint`. -/
structure MediaTables extends ListedTables where
  /-- `resource_id` and `size`. -/
  media : List (Id × Int)
  mediaPkey : (media.map Prod.fst).Nodup
  mediaResource : ∀ resource ∈ resources, isMedia resource.resourcetype →
    resource.id ∈ media.map Prod.fst
  sizes : ∀ row ∈ media, 0 ≤ row.2 ∧ row.2 < 2 ^ 63

/-- The column `size` of the join. -/
def size (tables : MediaTables) (serialno : Id) : Int :=
  match tables.media.find? fun row => row.1 == serialno with
  | none => 0
  | some row => row.2

/-- The column `owner_id` of the join. -/
def ownerId (tables : RepoTables) (serialno : Id) : Id :=
  match tables.resources.find? fun row => row.id == serialno with
  | none => 0
  | some row => row.ownerId

/-- `atoi`: the digits are read as a `long`. -/
def getcontentlength (tables : MediaTables) (item : DavReposResource) : Int :=
  toInt (size tables item.serialno)

/-- The condition of the loop. -/
def isCounted (tables : RepoTables) (prinOnly : Bool) (userId : Id)
    (iter : Entry) : Bool :=
  iter.2.isNone && isMedia iter.1.resourcetype &&
    (!prinOnly || ownerId tables iter.1.serialno == userId)

/-- The body of the loop; `used_bytes` is an `int`. -/
def addBytes (tables : MediaTables) (prinOnly : Bool) (userId : Id)
    (usedBytes : Int) (iter : Entry) : Int :=
  if isCounted tables.toRepoTables prinOnly userId iter then
    toInt (usedBytes + getcontentlength tables iter.1)
  else usedBytes

/-- The privilege that the listing asks for. -/
def read : Text := "read".toList

/-- A collection as the function gets it: its type is that of the tables. -/
structure UsedCollection (tables : MediaTables) extends StartCollection where
  ownerId : Id
  stored : ∀ resource ∈ tables.resources, resource.id = serialno →
    resource.resourcetype = resourcetype

/-- `user_id`, which is set if only one owner is asked for. -/
def userId (principal : DavPrincipal) (prinOnly : Bool)
    (uninitialised : Id) : Id :=
  if prinOnly then davReposGetPrincipalId principal else uninitialised

/--
`sabridge_get_used_bytes` of a collection, whose `getcontentlength` is zero.
`none` while the listing is running.
-/
def sabridgeGetUsedBytes (fuel : Nat) (order : Sql.RowOrder MemberRow)
    (tables : MediaTables) (acl : AclTables) (principal : DavPrincipal)
    (uninitialised : Id) (r : UsedCollection tables) (prinOnly : Bool) :
    Option Int :=
  let userId := userId principal prinOnly uninitialised
  if r.resourcetype ≠ .collection ∧ r.ownerId = userId then some 0
  else
    (sabridgeGetCollectionChildren fuel order tables.toRepoTables
      (privFilter acl principal (some read)) r.item .infinity).map
        fun children => children.linkHead.foldl
          (addBytes tables prinOnly userId) 0

/-! ## What the sum is to be -/

/-- A resource of the tree that is to be counted. -/
def InTree (tables : MediaTables) (acl : AclTables) (principal : DavPrincipal)
    (r : UsedCollection tables) (prinOnly : Bool) (resource : Resource) :
    Prop :=
  isMedia resource.resourcetype = true ∧
    (prinOnly = true →
      resource.ownerId = davReposGetPrincipalId principal) ∧
    ∃ bind, Listed tables.toRepoTables (privFilter acl principal (some read))
      r.serialno bind ∧ bind.resourceId = resource.id

open Classical in
noncomputable def treeResources (tables : MediaTables) (acl : AclTables)
    (principal : DavPrincipal) (r : UsedCollection tables) (prinOnly : Bool) :
    List Resource :=
  tables.resources.filter fun resource =>
    decide (InTree tables acl principal r prinOnly resource)

/-- The sum over the resources of the tree, each of them counted once. -/
noncomputable def treeBytes (tables : MediaTables) (acl : AclTables)
    (principal : DavPrincipal) (r : UsedCollection tables) (prinOnly : Bool) :
    Int :=
  ((treeResources tables acl principal r prinOnly).map fun resource =>
    size tables resource.id).sum

/-! ## The loop -/

variable {tables : MediaTables} {prinOnly : Bool} {user : Id}

/-- The loop adds up the sizes, and what it has is always an `int`. -/
theorem foldl_addBytes (tables : MediaTables) (prinOnly : Bool) (user : Id)
    (entries : List Entry) (usedBytes : Int) :
    entries.foldl (addBytes tables prinOnly user) (toInt usedBytes) =
      toInt (usedBytes +
        ((entries.filter (isCounted tables.toRepoTables prinOnly user)).map
          fun iter => size tables iter.1.serialno).sum) := by
  induction entries generalizing usedBytes with
  | nil => rw [List.foldl_nil, List.filter_nil, List.map_nil, List.sum_nil,
      Int.add_zero]
  | cons iter entries induction =>
      rw [List.foldl_cons, addBytes]
      cases counted : isCounted tables.toRepoTables prinOnly user iter with
      | true =>
          rw [if_pos rfl, getcontentlength, toInt_toInt_add, induction,
            List.filter_cons_of_pos counted, List.map_cons, List.sum_cons,
            Int.add_assoc]
      | false =>
          have skipped : ¬ isCounted tables.toRepoTables prinOnly user iter =
              true := by
            rw [counted]
            exact Bool.false_ne_true
          rw [if_neg Bool.false_ne_true, induction,
            List.filter_cons_of_neg skipped]

/-! ## The items that are counted -/

theorem ownerId_eq {resource : Resource}
    (member : resource ∈ tables.resources) :
    ownerId tables.toRepoTables resource.id = resource.ownerId := by
  rw [ownerId, Sql.find_key tables.resourcesPkey member]

theorem isCounted_iff {iter : Entry} :
    isCounted tables.toRepoTables prinOnly user iter = true ↔
      iter.2 = none ∧ isMedia iter.1.resourcetype = true ∧
        (prinOnly = true →
          ownerId tables.toRepoTables iter.1.serialno = user) := by
  rw [isCounted, Bool.and_eq_true, Bool.and_eq_true, Option.isNone_iff_eq_none,
    and_assoc, Bool.or_eq_true, beq_iff_eq]
  cases prinOnly with
  | true => simp
  | false => simp

section Listing

variable {acl : AclTables} {principal : DavPrincipal}
  {r : UsedCollection tables} {done : List DavReposResource}
  {state : ListingState} {iter : Entry}

/-- The listing of the collection has ended. -/
structure Ended (tables : MediaTables) (acl : AclTables)
    (principal : DavPrincipal) (r : UsedCollection tables)
    (done : List DavReposResource) (state : ListingState) : Prop where
  invariant : LoopInvariant tables.toListedTables
    (privFilter acl principal (some read)) r.toStartCollection done state
  last : state.nextLevelChildren = []

/-- An item has the type of its resource, and its bind is listed. -/
theorem Ended.resource
    (ended : Ended tables acl principal r done state)
    (member : iter ∈ state.linkHead) :
    ∃ resource ∈ tables.resources, resource.id = iter.1.serialno ∧
      resource.resourcetype = iter.1.resourcetype ∧
      ∃ bind, Listed tables.toRepoTables
        (privFilter acl principal (some read)) r.serialno bind ∧
        bind.resourceId = resource.id := by
  have inDone : iter.1 ∈ done ++ state.nextLevelChildren := by
    rw [ended.last, List.append_nil, ← map_fst_marked ended.invariant.marked]
    exact List.mem_map_of_mem member
  rcases ended.invariant.walk.located iter.1 inDone with
    ⟨chain, bind, located⟩
  rcases located.resource with ⟨resource, stored, id, ofType⟩
  have lists := (ended.invariant.listsGraph ended.last).binds
  rcases lists.sound iter member with ⟨found, listed, _, serialno, _⟩
  refine ⟨resource, stored, id.trans located.serialno.symm, ofType, found,
    listed, ?_⟩
  rw [← serialno, located.serialno, id]

theorem isMedia_of_isCollection {resourcetype : ResourceType}
    (isCollection : resourcetype.isCollection = true) :
    isMedia resourcetype = false := by
  revert isCollection
  cases resourcetype
  all_goals decide

/-- A resource with a body is not the collection itself. -/
theorem media_ne_start {resource : Resource}
    (stored : resource ∈ tables.resources)
    (media : isMedia resource.resourcetype = true) :
    resource.id ≠ r.serialno := by
  intro same
  have isCollection := r.isCollection
  rw [← r.stored resource stored same] at isCollection
  rw [isMedia_of_isCollection isCollection] at media
  cases media

/-- Of the items of a resource one is without a pointer. -/
theorem Ended.unmarked
    (ended : Ended tables acl principal r done state)
    {resource : Resource}
    (stored : resource ∈ tables.resources)
    (media : isMedia resource.resourcetype = true)
    (listed : ∃ iter ∈ state.linkHead, iter.1.serialno = resource.id) :
    ∃ first ∈ state.linkHead, first.1.serialno = resource.id ∧
      first.2 = none ∧
      ∀ iter ∈ state.linkHead, iter.1.serialno = resource.id →
        iter.2 = none → iter = first := by
  have marks := (ended.invariant.listsGraph ended.last).marks
  rcases marks resource.id (media_ne_start stored media) listed with
    ⟨index, first, present, serialno, pointer, others⟩
  refine ⟨first, List.mem_of_getElem? present, serialno, pointer, ?_⟩
  intro iter member same unmarked
  rcases List.mem_iff_getElem?.mp member with ⟨place, found⟩
  by_cases equal : place = index
  · rw [equal, present] at found
    exact (Option.some.inj found).symm
  · rcases (others place iter found same equal).2 with ⟨_, _, back, _⟩
    rw [unmarked] at back
    cases back

/-- The counted items and the resources of the tree have the same ids. -/
theorem Ended.mem_counted_iff
    (ended : Ended tables acl principal r done state)
    (owner : prinOnly = true → user = davReposGetPrincipalId principal)
    {resource : Resource} (stored : resource ∈ tables.resources) :
    (∃ iter ∈ state.linkHead,
        isCounted tables.toRepoTables prinOnly user iter = true ∧
          iter.1.serialno = resource.id) ↔
      InTree tables acl principal r prinOnly resource := by
  constructor
  · rintro ⟨iter, member, counted, serialno⟩
    rw [isCounted_iff, serialno, ownerId_eq stored] at counted
    rcases ended.resource member with
      ⟨other, otherStored, id, ofType, bind, listed, same⟩
    have equal : other = resource :=
      List.inj_on_of_nodup_map tables.resourcesPkey otherStored stored
        (id.trans serialno)
    rw [equal] at ofType same
    refine ⟨ofType ▸ counted.2.1, ?_, bind, listed, same⟩
    intro only
    rw [counted.2.2 only, owner only]
  · rintro ⟨media, owned, bind, listed, same⟩
    have lists := (ended.invariant.listsGraph ended.last).binds
    rcases lists.complete bind listed with ⟨entry, inList, bindId⟩
    rcases lists.sound entry inList with ⟨found, foundListed, id, serialno, _⟩
    have binds : found = bind :=
      List.inj_on_of_nodup_map tables.binds.pkey foundListed.bound
        listed.bound (id.symm.trans bindId)
    rw [binds, same] at serialno
    rcases ended.unmarked stored media ⟨entry, inList, serialno⟩ with
      ⟨first, firstListed, firstId, pointer, _⟩
    refine ⟨first, firstListed, ?_, firstId⟩
    rcases ended.resource firstListed with
      ⟨other, otherStored, otherId, ofType, _⟩
    have equal : other = resource :=
      List.inj_on_of_nodup_map tables.resourcesPkey otherStored stored
        (otherId.trans firstId)
    rw [isCounted_iff, ← ofType, equal, firstId, ownerId_eq stored]
    exact ⟨pointer, media, fun only => (owned only).trans (owner only).symm⟩

/-- One counted item for each resource of the tree, and no other. -/
theorem Ended.perm_counted
    (ended : Ended tables acl principal r done state)
    (owner : prinOnly = true → user = davReposGetPrincipalId principal) :
    ((state.linkHead.filter
        (isCounted tables.toRepoTables prinOnly user)).map
          fun iter => iter.1.serialno).Perm
      ((treeResources tables acl principal r prinOnly).map Resource.id) := by
  have lists := (ended.invariant.listsGraph ended.last).binds
  have once : (state.linkHead.filter
      (isCounted tables.toRepoTables prinOnly user)).Nodup :=
    (List.Nodup.of_map _ lists.once).filter _
  have distinct : ((state.linkHead.filter
      (isCounted tables.toRepoTables prinOnly user)).map
        fun iter => iter.1.serialno).Nodup := by
    apply List.Nodup.map_on _ once
    intro first firstMember second secondMember same
    rcases List.mem_filter.mp firstMember with ⟨firstListed, firstCounted⟩
    rcases List.mem_filter.mp secondMember with ⟨secondListed, secondCounted⟩
    rw [isCounted_iff] at firstCounted secondCounted
    rcases ended.resource firstListed with ⟨resource, stored, id, ofType, _⟩
    have media : isMedia resource.resourcetype = true :=
      ofType ▸ firstCounted.2.1
    rcases ended.unmarked stored media ⟨first, firstListed, id.symm⟩ with
      ⟨unmarked, _, _, _, only⟩
    rw [only first firstListed id.symm firstCounted.1,
      only second secondListed (same.symm.trans id.symm) secondCounted.1]
  have treeDistinct : ((treeResources tables acl principal r prinOnly).map
      Resource.id).Nodup :=
    tables.resourcesPkey.sublist (List.filter_sublist.map Resource.id)
  rw [List.perm_ext_iff_of_nodup distinct treeDistinct]
  intro serialno
  simp only [List.mem_map, List.mem_filter, treeResources, decide_eq_true_eq]
  constructor
  · rintro ⟨iter, ⟨member, counted⟩, rfl⟩
    rcases ended.resource member with ⟨resource, stored, id, _⟩
    refine ⟨resource, ⟨stored, ?_⟩, id⟩
    exact (ended.mem_counted_iff owner stored).mp
      ⟨iter, member, counted, id.symm⟩
  · rintro ⟨resource, ⟨stored, inTree⟩, rfl⟩
    rcases (ended.mem_counted_iff owner stored).mpr inTree with
      ⟨iter, member, counted, serialno⟩
    exact ⟨iter, ⟨member, counted⟩, serialno⟩

end Listing

/-! ## The bytes of the tree -/

theorem treeBytes_nonneg
    (acl : AclTables) (principal : DavPrincipal) (r : UsedCollection tables)
    (prinOnly : Bool) :
    0 ≤ treeBytes tables acl principal r prinOnly := by
  apply List.sum_nonneg
  intro bytes member
  rcases List.mem_map.mp member with ⟨resource, _, rfl⟩
  rw [size]
  split
  next => exact le_rfl
  next row found =>
    exact (tables.sizes row (List.mem_of_find?_eq_some found)).1

/-- What is returned for a collection that is listed. -/
theorem sabridgeGetUsedBytes_listed
    (order : Sql.RowOrder MemberRow) (tables : MediaTables)
    (acl : AclTables) (principal : DavPrincipal) (uninitialised : Id)
    (r : UsedCollection tables) (prinOnly : Bool)
    (listed : ¬ (r.resourcetype ≠ .collection ∧
      r.ownerId = userId principal prinOnly uninitialised))
    (fuel : Nat) (enough : 2 * tables.resources.length + 1 < fuel) :
    sabridgeGetUsedBytes fuel order tables acl principal uninitialised r
      prinOnly = some (toInt (treeBytes tables acl principal r prinOnly)) := by
  rcases exists_children order tables.toListedTables
    (privFilter acl principal (some read)) r.toStartCollection with
    ⟨children, stopped, done, state, invariant, last, rfl⟩
  have ended : Ended tables acl principal r done state := ⟨invariant, last⟩
  have owner : prinOnly = true → userId principal prinOnly uninitialised =
      davReposGetPrincipalId principal :=
    fun only => if_pos only
  have sizes := ((ended.perm_counted owner).map (size tables)).sum_eq
  rw [List.map_map, List.map_map] at sizes
  have added := foldl_addBytes tables prinOnly
    (userId principal prinOnly uninitialised) state.linkHead 0
  rw [Int.zero_add] at added
  rw [sabridgeGetUsedBytes, if_neg listed, stopped fuel enough]
  exact congrArg some (added.trans (congrArg toInt sizes))

/--
The bytes are exact iff they are less than 2 GiB; where the collection is not
listed, iff there are none.
-/
theorem sabridgeGetUsedBytes_eq_iff
    (order : Sql.RowOrder MemberRow) (tables : MediaTables)
    (acl : AclTables) (principal : DavPrincipal) (uninitialised : Id)
    (r : UsedCollection tables) (prinOnly : Bool) :
    ∃ usedBytes,
      (∀ fuel, 2 * tables.resources.length + 1 < fuel →
        sabridgeGetUsedBytes fuel order tables acl principal uninitialised r
          prinOnly = some usedBytes) ∧
      (usedBytes = treeBytes tables acl principal r prinOnly ↔
        if r.resourcetype ≠ .collection ∧
            r.ownerId = userId principal prinOnly uninitialised then
          treeBytes tables acl principal r prinOnly = 0
        else treeBytes tables acl principal r prinOnly < 2 ^ 31) := by
  by_cases unlisted : r.resourcetype ≠ .collection ∧
      r.ownerId = userId principal prinOnly uninitialised
  · refine ⟨0, fun fuel _ => if_pos unlisted, ?_⟩
    rw [if_pos unlisted]
    exact eq_comm
  · refine ⟨toInt (treeBytes tables acl principal r prinOnly), ?_, ?_⟩
    · exact sabridgeGetUsedBytes_listed order tables acl principal
        uninitialised r prinOnly unlisted
    · rw [if_neg unlisted, toInt_eq_self_iff, IsInteger]
      have positive := treeBytes_nonneg acl principal r prinOnly
      constructor
      · exact And.right
      · exact fun less => ⟨by omega, less⟩

/-! ## A body of 2 GiB -/

/-- The root collection and one resource in it. -/
def largeBody : MediaTables where
  resources := [⟨2, .collection, 1, 1⟩, ⟨7, .resource, 1, 1⟩]
  binds :=
    { rows := [⟨1, "a".toList, 2, 7, none⟩]
      pkey := by decide
      collectionIdKey := by decide
      positive := by decide }
  versions := []
  vhrs := []
  vcrs := []
  resourcesPkey := by decide
  vhrsResource := List.nodup_nil
  fkBindCollection := by decide
  fkBindResource := by decide
  fkVersionVhr := noVersions_fkVersionVhr
  fkVhrRootVersion := noVersions_fkVhrRootVersion
  versionType := nofun
  versionsResource := List.nodup_nil
  vcrsChecked := List.nodup_nil
  media := [(7, 2 ^ 31)]
  mediaPkey := by decide
  mediaResource := by decide
  sizes := by decide

/-- Everyone may read everything. -/
def readable : AclTables where
  __ := noEntries
  aces := [⟨1, 'G', false, 2, 3⟩]
  davAcesPrivileges := [(1, 1)]
  aclPrivileges := [⟨1, read, 1, 1, 2⟩]
  aclInheritance := [⟨2, [2]⟩, ⟨7, [2, 7]⟩]
  acesPkey := by decide
  aclPrivilegesPkey := by decide
  aclPrivilegesName := by decide
  aclInheritancePkey := by decide
  fkPrivilegeNamespace := by decide

def largeRoot : UsedCollection largeBody where
  toStartCollection := rootStart
  ownerId := 1
  stored := by decide

theorem treeBytes_largeBody :
    treeBytes largeBody readable .all largeRoot false = 2 ^ 31 := by
  have granted : grantdenyColumn readable (davReposGetPrincipalId .all) read
      ⟨1, "a".toList, 2, 7, none⟩ = some aclGrant := by
    decide
  have inTree : InTree largeBody readable .all largeRoot false
      ⟨7, .resource, 1, 1⟩ := by
    refine ⟨rfl, nofun, ⟨1, "a".toList, 2, 7, none⟩, ⟨?_, ?_, ?_⟩, rfl⟩
    · exact List.mem_singleton_self _
    · intro column same
      rw [← Option.some.inj same]
      exact granted
    · exact ⟨[], rfl⟩
  have body : treeResources largeBody readable .all largeRoot false =
      [⟨7, .resource, 1, 1⟩] := by
    have noMedia : ¬ InTree largeBody readable .all largeRoot false
        ⟨2, .collection, 1, 1⟩ :=
      fun inTree => Bool.false_ne_true inTree.1
    show List.filter _ [(⟨2, .collection, 1, 1⟩ : Resource),
      ⟨7, .resource, 1, 1⟩] = _
    rw [List.filter_cons_of_neg (by simp [noMedia]),
      List.filter_cons_of_pos (by simp [inTree]), List.filter_nil]
  rw [treeBytes, body]
  rfl

/-- The bytes of a body of 2 GiB are a negative number. -/
theorem not_sabridgeGetUsedBytes_eq :
    ¬ ∀ (order : Sql.RowOrder MemberRow) (tables : MediaTables)
        (acl : AclTables) (principal : DavPrincipal) (uninitialised : Id)
        (r : UsedCollection tables) (prinOnly : Bool),
      treeBytes tables acl principal r prinOnly < 2 ^ 63 →
      ∀ fuel, 2 * tables.resources.length + 1 < fuel →
        sabridgeGetUsedBytes fuel order tables acl principal uninitialised r
          prinOnly = some (treeBytes tables acl principal r prinOnly) := by
  intro always
  have found := sabridgeGetUsedBytes_listed (Sql.RowOrder.stored _) largeBody
    readable .all 0 largeRoot false (by decide) 6 (by decide)
  have wanted := always (Sql.RowOrder.stored _) largeBody readable .all 0
    largeRoot false (by rw [treeBytes_largeBody]; decide) 6 (by decide)
  rw [found, treeBytes_largeBody] at wanted
  exact absurd wanted (by decide)

end Limestone.UsedBytes
