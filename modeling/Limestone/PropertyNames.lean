import Limestone.DeadProperties
import Limestone.Library.LastSeen
import Limestone.Library.Segments

/-!
# The names of dead properties: `props.c`

The dead properties of a resource are in a hash under a key made of namespace
and name.  Their names are told one after another by taking the keys of the
hash apart.  The empty namespace has a stand-in in the key, and is not
restored from it.
-/

namespace Limestone.PropertyNames

open Library DbmsProperties

/-! ## Keys -/

/-- `dav_prop_name`; `none` is NULL. -/
structure DavPropName where
  ns : Option Text
  name : Option Text
deriving DecidableEq, Repr

/-- `NULL_NAMESPACE`. -/
def nullNamespace : Text :=
  [' ']

/-- `dav_repos_build_ns_name_key`. -/
def davReposBuildNsNameKey (ns name : Text) : Text :=
  (if ns = [] then nullNamespace else ns) ++ '\t' :: name

/-- `dav_repos_get_ns_name_key`: the first two tokens. -/
def davReposGetNsNameKey (key : Text) : DavPropName where
  ns := (Segments.tokens '\t' key)[0]?
  name := (Segments.tokens '\t' key)[1]?

/-! ## The hash of a resource -/

/-- The dead properties by their keys. -/
abbrev PrHash := AList fun _ : Text => FilledProperty

/-- The order in which the keys of a hash are iterated over. -/
structure KeyOrder where
  arrange : List Text → List Text
  perm : ∀ keys, (arrange keys).Perm keys

/-- What the functions below use of a `dav_repos_resource`. -/
structure DavReposResource where
  serialno : Id
  pr : List FilledProperty := []
  prHash : Option PrHash := none
  /-- The keys from the current entry on, `[]` for NULL. -/
  prHashIndex : List Text := []

/-- The key of a property that has been read. -/
def propertyKey (pr : FilledProperty) : Text :=
  davReposBuildNsNameKey pr.namespaceName pr.name

/-- `dav_repos_build_pr_hash`. -/
def davReposBuildPrHash (tables : PropertyTables) (dbr : DavReposResource) :
    DavReposResource :=
  let pr := dbmsFillDeadProperty tables dbr.serialno dbr.pr
  { dbr with
    pr := pr
    prHash := some (pr.foldl
      (fun hash deadProp => hash.insert (propertyKey deadProp) deadProp) ∅) }

/-- The resource with its hash, and the hash. -/
def ensurePrHash (tables : PropertyTables) (dbr : DavReposResource) :
    DavReposResource :=
  match dbr.prHash with
  | some _ => dbr
  | none => davReposBuildPrHash tables dbr

/-- What is told of the entry that the iteration has come to. -/
def currentName (dbr : DavReposResource) : DavPropName :=
  match dbr.prHashIndex with
  | [] => ⟨none, none⟩
  | key :: _ => davReposGetNsNameKey key

/-- `dav_repos_db_first_name`. -/
def davReposDbFirstName (tables : PropertyTables) (order : KeyOrder)
    (dbr : DavReposResource) : DavReposResource × DavPropName :=
  let dbr := ensurePrHash tables dbr
  let keys := (dbr.prHash.map AList.keys).getD []
  let dbr := { dbr with prHashIndex := order.arrange keys }
  (dbr, currentName dbr)

/-- `dav_repos_db_next_name`. -/
def davReposDbNextName (dbr : DavReposResource) :
    DavReposResource × DavPropName :=
  let dbr := { dbr with prHashIndex := dbr.prHashIndex.tail }
  (dbr, currentName dbr)

/-- The names that are told from one on until there is no name. -/
inductive Tells : DavReposResource × DavPropName → List DavPropName → Prop
  | done {told : DavReposResource × DavPropName}
      (missing : told.2.name = none) :
      Tells told []
  | more {told : DavReposResource × DavPropName} {names : List DavPropName}
      (present : told.2.name ≠ none)
      (later : Tells (davReposDbNextName told.1) names) :
      Tells told (told.2 :: names)

/-! ## The names that are stored -/

/-- The namespaces and names of the dead properties of a resource. -/
def storedNames (tables : PropertyTables) (serialno : Id) :
    List (Text × Text) :=
  ((Sql.crossJoin tables.properties tables.namespaces).filter fun row =>
    row.1.namespaceId == row.2.1 && row.1.resourceId == serialno).map
      fun row => (row.2.2, row.1.name)

/-- The namespace and name as they are told. -/
def toldName (pair : Text × Text) : DavPropName :=
  ⟨some pair.1, some pair.2⟩

def pairKey (pair : Text × Text) : Text :=
  davReposBuildNsNameKey pair.1 pair.2

/-- All dead properties of a resource are told by their names. -/
structure TellsStored (tables : PropertyTables) (order : KeyOrder)
    (serialno : Id) : Prop where
  told : ∃ names,
    Tells (davReposDbFirstName tables order { serialno := serialno }) names ∧
      names.Perm ((storedNames tables serialno).map toldName)
  undone : ∀ pair ∈ storedNames tables serialno,
    davReposGetNsNameKey (pairKey pair) = toldName pair
  injective : ∀ pair ∈ storedNames tables serialno,
    ∀ other ∈ storedNames tables serialno,
      pairKey pair = pairKey other → pair = other

/-- A namespace and a name that can be told from their key. -/
def IsTellable (pair : Text × Text) : Prop :=
  (pair.1 ≠ [] ∧ '\t' ∉ pair.1) ∧ pair.2 ≠ [] ∧ '\t' ∉ pair.2

variable {tables : PropertyTables} {order : KeyOrder} {serialno : Id}
  {pair : Text × Text} {told : DavReposResource × DavPropName}
  {names : List DavPropName} {dbr : DavReposResource} {key : Text}

/-! ## Keys that are taken apart -/

theorem davReposGetNsNameKey_pairKey (tellable : IsTellable pair) :
    davReposGetNsNameKey (pairKey pair) = toldName pair := by
  rcases tellable with ⟨ns, name⟩
  have tokens : Segments.tokens '\t' (pairKey pair) = [pair.1, pair.2] := by
    rw [pairKey, davReposBuildNsNameKey, if_neg ns.1,
      Segments.tokens_append_sep, Segments.tokens_segment ns,
      Segments.tokens_segment name]
    rfl
  unfold davReposGetNsNameKey
  rw [tokens]
  rfl

/-- What is told of a key can always be told. -/
theorem isTellable_of_davReposGetNsNameKey
    (found : davReposGetNsNameKey key = toldName pair) :
    IsTellable pair := by
  have ns : (Segments.tokens '\t' key)[0]? = some pair.1 :=
    congrArg DavPropName.ns found
  have name : (Segments.tokens '\t' key)[1]? = some pair.2 :=
    congrArg DavPropName.name found
  exact ⟨Segments.isSegment_of_mem_tokens (List.mem_of_getElem? ns),
    Segments.isSegment_of_mem_tokens (List.mem_of_getElem? name)⟩

theorem pairKey_inj
    {other : Text × Text}
    (tellable : IsTellable pair) (otherTellable : IsTellable other)
    (same : pairKey pair = pairKey other) :
    pair = other := by
  have told : toldName pair = toldName other := by
    rw [← davReposGetNsNameKey_pairKey tellable, same,
      davReposGetNsNameKey_pairKey otherTellable]
  exact Prod.ext (Option.some.inj (congrArg DavPropName.ns told))
    (Option.some.inj (congrArg DavPropName.name told))

/-! ## The keys of the hash -/

theorem map_dbmsFillDeadProperty :
    ((dbmsFillDeadProperty tables serialno []).map fun pr =>
        (pr.namespaceName, pr.name)).Perm (storedNames tables serialno) := by
  rw [dbmsFillDeadProperty, if_neg (not_not.mpr rfl), List.map_map,
    storedNames, Sql.orderBy]
  exact (List.perm_insertionSort _ _).map _

theorem mem_keys_foldl_insert
    {pr : List FilledProperty} {hash : PrHash} :
    key ∈ pr.foldl
        (fun hash deadProp => hash.insert (propertyKey deadProp) deadProp)
        hash ↔
      key ∈ pr.map propertyKey ∨ key ∈ hash := by
  induction pr generalizing hash with
  | nil => simp
  | cons first pr induction =>
      rw [List.foldl_cons, induction, AList.mem_insert, List.map_cons,
        List.mem_cons]
      constructor
      · rintro (later | here | old)
        · exact Or.inl (Or.inr later)
        · exact Or.inl (Or.inl here)
        · exact Or.inr old
      · rintro ((here | later) | old)
        · exact Or.inr (Or.inl here)
        · exact Or.inl later
        · exact Or.inr (Or.inr old)

/-- The first name is that of the first key of the hash. -/
theorem davReposDbFirstName_eq :
    ∃ keys, davReposDbFirstName tables order { serialno := serialno } =
        ({ davReposBuildPrHash tables { serialno := serialno } with
            prHashIndex := keys },
          currentName
            { davReposBuildPrHash tables { serialno := serialno } with
              prHashIndex := keys }) ∧
      keys.Nodup ∧
      ∀ key, key ∈ keys ↔
        key ∈ (storedNames tables serialno).map pairKey := by
  have pairs := @map_dbmsFillDeadProperty tables serialno
  refine ⟨_, rfl, ?_, ?_⟩
  · exact (order.perm _).nodup_iff.mpr (AList.keys_nodup _)
  · intro key
    rw [(order.perm _).mem_iff]
    apply mem_keys_foldl_insert.trans
    have listed : (dbmsFillDeadProperty tables serialno []).map propertyKey =
        ((dbmsFillDeadProperty tables serialno []).map fun pr =>
          (pr.namespaceName, pr.name)).map pairKey := by
      rw [List.map_map]
      rfl
    rw [listed, (pairs.map pairKey).mem_iff]
    exact or_iff_left (AList.notMem_empty key)

/-! ## The names that are told -/

/-- The names are told in the order of the keys while there are names. -/
theorem tells_keys
    (named : ∀ key ∈ dbr.prHashIndex, (davReposGetNsNameKey key).name ≠ none) :
    Tells (dbr, currentName dbr) (dbr.prHashIndex.map davReposGetNsNameKey) := by
  rcases dbr with ⟨serialno, pr, prHash, keys⟩
  induction keys with
  | nil => exact Tells.done rfl
  | cons key keys induction =>
      refine Tells.more (named key List.mem_cons_self) ?_
      exact induction fun later member =>
        named later (List.mem_cons_of_mem key member)

/-- Only keys of the hash are told. -/
theorem mem_of_tells
    {name : DavPropName}
    (tells : Tells told names)
    (current : told.2 = currentName told.1)
    (member : name ∈ names) :
    ∃ key ∈ told.1.prHashIndex, davReposGetNsNameKey key = name := by
  induction tells with
  | done missing => cases member
  | more present later induction =>
      rename_i told names
      rcases told with ⟨⟨serialno, pr, prHash, keys⟩, first⟩
      have isCurrent : first = currentName ⟨serialno, pr, prHash, keys⟩ :=
        current
      subst isCurrent
      cases keys with
      | nil => exact absurd rfl present
      | cons key keys =>
          rcases List.mem_cons.mp member with rfl | further
          · exact ⟨key, List.mem_cons_self, rfl⟩
          · rcases induction rfl further with ⟨other, listed, found⟩
            exact ⟨other, List.mem_cons_of_mem key listed, found⟩

/-- What is told is settled by where the iteration begins. -/
theorem Tells.unique
    {others : List DavPropName}
    (tells : Tells told names) (other : Tells told others) :
    names = others := by
  induction tells generalizing others with
  | done missing =>
      cases other with
      | done _ => rfl
      | more present _ => exact absurd missing present
  | more present later induction =>
      cases other with
      | done missing => exact absurd missing present
      | more _ otherLater => rw [induction otherLater]

theorem tells_stored
    (distinct : (storedNames tables serialno).Nodup)
    (tellable : ∀ pair ∈ storedNames tables serialno, IsTellable pair) :
    ∃ names,
      Tells (davReposDbFirstName tables order { serialno := serialno }) names ∧
        names.Perm ((storedNames tables serialno).map toldName) := by
  rcases @davReposDbFirstName_eq tables order serialno with
    ⟨keys, first, nodup, listed⟩
  have decoded : ∀ pair ∈ storedNames tables serialno,
      davReposGetNsNameKey (pairKey pair) = toldName pair :=
    fun pair member => davReposGetNsNameKey_pairKey (tellable pair member)
  have storedKeys : ((storedNames tables serialno).map pairKey).Nodup := by
    apply distinct.map_on
    intro pair member other otherMember same
    exact pairKey_inj (tellable pair member) (tellable other otherMember) same
  have keysPerm : keys.Perm ((storedNames tables serialno).map pairKey) :=
    (List.perm_ext_iff_of_nodup nodup storedKeys).mpr listed
  rw [first]
  refine ⟨keys.map davReposGetNsNameKey, tells_keys ?_, ?_⟩
  · intro key member
    rcases List.mem_map.mp ((listed key).mp member) with ⟨pair, stored, rfl⟩
    rw [decoded pair stored]
    exact Option.some_ne_none pair.2
  · have names : ((storedNames tables serialno).map pairKey).map
        davReposGetNsNameKey = (storedNames tables serialno).map toldName := by
      rw [List.map_map]
      exact List.map_congr_left decoded
    rw [← names]
    exact keysPerm.map davReposGetNsNameKey

theorem isTellable_of_told
    (told : ∃ names,
      Tells (davReposDbFirstName tables order { serialno := serialno }) names ∧
        names.Perm ((storedNames tables serialno).map toldName))
    (member : pair ∈ storedNames tables serialno) :
    IsTellable pair := by
  rcases told with ⟨names, tells, perm⟩
  have listed : toldName pair ∈ names :=
    perm.mem_iff.mpr (List.mem_map.mpr ⟨pair, member, rfl⟩)
  rcases mem_of_tells tells rfl listed with ⟨key, -, found⟩
  exact isTellable_of_davReposGetNsNameKey found

/--
The dead properties of a resource are told by their names if and only if no
namespace and no name is empty or has a tab.
-/
theorem tellsStored_iff
    (tables : PropertyTables) (order : KeyOrder) (serialno : Id)
    (distinct : (storedNames tables serialno).Nodup) :
    TellsStored tables order serialno ↔
      ∀ pair ∈ storedNames tables serialno,
        (pair.1 ≠ [] ∧ '\t' ∉ pair.1) ∧ pair.2 ≠ [] ∧ '\t' ∉ pair.2 := by
  constructor
  · intro tells pair member
    exact isTellable_of_told tells.told member
  · intro tellable
    refine ⟨tells_stored distinct tellable, ?_, ?_⟩
    · intro pair member
      exact davReposGetNsNameKey_pairKey (tellable pair member)
    · intro pair member other otherMember same
      exact pairKey_inj (tellable pair member) (tellable other otherMember)
        same

/-- Tables with one dead property of the resource 1, in a namespace. -/
def tablesWith (namespaceName : Text) : PropertyTables where
  properties := [⟨1, 1, "colour".toList, 1, "<colour>".toList, "red".toList⟩]
  nextId := 2
  namespaces := [(1, namespaceName)]
  resources := [1]
  namespaceKeys := List.nodup_singleton 1
  namespaceExists := by simp

def keptKeyOrder : KeyOrder :=
  ⟨id, fun _ => List.Perm.refl _⟩

theorem tellsStored_example :
    (storedNames (tablesWith "urn:example".toList) 1).Nodup ∧
      TellsStored (tablesWith "urn:example".toList) keptKeyOrder 1 :=
  ⟨by decide, (tellsStored_iff _ keptKeyOrder 1 (by decide)).mpr (by decide)⟩

theorem not_tellsStored :
    ¬ ∀ (tables : PropertyTables) (order : KeyOrder) (serialno : Id),
      (storedNames tables serialno).Nodup →
        TellsStored tables order serialno := by
  intro tells
  have stored : storedNames (tablesWith []) 1 = [([], "colour".toList)] := by
    decide
  have distinct : (storedNames (tablesWith []) 1).Nodup := by
    rw [stored]
    exact List.nodup_singleton _
  have told := (tells (tablesWith []) keptKeyOrder 1 distinct).told
  have tellable : IsTellable ([], "colour".toList) :=
    isTellable_of_told told (by rw [stored]; exact List.mem_singleton_self _)
  exact tellable.1.1 rfl

end Limestone.PropertyNames
