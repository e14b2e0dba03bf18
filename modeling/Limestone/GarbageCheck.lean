import Limestone.PathSearch
import Limestone.ReverseLookup
import Mathlib.Data.List.DropRight
import Mathlib.Data.Set.Card

/-!
# The count of leaked resources: `check_garbage_collection.rb`

The script counts the resources at and below `/history` and those at and below
`/bitmarks` and takes both numbers from the number of all resources.  Each of
the numbers is the number of resources that the bind graph reaches; a resource
that is reached from both collections is taken away twice.
-/

namespace Limestone.GarbageCheck

open Library
open DbmsBind
open PathSearch
open UriLookup

/-! ## Tables and sets -/

/-- The tables that the script reads. -/
structure Tables where
  /-- The column `id` of `resources`. -/
  resources : List Id
  binds : BindTable
  resourcesPkey : resources.Nodup
  /-- `binds_resource_id_fkey`. -/
  bindsResourceIdFkey : ∀ bind ∈ binds.rows, bind.resourceId ∈ resources

/-- `Set#add`; the elements of a set are in the order in which they came. -/
def add (elements : List Id) (element : Id) : List Id :=
  if element ∈ elements then elements else elements ++ [element]

/-- `Set#merge`. -/
def merge (elements others : List Id) : List Id :=
  others.foldl add elements

theorem mem_add (elements : List Id) (element other : Id) :
    other ∈ add elements element ↔ other ∈ elements ∨ other = element := by
  rw [add]
  split
  case isTrue member =>
    constructor
    · exact Or.inl
    · rintro (old | rfl)
      · exact old
      · exact member
  case isFalse =>
    rw [List.mem_append, List.mem_singleton]

theorem nodup_add
    {elements : List Id}
    (nodup : elements.Nodup)
    (element : Id) :
    (add elements element).Nodup := by
  rw [add]
  split
  case isTrue => exact nodup
  case isFalse fresh =>
      rw [← List.concat_eq_append]
      exact nodup.concat fresh

theorem mem_merge (elements others : List Id) (other : Id) :
    other ∈ merge elements others ↔ other ∈ elements ∨ other ∈ others := by
  induction others generalizing elements with
  | nil => simp [merge]
  | cons head tail induction =>
      have step : merge elements (head :: tail) =
          merge (add elements head) tail :=
        rfl
      rw [step, induction, mem_add, List.mem_cons, or_assoc]

theorem nodup_merge
    {elements : List Id}
    (nodup : elements.Nodup)
    (others : List Id) :
    (merge elements others).Nodup := by
  induction others generalizing elements with
  | nil => exact nodup
  | cons head tail induction => exact induction (nodup_add nodup head)

/-! ## The script -/

/-- `split('/')`, which gives no empty strings at the end. -/
def split (url : Text) : List Text :=
  (url.splitOn '/').rdropWhile List.isEmpty

/-- The loop of `get_resource_id`. -/
def walkFrom (binds : List Bind) : Id → List Text → Id
  | resId, [] => resId
  | resId, tok :: toks =>
      match bindNamed binds resId tok with
      | some row => walkFrom binds row.resourceId toks
      | none => 0

/-- `get_resource_id`. -/
def getResourceId (binds : List Bind) (url : Text) : Id :=
  walkFrom binds rootCollectionId (split url)

/-- The sets of `get_num_unique_children` between two queries. -/
structure Traversal where
  parents : List Id
  /-- The ids that are listed in `parents_str`. -/
  parentsStr : List Id

/-- The children in the rows of one query. -/
def queryChildren (binds : List Bind) (parentsStr : List Id) : List Id :=
  merge [] ((binds.filter fun bind =>
    decide (bind.collectionId ∈ parentsStr)).map Bind.resourceId)

/-- One pass of the loop; it ends with the number of parents. -/
def pass (binds : List Bind) (traversal : Traversal) : Nat ⊕ Traversal :=
  let children := queryChildren binds traversal.parentsStr
  let newChildren := children.filter fun child =>
    decide (child ∉ traversal.parents)
  let next : Traversal :=
    { parents := merge traversal.parents newChildren
      parentsStr := traversal.parentsStr ++ newChildren }
  if newChildren.length > 0 then .inr next else .inl next.parents.length

/-- `get_num_unique_children`; `none` is a loop that has not ended yet. -/
def getNumUniqueChildren (fuel : Nat) (binds : List Bind) (url : Text) :
    Option Nat :=
  let resId := getResourceId binds url
  if resId = 0 then some 0
  else
    Loop.run (pass binds) fuel
      { parents := merge [] [resId], parentsStr := [resId] }

def history : Text := "history".toList
def bitmarks : Text := "bitmarks".toList

/-- `@num_resources_left_behind`. -/
def numResourcesLeftBehind (fuel : Nat) (tables : Tables) : Option Int := do
  let rows := tables.resources.length
  let first ← getNumUniqueChildren fuel tables.binds.rows history
  let second ← getNumUniqueChildren fuel tables.binds.rows bitmarks
  return (rows : Int) - (first + second : Nat)

/-! ## What is reached -/

/-- The resource is at or below the collection of a name in the root. -/
def ReachedFrom (tables : Tables) (name : Text) (resource : Id) : Prop :=
  ∃ bind ∈ tables.binds.rows, bind.collectionId = rootCollectionId ∧
    bind.name = name ∧
      (bindGraph tables.binds.rows).Reaches bind.resourceId resource

/-- The resources that neither `/history` nor `/bitmarks` reaches. -/
def leftBehind (tables : Tables) : Set Id :=
  {resource | resource ∈ tables.resources ∧
    ¬ ReachedFrom tables history resource ∧
      ¬ ReachedFrom tables bitmarks resource}

/-- The traversals end, and the number is that of the leaked resources. -/
def CountsRight (tables : Tables) : Prop :=
  ∃ enough, ∀ fuel, enough ≤ fuel →
    numResourcesLeftBehind fuel tables =
      some ((leftBehind tables).ncard : Int)

/-! ## The traversal -/

variable {binds : List Bind} {start : Id}

/-- What holds between two queries. -/
structure Traversing (binds : List Bind) (start : Id)
    (traversal : Traversal) : Prop where
  nodup : traversal.parents.Nodup
  start_mem : start ∈ traversal.parents
  reached : ∀ parent ∈ traversal.parents,
    (bindGraph binds).Reaches start parent
  listed : ∀ parent, parent ∈ traversal.parentsStr ↔
    parent ∈ traversal.parents

/-- The binds to resources that are no parents, as the measure. -/
def unmet (binds : List Bind) (traversal : Traversal) : Nat :=
  binds.countP fun bind => decide (bind.resourceId ∉ traversal.parents)

theorem mem_queryChildren (parentsStr : List Id) (child : Id) :
    child ∈ queryChildren binds parentsStr ↔
      ∃ bind ∈ binds, bind.collectionId ∈ parentsStr ∧
        bind.resourceId = child := by
  rw [queryChildren, mem_merge]
  simp [and_assoc]

theorem traversing_init (binds : List Bind) (start : Id) :
    Traversing binds start
      { parents := merge [] [start], parentsStr := [start] } where
  nodup := nodup_merge List.nodup_nil [start]
  start_mem := (mem_merge [] [start] start).mpr (Or.inr (by simp))
  reached := by
    intro parent member
    rcases (mem_merge [] [start] parent).mp member with none | same
    · cases none
    · rw [List.mem_singleton.mp same]
      exact Multigraph.Reaches.refl _ _
  listed := by
    intro parent
    rw [mem_merge]
    simp

namespace Traversing

variable {traversal next : Traversal} {count : Nat}

/-- The children of the parents are reached. -/
theorem reached_queryChildren
    (traversing : Traversing binds start traversal)
    {child : Id}
    (member : child ∈ queryChildren binds traversal.parentsStr) :
    (bindGraph binds).Reaches start child := by
  rcases (mem_queryChildren _ _).mp member with ⟨bind, present, source, rfl⟩
  have before : (bindGraph binds).Reaches start
      ((bindGraph binds).source bind) :=
    traversing.reached _ ((traversing.listed _).mp source)
  exact before.tail present

/-- A pass that goes on keeps what holds, and has found a new parent. -/
theorem continues
    (traversing : Traversing binds start traversal)
    (goes : pass binds traversal = .inr next) :
    Traversing binds start next ∧
      unmet binds next < unmet binds traversal := by
  simp only [pass] at goes
  split at goes
  case isFalse => cases goes
  case isTrue some =>
    rcases Sum.inr.inj goes with rfl
    constructor
    · constructor
      · exact nodup_merge traversing.nodup _
      · exact (mem_merge _ _ _).mpr (Or.inl traversing.start_mem)
      · intro parent member
        rcases (mem_merge _ _ _).mp member with old | new
        · exact traversing.reached parent old
        · exact traversing.reached_queryChildren (List.mem_of_mem_filter new)
      · intro parent
        rw [List.mem_append, mem_merge, traversing.listed]
    · rcases List.exists_mem_of_length_pos some with ⟨child, new⟩
      have fresh := of_decide_eq_true (List.mem_filter.mp new).2
      rcases (mem_queryChildren _ _).mp (List.mem_of_mem_filter new) with
        ⟨bind, present, -, rfl⟩
      apply Loop.countP_lt_countP _ present
      · exact decide_eq_true fresh
      · apply decide_eq_false
        rw [not_not]
        exact (mem_merge _ _ _).mpr (Or.inr new)
      · intro other _ outside
        apply decide_eq_true
        intro old
        exact of_decide_eq_true outside ((mem_merge _ _ _).mpr (Or.inl old))

/-- The loop is left when the parents are all that is reached. -/
theorem leaves
    (traversing : Traversing binds start traversal)
    (left : pass binds traversal = .inl count) :
    count = {resource | (bindGraph binds).Reaches start resource}.ncard := by
  simp only [pass] at left
  split at left
  case isTrue => cases left
  case isFalse none =>
    rcases Sum.inl.inj left with rfl
    have noNew := List.eq_nil_of_length_eq_zero (Nat.eq_zero_of_not_pos none)
    have closed : ∀ bind ∈ binds, bind.collectionId ∈ traversal.parents →
        bind.resourceId ∈ traversal.parents := by
      intro bind present source
      have child := (mem_queryChildren traversal.parentsStr bind.resourceId).mpr
        ⟨bind, present, (traversing.listed _).mpr source, rfl⟩
      by_contra fresh
      have new : bind.resourceId ∈
          (queryChildren binds traversal.parentsStr).filter fun child =>
            decide (child ∉ traversal.parents) :=
        List.mem_filter.mpr ⟨child, decide_eq_true fresh⟩
      rw [noNew] at new
      cases new
    have same : {resource | (bindGraph binds).Reaches start resource} =
        (traversal.parents.toFinset : Set Id) := by
      ext resource
      rw [Set.mem_ofPred_eq, Finset.mem_coe, List.mem_toFinset]
      constructor
      · intro reaches
        exact reaches.mem_of_closed (S := (· ∈ traversal.parents))
          traversing.start_mem closed
      · exact traversing.reached resource
    rw [noNew, same, Set.ncard_coe_finset,
      List.toFinset_card_of_nodup traversing.nodup]
    rfl

end Traversing

/-- The traversal ends with the number of the resources that are reached. -/
theorem run_pass
    {fuel : Nat}
    (enough : binds.length < fuel) :
    Loop.run (pass binds) fuel
        { parents := merge [] [start], parentsStr := [start] } =
      some {resource | (bindGraph binds).Reaches start resource}.ncard := by
  have few : unmet binds { parents := merge [] [start], parentsStr := [start] }
      < fuel :=
    List.countP_le_length.trans_lt enough
  have leaves : ∀ traversal count, Traversing binds start traversal →
      pass binds traversal = .inl count →
        count = {resource | (bindGraph binds).Reaches start resource}.ncard :=
    fun _ _ traversing left => traversing.leaves left
  rcases Loop.run_spec leaves
      (fun _ _ traversing goes => traversing.continues goes)
      few (traversing_init binds start) with ⟨count, stops, rfl⟩
  exact stops

/-! ## The number -/

variable {tables : Tables} {name : Text}

/-- The unique key of the binds makes the collection of a name one. -/
theorem reachedFrom_iff
    {bind : Bind}
    (named : bindNamed tables.binds.rows rootCollectionId name = some bind)
    (resource : Id) :
    ReachedFrom tables name resource ↔
      (bindGraph tables.binds.rows).Reaches bind.resourceId resource := by
  constructor
  · rintro ⟨other, present, collection, rfl, reaches⟩
    have here := ReverseLookup.bindNamed_of_mem tables.binds present
    rw [collection, named] at here
    rw [Option.some.inj here]
    exact reaches
  · intro reaches
    rcases bindNamed_eq_some named with ⟨present, collection, called⟩
    exact ⟨bind, present, collection, called, reaches⟩

theorem not_reachedFrom
    (unnamed : bindNamed tables.binds.rows rootCollectionId name = none)
    (resource : Id) :
    ¬ ReachedFrom tables name resource := by
  rintro ⟨other, present, collection, rfl, -⟩
  have here := ReverseLookup.bindNamed_of_mem tables.binds present
  rw [collection, unnamed] at here
  cases here

/-- One number is that of the resources that are reached from the name. -/
theorem getNumUniqueChildren_eq
    {fuel : Nat}
    (single : split name = [name])
    (enough : tables.binds.rows.length < fuel) :
    getNumUniqueChildren fuel tables.binds.rows name =
      some {resource | ReachedFrom tables name resource}.ncard := by
  rw [getNumUniqueChildren, getResourceId, single, walkFrom]
  cases named : bindNamed tables.binds.rows rootCollectionId name with
  | none =>
      have empty : {resource | ReachedFrom tables name resource} = ∅ :=
        Set.eq_empty_of_forall_notMem (not_reachedFrom named)
      rw [empty, Set.ncard_empty]
      exact if_pos rfl
  | some bind =>
      have positive : 0 < bind.resourceId :=
        (tables.binds.positive bind (bindNamed_eq_some named).1).2
      have same : {resource | ReachedFrom tables name resource} =
          {resource | (bindGraph tables.binds.rows).Reaches bind.resourceId
            resource} := by
        ext resource
        exact reachedFrom_iff named resource
      rw [same]
      exact (if_neg positive.ne').trans (run_pass enough)

theorem split_history : split history = [history] := by
  decide

theorem split_bitmarks : split bitmarks = [bitmarks] := by
  decide

/-- What is reached is in the table of the resources. -/
theorem mem_resources
    {resource : Id}
    (reached : ReachedFrom tables name resource) :
    resource ∈ tables.resources := by
  rcases reached with ⟨bind, present, -, -, reaches⟩
  apply reaches.mem_of_closed (S := (· ∈ tables.resources))
  · exact tables.bindsResourceIdFkey bind present
  · intro arrow here _
    exact tables.bindsResourceIdFkey arrow here

/-- What is reached twice is taken away once too often. -/
theorem ncard_leftBehind (tables : Tables) :
    ((leftBehind tables).ncard : Int) -
        ({resource | ReachedFrom tables history resource} ∩
          {resource | ReachedFrom tables bitmarks resource}).ncard =
      tables.resources.length -
        ({resource | ReachedFrom tables history resource}.ncard +
          {resource | ReachedFrom tables bitmarks resource}.ncard : Nat) := by
  have all : ((tables.resources.toFinset : Set Id)).ncard =
      tables.resources.length := by
    rw [Set.ncard_coe_finset,
      List.toFinset_card_of_nodup tables.resourcesPkey]
  have finite : (tables.resources.toFinset : Set Id).Finite :=
    Finset.finite_toSet _
  have inside : ∀ name, {resource | ReachedFrom tables name resource} ⊆
      (tables.resources.toFinset : Set Id) := by
    intro name resource reached
    rw [Finset.mem_coe, List.mem_toFinset]
    exact mem_resources reached
  have left : leftBehind tables = (tables.resources.toFinset : Set Id) \
      ({resource | ReachedFrom tables history resource} ∪
        {resource | ReachedFrom tables bitmarks resource}) := by
    ext resource
    simp [leftBehind]
  have difference := Set.ncard_sdiff_add_ncard_of_subset
    (Set.union_subset (inside history) (inside bitmarks)) finite
  have union := Set.ncard_union_add_ncard_inter
    {resource | ReachedFrom tables history resource}
    {resource | ReachedFrom tables bitmarks resource}
    (finite.subset (inside history)) (finite.subset (inside bitmarks))
  rw [← left, all] at difference
  omega

/-- The traversals end for every graph of binds. -/
theorem numResourcesLeftBehind_eq
    {fuel : Nat}
    (enough : tables.binds.rows.length < fuel) :
    numResourcesLeftBehind fuel tables =
      some (((leftBehind tables).ncard : Int) -
        ({resource | ReachedFrom tables history resource} ∩
          {resource | ReachedFrom tables bitmarks resource}).ncard) := by
  rw [numResourcesLeftBehind, getNumUniqueChildren_eq split_history enough,
    getNumUniqueChildren_eq split_bitmarks enough, ncard_leftBehind]
  rfl

/-- A number that is right leaves no room for what is reached twice. -/
theorem not_both_of_countsRight
    (right : CountsRight tables)
    (resource : Id) :
    ¬ (ReachedFrom tables history resource ∧
      ReachedFrom tables bitmarks resource) := by
  have finite : ({resource | ReachedFrom tables history resource} ∩
      {resource | ReachedFrom tables bitmarks resource}).Finite := by
    apply (Finset.finite_toSet tables.resources.toFinset).subset
    rintro resource ⟨reached, -⟩
    rw [Finset.mem_coe, List.mem_toFinset]
    exact mem_resources reached
  rcases right with ⟨enough, right⟩
  have counted := right (max enough (tables.binds.rows.length + 1))
    (le_max_left _ _)
  rw [numResourcesLeftBehind_eq (Nat.lt_of_succ_le (le_max_right _ _))]
    at counted
  have none := Option.some.inj counted
  rw [sub_eq_self, Int.natCast_eq_zero, Set.ncard_eq_zero finite] at none
  intro both
  exact Set.notMem_empty resource (none ▸ both)

/-- The number is right iff nothing is reached from both collections. -/
theorem countsRight_iff (tables : Tables) :
    CountsRight tables ↔
      ∀ resource, ¬ (ReachedFrom tables history resource ∧
        ReachedFrom tables bitmarks resource) := by
  constructor
  · exact not_both_of_countsRight
  · intro apart
    refine ⟨tables.binds.rows.length + 1, ?_⟩
    intro fuel enough
    have none : ({resource | ReachedFrom tables history resource} ∩
        {resource | ReachedFrom tables bitmarks resource}) = ∅ :=
      Set.eq_empty_of_forall_notMem apart
    rw [numResourcesLeftBehind_eq (Nat.lt_of_succ_le enough), none,
      Set.ncard_empty, Nat.cast_zero, sub_zero]

/-! ## A resource that is bound in both -/

/-- A resource with a bind in `/history` and one in `/bitmarks`. -/
def sharedBinds : List Bind :=
  [{ id := 1, name := history, collectionId := 2, resourceId := 10,
     updatedAt := none },
   { id := 2, name := bitmarks, collectionId := 2, resourceId := 11,
     updatedAt := none },
   { id := 3, name := "1".toList, collectionId := 10, resourceId := 12,
     updatedAt := none },
   { id := 4, name := "1".toList, collectionId := 11, resourceId := 12,
     updatedAt := none }]

theorem nodup_id_sharedBinds : (sharedBinds.map Bind.id).Nodup := by
  decide

theorem nodup_key_sharedBinds : (sharedBinds.map Bind.key).Nodup := by
  decide

theorem positive_sharedBinds :
    ∀ bind ∈ sharedBinds, 0 < bind.id ∧ 0 < bind.resourceId := by
  decide

theorem nodup_sharedResources : ([2, 10, 11, 12] : List Id).Nodup := by
  decide

theorem fkey_sharedBinds :
    ∀ bind ∈ sharedBinds, bind.resourceId ∈ ([2, 10, 11, 12] : List Id) := by
  decide

def sharedTables : Tables where
  resources := [2, 10, 11, 12]
  binds :=
    { rows := sharedBinds
      pkey := nodup_id_sharedBinds
      collectionIdKey := nodup_key_sharedBinds
      positive := positive_sharedBinds }
  resourcesPkey := nodup_sharedResources
  bindsResourceIdFkey := fkey_sharedBinds

/-- A child of a collection in the root is reached from its name. -/
theorem reachedFrom_child
    (tables : Tables)
    (collection child : Bind)
    (present : collection ∈ tables.binds.rows)
    (below : child ∈ tables.binds.rows)
    (inRoot : collection.collectionId = rootCollectionId)
    (inCollection : child.collectionId = collection.resourceId) :
    ReachedFrom tables collection.name child.resourceId := by
  refine ⟨collection, present, inRoot, rfl, ?_⟩
  rw [← inCollection]
  exact Multigraph.reaches_of_arrow (G := bindGraph tables.binds.rows) below

/-- Zero resources are counted as left behind, but the root is. -/
theorem not_countsRight : ¬ CountsRight sharedTables := by
  intro right
  apply not_both_of_countsRight right 12
  constructor
  · exact reachedFrom_child sharedTables sharedBinds[0] sharedBinds[2]
      (by decide) (by decide) rfl rfl
  · exact reachedFrom_child sharedTables sharedBinds[1] sharedBinds[3]
      (by decide) (by decide) rfl rfl

end Limestone.GarbageCheck
