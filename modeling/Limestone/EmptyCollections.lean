import Limestone.ClearChildren
import Limestone.ClearUnused
import Limestone.Library.Lightest

/-!
# When clearing dereferences NULL

The database may return the members of a collection in any order.  If the
binds of a shortest way to a collection in use without members come first,
it is the first one of its level that is listed, and every other collection
in use that is not nearer is listed through the NULL pointer.
-/

namespace Limestone.EmptyCollections

open Library
open DbmsBind
open DbmsCollection
open PathSearch
open BridgeUnbind
open UnbindCollects
open ClearChildren (exampleBind exampleItem storedOrders)
open ClearUnused

/-- The binds of a chain are returned first. -/
def chainFirst (chain : List Bind) : RowOrders where
  parents := Sql.RowOrder.stored Bind
  children := Sql.RowOrder.first fun pair => decide (pair.1 ∈ chain)

/-- A shortest way to a collection in use without members. -/
structure WayToEmpty (before : GraphStore) (inUse : List Id) (dest : Id)
    (chain : List Bind) (empty far : Id) : Prop where
  shortest : (openedGraph before inUse).Lightest (fun _ => 1) dest chain empty
  opened : Opened before inUse empty
  memberless : ∀ bind ∈ before.binds.rows, bind.collectionId ≠ empty
  walked : Walked before inUse dest far
  other : far ≠ empty
  notNearer : ∀ bound, (openedGraph before inUse).Near dest bound far →
    (openedGraph before inUse).Near dest bound empty

/-- What has been met before a level is nearer than the level says. -/
def Nearer (before : GraphStore) (inUse : List Id) (dest : Id)
    (cleared : List Id) (level : Nat) : Prop :=
  ∀ id ∈ cleared, ∃ bound, bound < level ∧
    (openedGraph before inUse).Near dest bound id

/-- The next collection of the way is the first of its level. -/
inductive OnTheWay (before : GraphStore) (inUse : List Id) (dest : Id)
    (chain : List Bind) (progress : Progress) (cleared : List Id) : Prop where
  /-- The level begins with the collection where the rest of the way begins. -/
  | begins (front rest : List Bind) (vertex : Id) (now : List Id)
      (split : chain = front ++ rest)
      (level : front.length = progress.level)
      (trail : (openedGraph before inUse).Trail dest front vertex)
      (first : progress.now = vertex :: now)
      (nothing : progress.later = [])
      (nearer : Nearer before inUse dest cleared progress.level)
  /-- The next level will begin with the target of the bind. -/
  | listed (front rest : List Bind) (bind : Bind) (later : List Id)
      (split : chain = front ++ bind :: rest)
      (level : front.length = progress.level)
      (trail : (openedGraph before inUse).Trail dest front bind.collectionId)
      (first : progress.later = bind.resourceId :: later)

section Steer

variable {before store : GraphStore} {inUse cleared : List Id}
  {dest iter : DavReposResource} {chain front rest : List Bind}
  {empty far vertex : Id} {bind : Bind} {progress : Progress}
  {next : List DavReposResource}

theorem OnTheWay.turn
    {list : List DavReposResource}
    (shortest : (openedGraph before inUse).Lightest (fun _ => 1)
      dest.serialno chain empty)
    (clearing : Clearing before inUse dest.serialno progress store list
      cleared)
    (onTheWay : OnTheWay before inUse dest.serialno chain progress cleared) :
    OnTheWay before inUse dest.serialno chain progress.turn cleared := by
  rcases progress with ⟨removed, now, later, level⟩
  cases now with
  | cons head now => exact onTheWay
  | nil =>
      cases onTheWay with
      | begins front rest vertex now split length trail first nothing nearer =>
          cases first
      | listed front rest bind tail split length trail first =>
          have after : later = bind.resourceId :: tail := first
          have arrow : (openedGraph before inUse).Arrow bind := by
            have whole := shortest.trail
            rw [split] at whole
            exact whole.arrow_mem bind (by simp)
          apply OnTheWay.begins (front ++ [bind]) rest bind.resourceId tail
          · rw [split, List.append_assoc]
            rfl
          · show (front ++ [bind]).length = level + 1
            rw [List.length_append]
            exact congrArg Nat.succ length
          · exact trail.append ⟨arrow, rfl, rfl⟩
          · exact after
          · rfl
          · intro id met
            exact ⟨level, Nat.lt_succ_self level,
              clearing.frontier.met id met⟩

/-- A way as long as the shortest one is not cut short. -/
theorem not_near_of_shortest
    {bound : Nat}
    (shortest : (openedGraph before inUse).Lightest (fun _ => 1)
      dest.serialno (front ++ rest) empty)
    (trail : (openedGraph before inUse).Trail dest.serialno front vertex)
    (less : bound < front.length) :
    ¬ (openedGraph before inUse).Near dest.serialno bound vertex := by
  rintro ⟨arrows, shortcut, short⟩
  rcases Multigraph.trail_append.mp shortest.trail with
    ⟨middle, before, after⟩
  rw [← trail.finish_unique before] at after
  have least := shortest.least _ (shortcut.append after)
  rw [Multigraph.totalWeight_one, Multigraph.totalWeight_one,
    List.length_append, List.length_append] at least
  omega

theorem map_serialno_children
    (orders : RowOrders) (store : GraphStore) (dbR : DavReposResource) :
    (sabridgeGetCollectionChildren orders store dbR).map
        DavReposResource.serialno =
      (orders.children.arrange 0 (memberPairs store dbR)).map
        fun pair => pair.2.1 := by
  have items : (LastSeen.mark DavReposResource.serialno some
      [(dbR.serialno, none)] 0
      (dbmsGetCollectionResource orders store dbR)).1.map Prod.fst =
        dbmsGetCollectionResource orders store dbR :=
    LastSeen.map_fst_mark
  have mapped := congrArg (List.map DavReposResource.serialno) items
  rw [dbmsGetCollectionResource_eq, List.map_map, List.map_map] at mapped
  rw [sabridgeGetCollectionChildren, List.map_map]
  exact mapped

/-- The first member that is listed is the next one of the way. -/
theorem children_chainFirst
    (shortest : (openedGraph before inUse).Lightest (fun _ => 1)
      dest.serialno chain empty)
    (onChain : bind ∈ chain)
    (bound : bind ∈ store.binds.rows)
    (collection : bind.collectionId = iter.serialno)
    (unmarked : iter.hasBind = false)
    (isCollection : iter.resourcetype.isCollection = true) :
    ∃ rest, (sabridgeGetCollectionChildren (chainFirst chain) store
      iter).map DavReposResource.serialno = bind.resourceId :: rest := by
  rcases List.mem_map.mp (store.fkBindResource bind bound) with
    ⟨row, listed, same⟩
  have member : (bind, row) ∈ memberPairs store iter :=
    mem_memberPairs.mpr
      ⟨⟨bound, listed⟩, ⟨collection, unmarked, isCollection⟩, same⟩
  rw [map_serialno_children]
  cases arranged : (chainFirst chain).children.arrange 0
    (memberPairs store iter) with
  | nil =>
      have listed : (bind, row) ∈ (chainFirst chain).children.arrange 0
          (memberPairs store iter) :=
        Sql.RowOrder.mem_arrange.mpr member
      rw [arranged] at listed
      cases listed
  | cons pair later =>
      have first : (Sql.RowOrder.first
          fun pair : Bind × Id × ResourceType =>
            decide (pair.1 ∈ chain)).arrange 0 (memberPairs store iter) =
          [] ++ pair :: later :=
        arranged
      have preferred := Sql.RowOrder.first_prefers first member
        (decide_eq_true onChain) List.not_mem_nil
      have pairMember : pair ∈ memberPairs store iter := by
        apply Sql.RowOrder.mem_arrange.mp
        rw [arranged]
        exact List.mem_cons_self
      rcases mem_memberPairs.mp pairMember with ⟨-, ⟨pairColl, -⟩, target⟩
      have equal : pair.1 = bind :=
        shortest.source_injective (fun _ => Nat.one_pos)
          (of_decide_eq_true preferred) onChain
          (pairColl.trans collection.symm)
      refine ⟨later.map fun pair => pair.2.1, ?_⟩
      rw [List.map_cons, target, equal]

/-- What holds before each round when an empty collection is not the last. -/
def Doomed (before : GraphStore) (inUse : List Id) (dest : Id)
    (chain : List Bind) (far : Id) (state : ClearState) : Prop :=
  ∃ progress, Clearing before inUse dest progress state.store state.list
      state.cleared ∧
    (state.tailIsNull = true ∧ far ∉ state.cleared ∨
      OnTheWay before inUse dest chain progress state.cleared)

/-- The list does not become empty. -/
theorem Doomed.list_ne_nil
    {state : ClearState}
    (way : WayToEmpty before inUse dest.serialno chain empty far)
    (doomed : Doomed before inUse dest.serialno chain far state) :
    state.list ≠ [] := by
  rcases state with ⟨store, list, tailIsNull, cleared⟩
  rintro rfl
  rcases doomed with ⟨⟨removed, now, later, level⟩, clearing, state⟩
  rcases List.append_eq_nil_iff.mp clearing.list.symm with ⟨rfl, rfl⟩
  rcases state with ⟨-, unmet⟩ | onTheWay
  · exact unmet (clearing.frontier.met_of_reaches way.walked.1)
  · cases onTheWay with
    | begins front rest vertex now split length trail first nothing nearer =>
        cases first
    | listed front rest bind tail split length trail first =>
        cases first

/-- The collection where the rest of the way begins is listed. -/
theorem WayToEmpty.lists
    (way : WayToEmpty before inUse dest.serialno (front ++ rest) empty far)
    (trail : (openedGraph before inUse).Trail dest.serialno front
      iter.serialno)
    (nearer : Nearer before inUse dest.serialno cleared front.length) :
    Lists before inUse cleared iter := by
  constructor
  · intro met
    rcases nearer iter.serialno met with ⟨bound, less, near⟩
    exact not_near_of_shortest way.shortest trail less near
  · rcases Multigraph.trail_append.mp way.shortest.trail with
      ⟨middle, before, after⟩
    rw [← trail.finish_unique before] at after
    cases rest with
    | nil =>
        have arrived : iter.serialno = empty := after
        rw [arrived]
        exact way.opened
    | cons bind rest =>
        rcases after with ⟨⟨-, opened⟩, leaves, -⟩
        have source : bind.collectionId = iter.serialno := leaves
        rw [← source]
        exact opened

/-- The empty collection is listed, and the one as far away is not yet. -/
theorem WayToEmpty.arrives
    (way : WayToEmpty before inUse dest.serialno front empty far)
    (trail : (openedGraph before inUse).Trail dest.serialno front
      iter.serialno)
    (among : ∀ bind ∈ store.binds.rows, bind ∈ before.binds.rows)
    (nearer : Nearer before inUse dest.serialno cleared front.length) :
    (sabridgeGetCollectionChildren (chainFirst chain) store
        iter).isEmpty = true ∧
      far ∉ iter.serialno :: cleared := by
  have arrived : iter.serialno = empty :=
    trail.finish_unique way.shortest.trail
  constructor
  · rw [List.isEmpty_iff]
    by_contra inhabited
    rcases List.exists_mem_of_ne_nil _ inhabited with ⟨child, member⟩
    rcases exists_memberBind member with ⟨bind, memberBind⟩
    exact way.memberless bind (among bind memberBind.bound)
      (memberBind.collection.trans arrived)
  · rw [List.mem_cons, not_or]
    refine ⟨fun same => way.other (same.trans arrived), ?_⟩
    intro met
    rcases nearer far met with ⟨bound, less, near⟩
    have shortest : (openedGraph before inUse).Lightest (fun _ => 1)
        dest.serialno (front ++ []) empty := by
      rw [List.append_nil]
      exact way.shortest
    exact not_near_of_shortest shortest way.shortest.trail less
      (way.notNearer bound near)

/-- What is left of the way when a collection has been listed. -/
theorem OnTheWay.listing
    {removed : List Bind} {now later : List Id} {level : Nat}
    (onTheWay : OnTheWay before inUse dest.serialno chain
      ⟨removed, iter.serialno :: now, later, level⟩ cleared)
    (clearing : Clearing before inUse dest.serialno
      ⟨removed, iter.serialno :: now, later, level⟩ store (iter :: next)
        cleared)
    (way : WayToEmpty before inUse dest.serialno chain empty far)
    (item : IsItem before inUse dest.serialno cleared iter)
    (lists : Lists before inUse cleared iter)
    (present : ∀ bind ∈ before.binds.rows, bind.collectionId = iter.serialno →
      bind ∈ store.binds.rows) :
    (sabridgeGetCollectionChildren (chainFirst chain) store
        iter).isEmpty = true ∧ far ∉ iter.serialno :: cleared ∨
      OnTheWay before inUse dest.serialno chain
        ⟨removed, now, later ++ (sabridgeGetCollectionChildren
          (chainFirst chain) store iter).map DavReposResource.serialno, level⟩
        (iter.serialno :: cleared) := by
  have unmarked : iter.hasBind = false := by
    by_contra marked
    exact lists.1 (clearing.marks.1 (Bool.not_eq_false _ ▸ marked))
  have isCollection := (item.opened_iff.mp lists.2).2
  cases onTheWay with
  | begins front rest vertex current split length trail first nothing nearer =>
      have same : vertex = iter.serialno := (List.cons.inj first).1.symm
      have empty : later = [] := nothing
      have length : front.length = level := length
      have nearer : Nearer before inUse dest.serialno cleared level := nearer
      rw [same] at trail
      rw [← length] at nearer
      cases rest with
      | nil =>
          rw [List.append_nil] at split
          rw [split] at way
          exact Or.inl (way.arrives trail
            (fun bind bound => ((clearing.keeping.binds bind).mp bound).1)
            nearer)
      | cons bind rest =>
          have whole := way.shortest.trail
          rw [split] at whole
          rcases Multigraph.trail_append.mp whole with
            ⟨middle, before, ⟨bound, -⟩, leaves, -⟩
          rw [← trail.finish_unique before] at leaves
          have source : bind.collectionId = iter.serialno := leaves
          have onChain : bind ∈ chain := by
            rw [split]
            simp
          rcases children_chainFirst way.shortest onChain
            (present bind bound source) source unmarked isCollection with
            ⟨tail, members⟩
          right
          apply OnTheWay.listed front rest bind tail split length
          · rw [source]
            exact trail
          · rw [empty]
            exact members
  | listed front rest bind tail split length trail first =>
      right
      have pending : later = bind.resourceId :: tail := first
      have length : front.length = level := length
      apply OnTheWay.listed front rest bind _ split length trail
      rw [pending]
      rfl

/-- A round that lists nothing leaves the way as it is. -/
theorem OnTheWay.round
    {removed after : List Bind} {now later met : List Id} {level : Nat}
    (onTheWay : OnTheWay before inUse dest.serialno chain
      ⟨removed, iter.serialno :: now, later, level⟩ cleared)
    (way : WayToEmpty before inUse dest.serialno chain empty far)
    (others : ¬ Lists before inUse cleared iter) :
    OnTheWay before inUse dest.serialno chain ⟨after, now, later, level⟩
      met := by
  cases onTheWay with
  | begins front rest vertex current split length trail first nothing nearer =>
      have same : vertex = iter.serialno := (List.cons.inj first).1.symm
      rw [same] at trail
      rw [← length] at nearer
      rw [split] at way
      exact (others (way.lists trail nearer)).elim
  | listed front rest bind tail split length trail first =>
      exact OnTheWay.listed front rest bind tail split length trail first

/-- A round leads to one that is doomed, too, or does not return. -/
theorem Doomed.round
    {state : ClearState} {fuel : Nat}
    (clearable : Clearable before inUse dest)
    (way : WayToEmpty before inUse dest.serialno chain empty far)
    (doomed : Doomed before inUse dest.serialno chain far state)
    (enough : before.binds.rows.length + 1 < fuel) :
    clearRound fuel (chainFirst chain) inUse state =
        .inl (some .nullDereference) ∨
      ∃ next, clearRound fuel (chainFirst chain) inUse state = .inr next ∧
        Doomed before inUse dest.serialno chain far next := by
  have inhabited := doomed.list_ne_nil way
  rcases state with ⟨store, list, tailIsNull, cleared⟩
  rcases doomed with ⟨progress, clearing, stage⟩
  cases list with
  | nil => exact (inhabited rfl).elim
  | cons iter list =>
      rcases clearing.turn_eq with ⟨now, turned⟩
      have stage : tailIsNull = true ∧ far ∉ cleared ∨
          OnTheWay before inUse dest.serialno chain progress.turn cleared :=
        stage.imp_right fun onTheWay => onTheWay.turn way.shortest clearing
      have clearing := clearing.turn
      rw [turned] at clearing stage
      have item := clearing.items iter List.mem_cons_self
      by_cases lists : Lists before inUse cleared iter
      · have round : clearRound fuel (chainFirst chain) inUse
            ⟨store, iter :: list, tailIsNull, cleared⟩ = _ :=
          clearRound_lists item lists
        cases tailIsNull with
        | true =>
            rw [if_pos rfl] at round
            exact Or.inl round
        | false =>
            rw [if_neg Bool.false_ne_true] at round
            rcases clearing.visit_listing (chainFirst chain) clearable
              lists.1 lists.2 with ⟨listing, present⟩
            refine Or.inr ⟨_, round, _, listing, ?_⟩
            rcases stage with ⟨isNull, -⟩ | onTheWay
            · cases isNull
            · exact onTheWay.listing clearing way item lists present
      · rcases clearing.round (chainFirst chain) tailIsNull clearable lists
          enough with ⟨after, stored, met, round, mets, kept⟩
        refine Or.inr ⟨_, round, _, kept, ?_⟩
        rcases stage with ⟨isNull, unmet⟩ | onTheWay
        · left
          refine ⟨isNull, fun isMet => ?_⟩
          rcases (mets far).mp isMet with same | isMet
          · rw [same] at unmet
            have opened := way.walked.2
            rw [same] at opened
            exact lists ⟨unmet, opened⟩
          · exact unmet isMet
        · exact Or.inr (onTheWay.round way lists)

/-- The rows in one order keep the call from returning. -/
theorem WayToEmpty.nullDereference
    {fuel : Nat} {result : ClearOutcome}
    (clearable : Clearable before inUse dest)
    (way : WayToEmpty before inUse dest.serialno chain empty far)
    (enough : before.binds.rows.length + 1 < fuel)
    (ends : sabridgeClearUnused fuel (chainFirst chain) before dest inUse =
      some result) :
    result = .nullDereference := by
  rcases Option.join_eq_some_iff.mp ends with stopped
  have start : Doomed before inUse dest.serialno chain far
      ⟨before, [dest], false, []⟩ := by
    refine ⟨⟨[], [dest.serialno], [], 0⟩, clearing_start clearable, Or.inr ?_⟩
    exact OnTheWay.begins [] chain dest.serialno [] rfl rfl rfl rfl rfl nofun
  have post : some result = some ClearOutcome.nullDereference := by
    apply Loop.run_induct (P := fun result : Option ClearOutcome =>
      result = some .nullDereference) _ _ start stopped
    · intro state result doomed left
      rcases doomed.round clearable way enough with round | ⟨next, round, -⟩
      · rw [round] at left
        exact (Sum.inl.inj left).symm
      · rw [round] at left
        cases left
    · intro state next doomed passed
      rcases doomed.round clearable way enough with
        round | ⟨other, round, kept⟩
      · rw [round] at passed
        cases passed
      · rw [round] at passed
        rcases Sum.inr.inj passed with rfl
        exact kept
  exact Option.some.inj post

end Steer

/-! ## Exactly when the call clears -/

end Limestone.EmptyCollections
