import Limestone.DbmsBind
import Limestone.Library.Lightest

/-!
# The path search finds a lightest chain of binds

The search meets a collection in the round that is its distance from the
resource, when an excluded bind of the resource itself counts two and every
other bind counts one: the exclusion is part of the first query only.  The
weights make one statement of the search with and without excluded binds.

The proof is about an abstract set `Good` of chains that a path may spell.
With the lightest chains it gives what every order of the rows returns; with
the chains of one lightest path it gives an order that returns this path.
-/

namespace Limestone.PathSearch

open Library
open DbmsBind

/-! ## The bind graph -/

/-- `binds` as a graph: a bind leads from its collection to its resource. -/
def bindGraph (binds : List Bind) : Multigraph Id Bind where
  source := Bind.collectionId
  target := Bind.resourceId
  Arrow := fun bind => bind ∈ binds

@[simp]
theorem bindGraph_source (binds : List Bind) (bind : Bind) :
    (bindGraph binds).source bind = bind.collectionId :=
  rfl

@[simp]
theorem bindGraph_target (binds : List Bind) (bind : Bind) :
    (bindGraph binds).target bind = bind.resourceId :=
  rfl

@[simp]
theorem bindGraph_arrow (binds : List Bind) (bind : Bind) :
    (bindGraph binds).Arrow bind ↔ bind ∈ binds :=
  Iff.rfl

/-- The path that spells a chain of binds. -/
def spell (chain : List Bind) : Text :=
  chain.flatMap fun bind => '/' :: bind.name

@[simp]
theorem spell_nil : spell [] = [] :=
  rfl

@[simp]
theorem spell_cons (bind : Bind) (chain : List Bind) :
    spell (bind :: chain) = '/' :: bind.name ++ spell chain :=
  rfl

/-! ## One query -/

/-- The rows scanned so far, `base` being the collections met before. -/
structure ScanInvariant (base : Id → Prop) (Entry : Id → Text → Prop)
    (fromResId : Id) (done : List Bind) (newForefathers : List Id)
    (hash : List (Id × Text)) : Prop where
  entries : ∀ collId path, hash.lookup collId = some path →
    Entry collId path
  domain : ∀ collId, (hash.lookup collId).isSome ↔
    base collId ∨ ∃ bind ∈ done, bind.collectionId = collId
  new : ∀ collId, collId ∈ newForefathers ↔
    ¬ base collId ∧ ∃ bind ∈ done, bind.collectionId = collId
  notFrom : ¬ base fromResId ∧ ∀ bind ∈ done, bind.collectionId ≠ fromResId

/-- What the scan of all rows of a query establishes. -/
def ScanPost (base : Id → Prop) (Entry : Id → Text → Prop)
    (fromResId : Id) (rows : List Bind) :
    Text ⊕ List Id × List (Id × Text) → Prop
  | .inl path => Entry fromResId path ∧
      ∃ bind ∈ rows, bind.collectionId = fromResId
  | .inr (newForefathers, hash) =>
      ScanInvariant base Entry fromResId rows newForefathers hash

namespace ScanInvariant

variable {base : Id → Prop} {Entry : Id → Text → Prop} {fromResId : Id}
  {done : List Bind} {row : Bind} {newForefathers : List Id}
  {hash : List (Id × Text)}

/-- A collection that has a path already adds nothing. -/
theorem skip
    (invariant : ScanInvariant base Entry fromResId done newForefathers hash)
    (met : (hash.lookup row.collectionId).isSome) :
    ScanInvariant base Entry fromResId (done ++ [row]) newForefathers
      hash where
  entries := invariant.entries
  domain := by
    intro collId
    rw [invariant.domain]
    simp only [List.mem_append, List.mem_singleton, or_and_right, exists_or,
      exists_eq_left]
    constructor
    · rintro (old | scanned)
      · exact Or.inl old
      · exact Or.inr (Or.inl scanned)
    · rintro (old | scanned | rfl)
      · exact Or.inl old
      · exact Or.inr scanned
      · exact (invariant.domain _).mp met
  new := by
    intro collId
    rw [invariant.new]
    refine and_congr_right fun fresh => ?_
    simp only [List.mem_append, List.mem_singleton, or_and_right, exists_or,
      exists_eq_left]
    constructor
    · exact Or.inl
    · rintro (scanned | rfl)
      · exact scanned
      · exact ((invariant.domain _).mp met).resolve_left fresh
  notFrom := by
    refine ⟨invariant.notFrom.1, ?_⟩
    intro bind member equal
    rcases List.mem_append.mp member with scanned | here
    · exact invariant.notFrom.2 bind scanned equal
    · rcases List.mem_singleton.mp here with rfl
      rcases (invariant.domain _).mp met with old | ⟨other, scanned, same⟩
      · exact invariant.notFrom.1 (equal ▸ old)
      · exact invariant.notFrom.2 other scanned (same.trans equal)

/-- A collection met for the first time gets a path. -/
theorem record
    {path : Text}
    (invariant : ScanInvariant base Entry fromResId done newForefathers hash)
    (unmet : ¬ (hash.lookup row.collectionId).isSome)
    (entry : Entry row.collectionId path)
    (goesOn : row.collectionId ≠ fromResId) :
    ScanInvariant base Entry fromResId (done ++ [row])
      (newForefathers ++ [row.collectionId])
      ((row.collectionId, path) :: hash) where
  entries := by
    intro collId other found
    rw [List.lookup_cons] at found
    split at found
    next same =>
        rcases beq_iff_eq.mp same with rfl
        rcases Option.some.inj found with rfl
        exact entry
    next => exact invariant.entries collId other found
  domain := by
    intro collId
    rw [List.lookup_cons]
    simp only [List.mem_append, List.mem_singleton, or_and_right, exists_or,
      exists_eq_left]
    split
    next same =>
        exact iff_of_true rfl (Or.inr (Or.inr (beq_iff_eq.mp same).symm))
    next distinct =>
        rw [invariant.domain]
        have other : ¬ row.collectionId = collId := by
          intro equal
          rw [equal, beq_self_eq_true] at distinct
          cases distinct
        simp only [other, or_false]
  new := by
    intro collId
    simp only [List.mem_append, List.mem_singleton, or_and_right, exists_or,
      exists_eq_left, invariant.new]
    rw [invariant.domain, not_or] at unmet
    constructor
    · rintro (⟨fresh, scanned⟩ | rfl)
      · exact ⟨fresh, Or.inl scanned⟩
      · exact ⟨unmet.1, Or.inr rfl⟩
    · rintro ⟨fresh, scanned | rfl⟩
      · exact Or.inl ⟨fresh, scanned⟩
      · exact Or.inr rfl
  notFrom := by
    refine ⟨invariant.notFrom.1, ?_⟩
    intro bind member
    rcases List.mem_append.mp member with scanned | here
    · exact invariant.notFrom.2 bind scanned
    · rcases List.mem_singleton.mp here with rfl
      exact goesOn

end ScanInvariant

/-- The scan of the rows of a query, from any row on. -/
theorem scanRows_spec
    {base : Id → Prop} {Entry : Id → Text → Prop} {fromResId : Id}
    {rows done : List Bind} {newForefathers : List Id}
    {hash : List (Id × Text)}
    (known : ∀ bind ∈ done ++ rows, base bind.resourceId)
    (extend : ∀ earlier bind later path,
      done ++ rows = earlier ++ bind :: later →
        (∀ other ∈ earlier, other.collectionId ≠ bind.collectionId) →
          ¬ base bind.collectionId → Entry bind.resourceId path →
            Entry bind.collectionId ('/' :: bind.name ++ path))
    (invariant : ScanInvariant base Entry fromResId done newForefathers hash) :
    ScanPost base Entry fromResId (done ++ rows)
      (scanRows fromResId rows newForefathers hash) := by
  induction rows generalizing done newForefathers hash with
  | nil =>
      rw [List.append_nil]
      exact invariant
  | cons row rows induction =>
      have regroup : done ++ row :: rows = (done ++ [row]) ++ rows := by
        rw [List.append_assoc, List.singleton_append]
      rw [scanRows]
      by_cases met : (hash.lookup row.collectionId).isSome
      · rw [if_pos met, regroup]
        rw [regroup] at known extend
        exact induction known extend (invariant.skip met)
      · have fresh := mt (invariant.domain row.collectionId).mpr met
        rw [not_or] at fresh
        have child : (hash.lookup row.resourceId).isSome :=
          (invariant.domain _).mpr (Or.inl (known row (by simp)))
        rcases Option.isSome_iff_exists.mp child with ⟨path, found⟩
        have entry := extend done row rows path rfl
          (fun other scanned same => fresh.2 ⟨other, scanned, same⟩) fresh.1
          (invariant.entries _ _ found)
        rw [if_neg met, found, Option.getD_some]
        by_cases arrived : row.collectionId = fromResId
        · rw [if_pos arrived]
          exact ⟨arrived ▸ entry, row, by simp, arrived⟩
        · rw [if_neg arrived, regroup]
          rw [regroup] at known extend
          exact induction known extend (invariant.record met entry arrived)

/-! ## The rounds of the search -/

/-- An excluded bind of the resource the search starts from. -/
def Delayed (exclBinds : List Id) (toResId : Id) (bind : Bind) : Prop :=
  bind.id ∈ excludedIds exclBinds ∧ bind.resourceId = toResId

instance (exclBinds : List Id) (toResId : Id) :
    DecidablePred (Delayed exclBinds toResId) :=
  fun _ => inferInstanceAs (Decidable (_ ∧ _))

/-- The weight of a bind for the search: the round it delays by. -/
def bindWeight (exclBinds : List Id) (toResId : Id) : Bind → Nat :=
  Multigraph.delayedWeight (Delayed exclBinds toResId)

/-- The collections met in the first `round` rounds. -/
def Met (binds : List Bind) (exclBinds : List Id) (toResId : Id)
    (round : Nat) (collId : Id) : Prop :=
  (bindGraph binds).Within (bindWeight exclBinds toResId) toResId round collId

/-- The binds of the query of a round. -/
def Eligible (binds : List Bind) (exclBinds : List Id) (toResId : Id)
    (round : Nat) (bind : Bind) : Prop :=
  bind ∈ binds ∧ Met binds exclBinds toResId round bind.resourceId ∧
    (round = 0 → ¬ Delayed exclBinds toResId bind)

/-- Chains that the paths of the hash may spell. -/
structure Spelling (order : Sql.RowOrder Bind) (binds : List Bind)
    (exclBinds : List Id) (toResId : Id) (Good : Id → List Bind → Prop) :
    Prop where
  start : Good toResId []
  extend : ∀ round rows earlier bind later chain,
    (∀ other, other ∈ rows ↔
      Eligible binds exclBinds toResId round other) →
    order.arrange round rows = earlier ++ bind :: later →
    (∀ other ∈ earlier, other.collectionId ≠ bind.collectionId) →
    ¬ Met binds exclBinds toResId round bind.collectionId →
    Good bind.resourceId chain → Good bind.collectionId (bind :: chain)

/-- The path of a collection spells a good chain. -/
def Spelled (Good : Id → List Bind → Prop) (collId : Id) (path : Text) :
    Prop :=
  ∃ chain, Good collId chain ∧ path = spell chain

/-- What holds before each query. -/
structure SearchInvariant (binds : List Bind) (exclBinds : List Id)
    (fromResId toResId : Id) (Good : Id → List Bind → Prop)
    (state : SearchState) : Prop where
  forefathers : ∀ collId,
    collId ∈ state.forefathers ++ state.newForefathers ↔
      Met binds exclBinds toResId state.queries collId
  domain : ∀ collId, (state.shortestPathHash.lookup collId).isSome ↔
    Met binds exclBinds toResId state.queries collId
  entries : ∀ collId path,
    state.shortestPathHash.lookup collId = some path →
      Spelled Good collId path
  notFrom : ¬ Met binds exclBinds toResId state.queries fromResId
  pointer : state.exclBinds = if state.queries = 0 then exclBinds else []
  progress : state.queries ≠ 0 →
    ∃ collId, collId ≠ toResId ∧ Met binds exclBinds toResId 1 collId

/-- What the search has found out when it stops. -/
def SearchPost (binds : List Bind) (exclBinds : List Id)
    (fromResId toResId : Id) (Good : Id → List Bind → Prop) :
    Option Text → Prop
  | some path => Spelled Good fromResId path ∧
      ∃ collId, collId ≠ toResId ∧ Met binds exclBinds toResId 1 collId
  | none =>
      (∀ collId, Met binds exclBinds toResId 1 collId → collId = toResId) ∨
        ¬ (bindGraph binds).Reaches fromResId toResId

section Search

variable {binds : List Bind} {exclBinds : List Id} {fromResId toResId : Id}
  {Good : Id → List Bind → Prop} {order : Sql.RowOrder Bind}
  {state : SearchState}

theorem met_zero {collId : Id} :
    Met binds exclBinds toResId 0 collId ↔ collId = toResId :=
  Multigraph.within_zero fun bind => Multigraph.delayedWeight_pos bind

/-- The collections met with one more query. -/
theorem met_succ {round : Nat} {collId : Id} :
    Met binds exclBinds toResId (round + 1) collId ↔
      Met binds exclBinds toResId round collId ∨
        ∃ bind, Eligible binds exclBinds toResId round bind ∧
          bind.collectionId = collId := by
  rw [Met, bindWeight, Multigraph.within_succ fun _ late => late.2]
  refine or_congr_right (exists_congr fun bind => ?_)
  constructor
  · rintro ⟨present, leaves, within, first⟩
    exact ⟨⟨present, within, first⟩, leaves⟩
  · rintro ⟨⟨present, within, first⟩, leaves⟩
    exact ⟨present, leaves, within, first⟩

theorem SearchInvariant.start
    (distinct : fromResId ≠ toResId)
    (spelling : Spelling order binds exclBinds toResId Good) :
    SearchInvariant binds exclBinds fromResId toResId Good
      (searchStart toResId exclBinds) where
  forefathers := by
    intro collId
    show collId ∈ [toResId] ++ [] ↔ Met binds exclBinds toResId 0 collId
    rw [met_zero, List.append_nil, List.mem_singleton]
  domain := by
    intro collId
    show (List.lookup collId [(toResId, [])]).isSome ↔
      Met binds exclBinds toResId 0 collId
    rw [met_zero]
    by_cases same : collId = toResId
    · simp [same]
    · simp [List.lookup_cons, beq_eq_false_iff_ne.mpr same, same]
  entries := by
    intro collId path found
    have here : List.lookup collId [(toResId, ([] : Text))] = some path := found
    by_cases same : collId = toResId
    · rw [same, List.lookup_cons_self] at here
      rcases Option.some.inj here with rfl
      exact ⟨[], same ▸ spelling.start, rfl⟩
    · rw [List.lookup_cons, beq_eq_false_iff_ne.mpr same] at here
      cases here
  notFrom := fun met => distinct (met_zero.mp met)
  pointer := rfl
  progress := fun later => (later rfl).elim

/-- The query of a round returns the eligible binds. -/
theorem SearchInvariant.mem_parentBinds
    (invariant : SearchInvariant binds exclBinds fromResId toResId Good state)
    (bind : Bind) :
    bind ∈ parentBinds binds state ↔
      Eligible binds exclBinds toResId state.queries bind := by
  rw [parentBinds, List.mem_filter, Bool.and_eq_true, decide_eq_true_eq,
    Bool.not_eq_true', decide_eq_false_iff_not, invariant.forefathers,
    invariant.pointer, Eligible]
  refine and_congr_right fun _ => and_congr_right fun met => ?_
  by_cases first : state.queries = 0
  · rw [first, met_zero] at met
    simp [first, Delayed, met]
  · simp [first, excludedIds]

/-- What one round returns or leaves. -/
theorem SearchInvariant.scan
    (spelling : Spelling order binds exclBinds toResId Good)
    (invariant : SearchInvariant binds exclBinds fromResId toResId Good state) :
    ScanPost (Met binds exclBinds toResId state.queries) (Spelled Good)
      fromResId (order.arrange state.queries (parentBinds binds state))
      (scanRows fromResId
        (order.arrange state.queries (parentBinds binds state)) []
        state.shortestPathHash) := by
  have initial : ScanInvariant (Met binds exclBinds toResId state.queries)
      (Spelled Good) fromResId [] [] state.shortestPathHash :=
    { entries := invariant.entries
      domain := fun collId => by simp [invariant.domain]
      new := fun collId => by simp
      notFrom := ⟨invariant.notFrom, by simp⟩ }
  have known : ∀ bind ∈ [] ++
      order.arrange state.queries (parentBinds binds state),
        Met binds exclBinds toResId state.queries bind.resourceId := by
    intro bind member
    rw [List.nil_append, Sql.RowOrder.mem_arrange,
      invariant.mem_parentBinds] at member
    exact member.2.1
  have spec := scanRows_spec known (fun earlier bind later path rows first
      fresh ⟨chain, good, spelled⟩ => ⟨bind :: chain,
        spelling.extend state.queries _ earlier bind later chain
          invariant.mem_parentBinds rows first fresh good, by
            rw [spelled, spell_cons]⟩) initial
  exact spec

/-- The collections scanned in a round are those met with its query. -/
theorem SearchInvariant.met_after
    (invariant : SearchInvariant binds exclBinds fromResId toResId Good state)
    (order : Sql.RowOrder Bind) (collId : Id) :
    Met binds exclBinds toResId (state.queries + 1) collId ↔
      Met binds exclBinds toResId state.queries collId ∨
        ∃ bind ∈ order.arrange state.queries (parentBinds binds state),
          bind.collectionId = collId := by
  rw [met_succ]
  refine or_congr_right (exists_congr fun bind => ?_)
  rw [Sql.RowOrder.mem_arrange, invariant.mem_parentBinds]

/-- The ways out of the loop. -/
theorem SearchInvariant.leaves
    {result : Option Text}
    (distinct : fromResId ≠ toResId)
    (spelling : Spelling order binds exclBinds toResId Good)
    (invariant : SearchInvariant binds exclBinds fromResId toResId Good state)
    (left : searchRound order binds fromResId state = .inl result) :
    SearchPost binds exclBinds fromResId toResId Good result := by
  have scan := invariant.scan spelling
  have after := invariant.met_after order
  rw [searchRound] at left
  cases outcome : scanRows fromResId
      (order.arrange state.queries (parentBinds binds state)) []
      state.shortestPathHash with
  | inl path =>
      rw [outcome] at scan left
      rcases Sum.inl.inj left with rfl
      rcases scan with ⟨spelled, arrived⟩
      refine ⟨spelled, ?_⟩
      by_cases first : state.queries = 0
      · refine ⟨fromResId, distinct, ?_⟩
        rw [first] at after arrived
        exact (after fromResId).mpr (Or.inr arrived)
      · exact invariant.progress first
  | inr scanned =>
      rcases scanned with ⟨newForefathers, hash⟩
      rw [outcome] at scan left
      by_cases finished : newForefathers = []
      · simp only [finished, if_true] at left
        rcases Sum.inl.inj left with rfl
        -- nothing new: one more query meets what was met before it
        have stable : ∀ collId,
            Met binds exclBinds toResId (state.queries + 1) collId →
              Met binds exclBinds toResId state.queries collId := by
          intro collId met
          by_contra fresh
          have listed := (scan.new collId).mpr
            ⟨fresh, ((after collId).mp met).resolve_left fresh⟩
          rw [finished] at listed
          cases listed
        by_cases first : state.queries = 0
        · left
          intro collId met
          rw [first] at stable
          exact met_zero.mp (stable collId met)
        · right
          intro reaches
          exact invariant.notFrom (Multigraph.within_of_reaches
            (fun _ late => late.2) first stable reaches)
      · simp only [finished, if_false] at left
        cases left

/-- The collections without a path, as a measure of the search. -/
def unmetBinds (binds : List Bind) (state : SearchState) : Nat :=
  binds.countP fun bind =>
    (state.shortestPathHash.lookup bind.collectionId).isNone

/-- A round that goes on has met a new collection. -/
theorem SearchInvariant.continues
    {next : SearchState}
    (spelling : Spelling order binds exclBinds toResId Good)
    (invariant : SearchInvariant binds exclBinds fromResId toResId Good state)
    (goesOn : searchRound order binds fromResId state = .inr next) :
    SearchInvariant binds exclBinds fromResId toResId Good next ∧
      unmetBinds binds next < unmetBinds binds state := by
  have scan := invariant.scan spelling
  have after := invariant.met_after order
  rw [searchRound] at goesOn
  cases outcome : scanRows fromResId
      (order.arrange state.queries (parentBinds binds state)) []
      state.shortestPathHash with
  | inl path =>
      rw [outcome] at goesOn
      cases goesOn
  | inr scanned =>
      rcases scanned with ⟨newForefathers, hash⟩
      rw [outcome] at scan goesOn
      by_cases finished : newForefathers = []
      · simp only [finished, if_true] at goesOn
        cases goesOn
      simp only [finished, if_false] at goesOn
      rcases Sum.inr.inj goesOn with rfl
      rcases List.exists_mem_of_ne_nil _ finished with ⟨newId, listed⟩
      have new := (scan.new newId).mp listed
      constructor
      · exact
          { forefathers := by
              intro collId
              rw [List.mem_append, invariant.forefathers, scan.new, after]
              tauto
            domain := fun collId => by rw [scan.domain, after]
            entries := scan.entries
            notFrom := by
              rw [after, not_or]
              exact ⟨invariant.notFrom, fun ⟨bind, member, arrived⟩ =>
                scan.notFrom.2 bind member arrived⟩
            pointer := rfl
            progress := by
              intro _
              by_cases first : state.queries = 0
              · rw [first] at new after
                exact ⟨newId, fun same => new.1 (met_zero.mpr same),
                  (after newId).mpr (Or.inr new.2)⟩
              · exact invariant.progress first }
      · rcases new with ⟨fresh, bind, member, arrived⟩
        have present : bind ∈ binds := by
          rw [Sql.RowOrder.mem_arrange] at member
          exact (List.mem_filter.mp member).1
        apply Loop.countP_lt_countP _ present
        · rw [Option.isNone_iff_eq_none, ← Option.not_isSome_iff_eq_none,
            arrived, invariant.domain]
          exact fresh
        · rw [← Option.not_isSome, Bool.not_eq_false', scan.domain]
          exact Or.inr ⟨bind, member, rfl⟩
        · intro other _ unmet
          rw [Option.isNone_iff_eq_none, ← Option.not_isSome_iff_eq_none,
            scan.domain, not_or] at unmet
          rw [Option.isNone_iff_eq_none, ← Option.not_isSome_iff_eq_none,
            invariant.domain]
          exact unmet.1

/-- The search stops, and its result is as its post condition says. -/
theorem search_spec
    (distinct : fromResId ≠ toResId)
    (spelling : Spelling order binds exclBinds toResId Good)
    {fuel : Nat} (enough : binds.length < fuel) :
    ∃ result,
      dbmsFindShortestPathExclBinds fuel order binds fromResId toResId
          exclBinds = some result ∧
        SearchPost binds exclBinds fromResId toResId Good result := by
  rw [dbmsFindShortestPathExclBinds, if_neg distinct]
  have start : SearchInvariant binds exclBinds fromResId toResId Good
      (searchStart toResId exclBinds) :=
    SearchInvariant.start distinct spelling
  have short : unmetBinds binds (searchStart toResId exclBinds) < fuel :=
    List.countP_le_length.trans_lt enough
  exact Loop.run_spec
    (fun _ _ => SearchInvariant.leaves distinct spelling)
    (fun _ _ => SearchInvariant.continues spelling) short start

/-- Whatever the order of the rows, paths spell lightest chains. -/
theorem spelling_lightest
    (order : Sql.RowOrder Bind) (binds : List Bind) (exclBinds : List Id)
    (toResId : Id) :
    Spelling order binds exclBinds toResId fun collId chain =>
      (bindGraph binds).Lightest (bindWeight exclBinds toResId) collId chain
        toResId where
  start := ⟨rfl, fun others _ => Nat.zero_le _⟩
  extend := by
    intro round rows earlier bind later chain eligible arranged _ new good
    have listed : bind ∈ rows := by
      have member : bind ∈ order.arrange round rows := by
        rw [arranged]
        simp
      exact Sql.RowOrder.mem_arrange.mp member
    rcases (eligible bind).mp listed with ⟨present, met, first⟩
    exact Multigraph.Lightest.cons (fun _ late => late.2) good met present
      first new

theorem bindWeight_pos (bind : Bind) : 0 < bindWeight exclBinds toResId bind :=
  Multigraph.delayedWeight_pos bind

/-- A round that meets a collection asks for the binds of its lightest chain. -/
theorem eligible_of_lightest
    {bind : Bind} {chain : List Bind} {round : Nat}
    (lightest : (bindGraph binds).Lightest (bindWeight exclBinds toResId)
      bind.collectionId (bind :: chain) toResId)
    (met : Met binds exclBinds toResId (round + 1) bind.collectionId) :
    Eligible binds exclBinds toResId round bind := by
  have light := lightest.le_of_within met
  have positive : 0 < bindWeight exclBinds toResId bind :=
    bindWeight_pos bind
  rw [Multigraph.totalWeight_cons] at light
  refine ⟨lightest.trail.1, ⟨chain, lightest.trail.2.2, by omega⟩, ?_⟩
  rintro rfl delayed
  rw [bindWeight, Multigraph.delayedWeight, if_pos delayed] at light
  omega

/-- With the binds of a lightest chain first, paths spell its ends. -/
theorem spelling_steered
    {chain : List Bind}
    (lightest : (bindGraph binds).Lightest (bindWeight exclBinds toResId)
      fromResId chain toResId) :
    Spelling (Sql.RowOrder.first fun bind => decide (bind ∈ chain)) binds
      exclBinds toResId fun collId other =>
        (bindGraph binds).Lightest (bindWeight exclBinds toResId) collId other
            toResId ∧
          ∀ before bind after, chain = before ++ bind :: after →
            bind.collectionId = collId → other = bind :: after where
  start := by
    refine ⟨⟨rfl, fun others _ => Nat.zero_le _⟩, ?_⟩
    rintro before bind after rfl arrived
    have light := lightest.suffix.least [] arrived
    have positive : 0 < bindWeight exclBinds toResId bind :=
      bindWeight_pos bind
    rw [Multigraph.totalWeight_cons, Multigraph.totalWeight_nil] at light
    omega
  extend := by
    rintro round rows earlier bind later other eligible arranged first new
      ⟨good, tail⟩
    have longer := (spelling_lightest _ binds exclBinds toResId).extend round
      rows earlier bind later other eligible arranged first new good
    refine ⟨longer, ?_⟩
    rintro before steered after split same
    have suffix : (bindGraph binds).Lightest (bindWeight exclBinds toResId)
        steered.collectionId (steered :: after) toResId :=
      (split ▸ lightest).suffix
    have steeredMember : steered ∈ chain := by
      rw [split]
      simp
    -- the bind of the chain is in the same query, so it came first
    have met : Met binds exclBinds toResId (round + 1)
        steered.collectionId := by
      have listed : bind ∈ (Sql.RowOrder.first fun bind =>
          decide (bind ∈ chain)).arrange round rows := by
        rw [arranged]
        simp
      rw [met_succ, same]
      exact Or.inr ⟨bind,
        (eligible bind).mp (Sql.RowOrder.mem_arrange.mp listed), rfl⟩
    have preferred := Sql.RowOrder.first_prefers arranged
      ((eligible steered).mpr (eligible_of_lightest suffix met))
      (decide_eq_true steeredMember)
      (fun seen => first steered seen same)
    have equal : bind = steered :=
      lightest.source_injective bindWeight_pos
        (of_decide_eq_true preferred) steeredMember same.symm
    subst equal
    cases after with
    | nil =>
        have arrived : bind.resourceId = toResId := suffix.trail.2.2
        have light := good.least [] arrived
        cases other with
        | nil => rfl
        | cons head rest =>
            have positive : 0 < bindWeight exclBinds toResId head :=
              bindWeight_pos head
            rw [Multigraph.totalWeight_cons,
              Multigraph.totalWeight_nil] at light
            omega
    | cons next rest =>
        have continued := tail (before ++ [bind]) next rest
          (by rw [split, List.append_assoc, List.singleton_append])
          suffix.trail.2.2.2.1
        rw [continued]

end Search

/-! ## What the search returns -/

/-- The call returns `result` as soon as its loop may run long enough. -/
def Returns (order : Sql.RowOrder Bind) (binds : List Bind)
    (fromResId toResId : Id) (exclBinds : List Id)
    (result : Option Text) : Prop :=
  ∀ fuel, binds.length < fuel →
    dbmsFindShortestPathExclBinds fuel order binds fromResId toResId
      exclBinds = some result

section Returns

variable {order : Sql.RowOrder Bind} {binds : List Bind}
  {fromResId toResId : Id} {exclBinds : List Id} {result other : Option Text}

theorem Returns.unique
    (first : Returns order binds fromResId toResId exclBinds result)
    (second : Returns order binds fromResId toResId exclBinds other) :
    result = other := by
  have firstRun := first _ (Nat.lt_succ_self _)
  have secondRun := second _ (Nat.lt_succ_self _)
  exact Option.some.inj (firstRun.symm.trans secondRun)

theorem returns_self
    (order : Sql.RowOrder Bind) (binds : List Bind) (resId : Id)
    (exclBinds : List Id) :
    Returns order binds resId resId exclBinds (some []) := by
  intro fuel _
  rw [dbmsFindShortestPathExclBinds, if_pos rfl]

/-- The search returns, with what its chains are known to satisfy. -/
theorem exists_returns
    {Good : Id → List Bind → Prop}
    (distinct : fromResId ≠ toResId)
    (spelling : Spelling order binds exclBinds toResId Good) :
    ∃ result, Returns order binds fromResId toResId exclBinds result ∧
      SearchPost binds exclBinds fromResId toResId Good result := by
  rcases search_spec distinct spelling (Nat.lt_succ_self _) with
    ⟨result, stopped, post⟩
  refine ⟨result, fun fuel enough => ?_, post⟩
  rw [dbmsFindShortestPathExclBinds, if_neg distinct] at stopped ⊢
  exact Loop.run_mono stopped enough

/-- A bind that the first query returns and that leads to a new collection. -/
def FirstRound (binds : List Bind) (exclBinds : List Id) (toResId : Id) :
    Prop :=
  ∃ bind ∈ binds, bind.resourceId = toResId ∧
    bind.collectionId ≠ toResId ∧ bind.id ∉ excludedIds exclBinds

theorem exists_met_one :
    (∃ collId, collId ≠ toResId ∧ Met binds exclBinds toResId 1 collId) ↔
      FirstRound binds exclBinds toResId := by
  constructor
  · rintro ⟨collId, new, met⟩
    rw [met_succ, met_zero] at met
    rcases met.resolve_left new with ⟨bind, ⟨present, child, first⟩, rfl⟩
    rw [met_zero] at child
    exact ⟨bind, present, child, new, fun excluded =>
      first rfl ⟨excluded, child⟩⟩
  · rintro ⟨bind, present, child, new, included⟩
    refine ⟨bind.collectionId, new, ?_⟩
    rw [met_succ]
    refine Or.inr ⟨bind, ⟨present, ?_, fun _ delayed => ?_⟩, rfl⟩
    · rw [met_zero]
      exact child
    · exact included delayed.1

/--
A path is returned iff there is a chain and the first query shows a
collection, and a path that is returned spells a lightest chain.
-/
theorem exists_returns_lightest
    (order : Sql.RowOrder Bind) (exclBinds : List Id)
    (distinct : fromResId ≠ toResId) :
    ∃ result, Returns order binds fromResId toResId exclBinds result ∧
      (result = none ↔
        ¬ (FirstRound binds exclBinds toResId ∧
          (bindGraph binds).Reaches fromResId toResId)) ∧
      ∀ path, result = some path →
        ∃ chain, (bindGraph binds).Lightest (bindWeight exclBinds toResId)
          fromResId chain toResId ∧ path = spell chain := by
  rcases exists_returns distinct
    (spelling_lightest order binds exclBinds toResId) with
    ⟨result, returns, post⟩
  refine ⟨result, returns, ?_⟩
  cases result with
  | none =>
      refine ⟨iff_of_true rfl ?_, nofun⟩
      rw [← exists_met_one]
      rintro ⟨⟨collId, new, met⟩, reaches⟩
      rcases post with empty | unreached
      · exact new (empty collId met)
      · exact unreached reaches
  | some path =>
      rcases post with ⟨⟨chain, lightest, spelled⟩, first⟩
      rw [exists_met_one] at first
      refine ⟨iff_of_false nofun fun missing =>
        missing ⟨first, lightest.trail.reaches⟩, ?_⟩
      intro other found
      rw [← Option.some.inj found]
      exact ⟨chain, lightest, spelled⟩

/-- Every lightest chain is returned for some order of the rows. -/
theorem exists_returns_steered
    {chain : List Bind}
    (distinct : fromResId ≠ toResId)
    (first : FirstRound binds exclBinds toResId)
    (lightest : (bindGraph binds).Lightest (bindWeight exclBinds toResId)
      fromResId chain toResId) :
    ∃ order, Returns order binds fromResId toResId exclBinds
      (some (spell chain)) := by
  rcases exists_returns distinct (spelling_steered lightest) with
    ⟨result, returns, post⟩
  refine ⟨Sql.RowOrder.first fun bind => decide (bind ∈ chain), ?_⟩
  cases result with
  | none =>
      rw [← exists_met_one] at first
      rcases first with ⟨collId, new, met⟩
      rcases post with empty | unreached
      · exact (new (empty collId met)).elim
      · exact (unreached lightest.trail.reaches).elim
  | some path =>
      rcases post with ⟨⟨other, ⟨-, steered⟩, rfl⟩, -⟩
      cases chain with
      | nil => exact (distinct lightest.trail).elim
      | cons head tail =>
          have equal := steered [] head tail rfl lightest.trail.2.1
          rw [equal] at returns
          exact returns

end Returns

/-! ## Without excluded binds -/

theorem bindWeight_nil (toResId : Id) : bindWeight [] toResId = fun _ => 1 := by
  funext bind
  rw [bindWeight, Multigraph.delayedWeight, if_neg]
  rintro ⟨excluded, -⟩
  cases excluded

/-- A bind leads into whatever is reached from elsewhere. -/
theorem firstRound_of_reaches
    {binds : List Bind} {fromResId toResId : Id}
    (distinct : fromResId ≠ toResId)
    (reaches : (bindGraph binds).Reaches fromResId toResId) :
    FirstRound binds [] toResId := by
  by_contra none
  have closed : ∀ bind, (bindGraph binds).Arrow bind →
      bind.resourceId = toResId → bind.collectionId = toResId := by
    intro bind present child
    by_contra new
    exact none ⟨bind, present, child, new, List.not_mem_nil⟩
  exact distinct (reaches.mem_of_closed_back
    (S := fun collId => collId = toResId) rfl closed)

/-- The path search without excluded binds. -/
theorem exists_returns_shortest
    (order : Sql.RowOrder Bind) (binds : List Bind) (fromResId toResId : Id) :
    ∃ result, Returns order binds fromResId toResId [] result ∧
      (result = none ↔ ¬ (bindGraph binds).Reaches fromResId toResId) ∧
      ∀ path, result = some path →
        ∃ chain, path = spell chain ∧
          (bindGraph binds).Trail fromResId chain toResId ∧
          ∀ other, (bindGraph binds).Trail fromResId other toResId →
            chain.length ≤ other.length := by
  by_cases same : fromResId = toResId
  · subst same
    refine ⟨some [], returns_self order binds fromResId [], ?_, ?_⟩
    · exact iff_of_false nofun fun unreached =>
        unreached (Multigraph.Reaches.refl _ _)
    · intro path found
      rw [← Option.some.inj found]
      exact ⟨[], rfl, rfl, fun other _ => Nat.zero_le _⟩
  · rcases exists_returns_lightest order [] same with
      ⟨result, returns, missing, spelled⟩
    refine ⟨result, returns, missing.trans (not_congr ?_), ?_⟩
    · exact and_iff_right_of_imp (firstRound_of_reaches same)
    · intro path found
      rcases spelled path found with ⟨chain, lightest, rfl⟩
      refine ⟨chain, rfl, lightest.trail, fun other trail => ?_⟩
      have light := lightest.least other trail
      rwa [bindWeight_nil, Multigraph.totalWeight_one,
        Multigraph.totalWeight_one] at light

end Limestone.PathSearch
