import Limestone.PathSearch
import Limestone.UriLookup
import Mathlib.Order.Bounds.Basic

/-!
# Reverse lookup: `sabridge_reverse_lookup`

The names of a shortest path, followed one at a time, lead to the resource
that the path was sought for.  The URI made of the path is looked up by its
tokens instead, in a query that a question mark leaves unexecuted.
-/

namespace Limestone.ReverseLookup

open Library
open DbmsBind
open DbmsLookup
open PathSearch
open UriLookup

/-! ## Following names -/

/-- The names, followed one bind at a time, all resolve and end at `toResId`. -/
def Leads (binds : List Bind) (fromResId : Id) (names : List Text)
    (toResId : Id) : Prop :=
  (walk binds fromResId names).length = names.length ∧
    (walk binds fromResId names).getLast?.getD fromResId = toResId

theorem leads_nil {binds : List Bind} {fromResId toResId : Id} :
    Leads binds fromResId [] toResId ↔ fromResId = toResId := by
  simp [Leads, walk]

/-- `Leads` in terms of the binds of the walk. -/
theorem leads_iff
    (table : BindTable) {fromResId toResId : Id} {names : List Text} :
    Leads table.rows fromResId names toResId ↔
      (walkBinds table.rows fromResId names).length = names.length ∧
        ((walkBinds table.rows fromResId names).getLast?.map
          Bind.resourceId).getD fromResId = toResId := by
  rw [Leads, walk_eq, List.length_map, List.getLast?_map]

theorem bindNamed_of_mem
    (table : BindTable) {bind : Bind} (member : bind ∈ table.rows) :
    bindNamed table.rows bind.collectionId bind.name = some bind := by
  cases found : bindNamed table.rows bind.collectionId bind.name with
  | none =>
      have listed : bind ∈ table.rows.filter fun other =>
          other.collectionId == bind.collectionId &&
            other.name == bind.name := by
        simp [member]
      rw [bindNamed, List.head?_eq_none_iff] at found
      rw [found] at listed
      cases listed
  | some other =>
      have keys := bindNamed_eq_some found
      have equal : other = bind :=
        List.inj_on_of_nodup_map table.collectionIdKey keys.1 member
          (Prod.ext keys.2.1 keys.2.2)
      rw [equal]

/-- The names of a chain are followed along the chain. -/
theorem walkBinds_of_trail
    (table : BindTable) {fromResId toResId : Id} {chain : List Bind}
    (trail : (bindGraph table.rows).Trail fromResId chain toResId) :
    walkBinds table.rows fromResId (chain.map Bind.name) = chain := by
  induction chain generalizing fromResId with
  | nil => rfl
  | cons bind chain induction =>
      rcases trail with ⟨present, leaves, trail⟩
      rcases leaves with rfl
      have found : bindNamed table.rows
          ((bindGraph table.rows).source bind) bind.name = some bind :=
        bindNamed_of_mem table present
      rw [List.map_cons, walkBinds, found]
      exact congrArg (List.cons bind) (induction trail)

theorem getLast?_of_trail
    {binds : List Bind} {fromResId toResId : Id} {chain : List Bind}
    (trail : (bindGraph binds).Trail fromResId chain toResId) :
    (chain.getLast?.map Bind.resourceId).getD fromResId = toResId := by
  induction chain generalizing fromResId with
  | nil => exact trail
  | cons bind chain induction =>
      have rest := induction trail.2.2
      cases chain with
      | nil => exact rest
      | cons next chain =>
          rw [List.getLast?_cons_cons]
          cases ends : (next :: chain).getLast? with
          | none => cases List.getLast?_eq_none_iff.mp ends
          | some last =>
              rw [ends] at rest
              exact rest

theorem leads_of_trail
    (table : BindTable) {fromResId toResId : Id} {chain : List Bind}
    (trail : (bindGraph table.rows).Trail fromResId chain toResId) :
    Leads table.rows fromResId (chain.map Bind.name) toResId := by
  rw [leads_iff, walkBinds_of_trail table trail, List.length_map]
  exact ⟨rfl, getLast?_of_trail trail⟩

/-- Names that lead somewhere are those of a chain. -/
theorem exists_trail_of_leads
    (table : BindTable) {fromResId toResId : Id} {names : List Text}
    (leads : Leads table.rows fromResId names toResId) :
    ∃ chain, (bindGraph table.rows).Trail fromResId chain toResId ∧
      chain.map Bind.name = names := by
  induction names generalizing fromResId with
  | nil => exact ⟨[], leads_nil.mp leads, rfl⟩
  | cons name names induction =>
      rw [leads_iff, walkBinds] at leads
      cases found : bindNamed table.rows fromResId name with
      | none =>
          rw [found] at leads
          cases leads.1
      | some bind =>
          rw [found] at leads
          rcases bindNamed_eq_some found with ⟨present, rfl, rfl⟩
          have rest : Leads table.rows bind.resourceId names toResId := by
            rw [leads_iff]
            refine ⟨Nat.succ.inj leads.1, ?_⟩
            have ends := leads.2
            dsimp only at ends
            rw [List.getLast?_cons] at ends
            cases last : (walkBinds table.rows bind.resourceId
                names).getLast? with
            | none =>
                rw [last] at ends
                exact ends
            | some final =>
                rw [last] at ends
                exact ends
          rcases induction rest with ⟨chain, trail, rfl⟩
          exact ⟨bind :: chain, ⟨present, rfl, trail⟩, rfl⟩

/-- One more name is followed where its bind is. -/
theorem Leads.snoc
    {table : BindTable} {fromResId : Id} {names : List Text} {bind : Bind}
    (leads : Leads table.rows fromResId names bind.collectionId)
    (member : bind ∈ table.rows) :
    Leads table.rows fromResId (names ++ [bind.name]) bind.resourceId := by
  rcases exists_trail_of_leads table leads with ⟨chain, trail, rfl⟩
  have last : (bindGraph table.rows).Trail bind.collectionId [bind]
      bind.resourceId :=
    ⟨member, rfl, rfl⟩
  have whole := leads_of_trail table (trail.append last)
  rwa [List.map_append] at whole

/-! ## Shortest paths -/

/-- What `dbms_find_shortest_path` does for two resources. -/
def FindsShortestPath (order : Sql.RowOrder Bind) (binds : List Bind)
    (fromResId toResId : Id) : Prop :=
  ∃ result,
    (∀ fuel, binds.length < fuel →
      dbmsFindShortestPath fuel order binds fromResId toResId =
        some result) ∧
    (result = none ↔ ¬ (bindGraph binds).Reaches fromResId toResId) ∧
    ∀ path, result = some path →
      ∃ names, path = Segments.slashed '/' names ∧
        Leads binds fromResId names toResId ∧
        IsLeast
          {count | ∃ chain, (bindGraph binds).Trail fromResId chain toResId ∧
            chain.length = count}
          names.length

theorem spell_eq_slashed (chain : List Bind) :
    spell chain = Segments.slashed '/' (chain.map Bind.name) := by
  induction chain with
  | nil => rfl
  | cons bind chain induction =>
      rw [spell_cons, induction, List.map_cons, Segments.slashed_cons,
        List.cons_append]

theorem findsShortestPath
    (table : BindTable) (order : Sql.RowOrder Bind) (fromResId toResId : Id) :
    FindsShortestPath order table.rows fromResId toResId := by
  rcases exists_returns_shortest order table.rows fromResId toResId with
    ⟨result, returns, missing, spelled⟩
  refine ⟨result, returns, missing, ?_⟩
  intro path found
  rcases spelled path found with ⟨chain, rfl, trail, least⟩
  refine ⟨chain.map Bind.name, spell_eq_slashed chain,
    leads_of_trail table trail, ?_⟩
  rw [List.length_map]
  constructor
  · exact ⟨chain, trail, rfl⟩
  · rintro _ ⟨other, otherTrail, rfl⟩
    exact least other otherTrail

/-! ## The URI of a resource -/

/-- The path as it stands in a URI. -/
def uriPath (pathFromRoot : Text) : Text :=
  if pathFromRoot = [] then "/".toList else pathFromRoot

/--
`sabridge_reverse_lookup`: the `uri` that is set, `some none` where `strcmp`
is given a NULL path.
-/
def sabridgeReverseLookup (fuel : Nat) (order : Sql.RowOrder Bind)
    (binds : List Bind) (rootPath : Text) (serialno : Id) :
    Option (Option Text) :=
  (dbmsFindShortestPath fuel order binds rootCollectionId serialno).map
    (Option.map fun pathFromRoot => rootPath ++ uriPath pathFromRoot)

theorem tokens_uriPath (path : Text) :
    Segments.tokens '/' (uriPath path) = Segments.tokens '/' path := by
  rw [uriPath]
  split
  · next empty =>
      rw [empty]
      rfl
  · rfl

theorem question_mem_uriPath (path : Text) :
    '?' ∈ uriPath path ↔ '?' ∈ path := by
  rw [uriPath]
  split
  · next empty =>
      rw [empty]
      decide
  · exact Iff.rfl

/-- The URI of the resource, looked up again, gives the resource. -/
def LooksUpAgain (order : Sql.RowOrder Bind)
    (lastModified : Id → Option Text) (binds : List Bind) (rootPath : Text)
    (resId : Id) : Prop :=
  ∀ fuel, binds.length < fuel →
    ∃ uri bind,
      sabridgeReverseLookup fuel order binds rootPath resId =
        some (some uri) ∧
      dbmsLookupUri false binds lastModified (uri.drop rootPath.length) =
        .found bind ∧
      bind.resourceId = resId

/--
The path of every chain of least length to the resource has no question mark
and its tokens lead to the resource.
-/
def PathsResolve (binds : List Bind) (resId : Id) : Prop :=
  ∀ chain,
    (bindGraph binds).Lightest (fun _ => 1) rootCollectionId chain resId →
      '?' ∉ spell chain ∧
        Leads binds rootCollectionId (Segments.tokens '/' (spell chain)) resId

/-- What a lookup without errors finds. -/
theorem lookup_found_iff
    (table : BindTable) (lastModified : Id → Option Text) (uri : Text)
    {resId : Id} (positive : 0 < resId) :
    (∃ bind, dbmsLookupUri false table.rows lastModified uri = .found bind ∧
        bind.resourceId = resId) ↔
      '?' ∉ uri ∧
        Leads table.rows rootCollectionId (Segments.tokens '/' uri) resId := by
  by_cases empty : Segments.tokens '/' uri = []
  · have other : '?' ≠ '/' := by decide
    have noQuestion : '?' ∉ uri := by
      rw [Segments.mem_tokens_iff other, empty]
      simp
    have root : dbmsLookupUri false table.rows lastModified uri =
        .found { resourceId := rootCollectionId
                 updatedAt := rootUpdatedAt } := by
      simp only [dbmsLookupUri, compactUri, Segments.tokens_squeeze, empty]
    rw [root, empty, leads_nil]
    constructor
    · rintro ⟨bind, found, same⟩
      rcases LookupResult.found.inj found with rfl
      exact ⟨noQuestion, same⟩
    · rintro ⟨-, same⟩
      exact ⟨_, rfl, same⟩
  rw [dbmsLookupUri_eq table false lastModified empty, leads_iff]
  by_cases question : '?' ∈ uri
  · rw [if_pos question]
    constructor
    · rintro ⟨_, found, -⟩
      cases found
    · rintro ⟨noQuestion, -⟩
      exact (noQuestion question).elim
  rw [if_neg question, if_neg Bool.false_ne_true]
  cases ends : (walkBinds table.rows rootCollectionId
      (Segments.tokens '/' uri)).getLast? with
  | none =>
      have unresolved := List.getLast?_eq_none_iff.mp ends
      rw [if_pos unresolved]
      constructor
      · rintro ⟨_, found, -⟩
        cases found
      · rintro ⟨-, complete, -⟩
        rw [unresolved] at complete
        exact (empty (List.length_eq_zero_iff.mp complete.symm)).elim
  | some last =>
      have resolved : walkBinds table.rows rootCollectionId
          (Segments.tokens '/' uri) ≠ [] := by
        intro unresolved
        rw [unresolved] at ends
        cases ends
      rw [if_neg resolved, chainRow]
      by_cases complete : (walkBinds table.rows rootCollectionId
          (Segments.tokens '/' uri)).length = (Segments.tokens '/' uri).length
      · have read := readRow_complete lastModified (compactUri uri) ends
        rw [complete, Nat.sub_self, List.replicate_zero, List.append_nil]
        constructor
        · rintro ⟨bind, found, same⟩
          rcases LookupResult.found.inj found with rfl
          exact ⟨question, rfl, read.1.symm.trans same⟩
        · rintro ⟨-, -, same⟩
          exact ⟨_, rfl, read.1.trans same⟩
      · have bound := length_walkBinds_le table.rows rootCollectionId
          (Segments.tokens '/' uri)
        have missing : (Segments.tokens '/' uri).length -
            (walkBinds table.rows rootCollectionId
              (Segments.tokens '/' uri)).length ≠ 0 := by omega
        have read :=
          readRow_inPart lastModified (compactUri uri) missing ends
        constructor
        · rintro ⟨bind, found, same⟩
          rcases LookupResult.found.inj found with rfl
          have negative : (-1 : Int) = resId := read.1.symm.trans same
          have notPositive : ¬ 0 < resId := by
            rw [← negative]
            decide
          exact (notPositive positive).elim
        · rintro ⟨-, whole, -⟩
          exact (complete whole).elim

theorem positive_of_reaches
    (table : BindTable) {resId : Id}
    (reaches : (bindGraph table.rows).Reaches rootCollectionId resId) :
    0 < resId := by
  apply reaches.mem_of_closed (S := fun resId : Id => 0 < resId)
  · decide
  · intro bind present _
    exact (table.positive bind present).2

/-- The reverse lookup, given what the search returns. -/
theorem looksUpAgain_iff
    (table : BindTable) {order : Sql.RowOrder Bind}
    (lastModified : Id → Option Text) (rootPath : Text)
    {resId : Id} (positive : 0 < resId) {chain : List Bind}
    (returns : Returns order table.rows rootCollectionId resId []
      (some (spell chain))) :
    LooksUpAgain order lastModified table.rows rootPath resId ↔
      '?' ∉ spell chain ∧
        Leads table.rows rootCollectionId (Segments.tokens '/' (spell chain))
          resId := by
  have uri : ∀ fuel, table.rows.length < fuel →
      sabridgeReverseLookup fuel order table.rows rootPath resId =
        some (some (rootPath ++ uriPath (spell chain))) := by
    intro fuel enough
    have path : dbmsFindShortestPath fuel order table.rows rootCollectionId
        resId = some (some (spell chain)) :=
      returns fuel enough
    rw [sabridgeReverseLookup, path]
    rfl
  have found := lookup_found_iff table lastModified
    (uriPath (spell chain)) positive
  rw [question_mem_uriPath, tokens_uriPath] at found
  rw [← found]
  constructor
  · intro again
    rcases again _ (Nat.lt_succ_self _) with ⟨set, bind, isSet, looked, same⟩
    rw [uri _ (Nat.lt_succ_self _)] at isSet
    rcases Option.some.inj (Option.some.inj isSet) with rfl
    rw [List.drop_left] at looked
    exact ⟨bind, looked, same⟩
  · rintro ⟨bind, looked, same⟩ fuel enough
    refine ⟨_, bind, uri fuel enough, ?_, same⟩
    rw [List.drop_left]
    exact looked

/-- Every order of the rows, against every chain of least length. -/
theorem forall_looksUpAgain_iff
    (table : BindTable) (lastModified : Id → Option Text) (rootPath : Text)
    {resId : Id}
    (reaches : (bindGraph table.rows).Reaches rootCollectionId resId) :
    (∀ order, LooksUpAgain order lastModified table.rows rootPath resId) ↔
      PathsResolve table.rows resId := by
  have positive := positive_of_reaches table reaches
  constructor
  · intro again chain lightest
    by_cases same : rootCollectionId = resId
    · have start := lightest.least [] same
      rw [Multigraph.totalWeight_one] at start
      rcases List.length_eq_zero_iff.mp (Nat.le_zero.mp start) with rfl
      exact ⟨List.not_mem_nil, leads_nil.mpr same⟩
    · have steered : (bindGraph table.rows).Lightest
          (bindWeight [] resId) rootCollectionId chain resId := by
        rw [bindWeight_nil]
        exact lightest
      rcases exists_returns_steered same
        (firstRound_of_reaches same reaches) steered with ⟨order, returns⟩
      exact (looksUpAgain_iff table lastModified rootPath positive
        returns).mp (again order)
  · intro resolve order
    rcases exists_returns_shortest order table.rows rootCollectionId resId
      with ⟨result, returns, missing, spelled⟩
    cases result with
    | none => exact (missing.mp rfl reaches).elim
    | some path =>
        rcases spelled path rfl with ⟨chain, rfl, trail, least⟩
        apply (looksUpAgain_iff table lastModified rootPath positive
          returns).mpr
        apply resolve chain
        constructor
        · exact trail
        · simpa only [Multigraph.totalWeight_one] using least

/-- Names that are segments are the tokens of their path. -/
theorem tokens_spell
    {binds : List Bind} {fromResId toResId : Id} {chain : List Bind}
    (segments : ∀ bind ∈ binds, Segments.IsSegment '/' bind.name)
    (trail : (bindGraph binds).Trail fromResId chain toResId) :
    Segments.tokens '/' (spell chain) = chain.map Bind.name := by
  have names : ∀ name ∈ chain.map Bind.name, Segments.IsSegment '/' name := by
    intro name member
    rcases List.mem_map.mp member with ⟨bind, inChain, rfl⟩
    exact segments bind (trail.arrow_mem bind inChain)
  have whole := Segments.tokens_slashed names
    (Or.inl rfl : Segments.IsTrail '/' [])
  rwa [List.append_nil, ← spell_eq_slashed] at whole

/-- Names that are segments resolve, and only question marks are left. -/
theorem pathsResolve_iff_of_segments
    (table : BindTable) (resId : Id)
    (segments : ∀ bind ∈ table.rows, Segments.IsSegment '/' bind.name) :
    PathsResolve table.rows resId ↔
      ∀ chain,
        (bindGraph table.rows).Lightest (fun _ => 1) rootCollectionId chain
            resId →
          ∀ bind ∈ chain, '?' ∉ bind.name := by
  have other : '?' ≠ '/' := by decide
  apply forall_congr'
  intro chain
  apply imp_congr_right
  intro lightest
  rw [Segments.mem_tokens_iff other, tokens_spell segments lightest.trail,
    and_iff_left (leads_of_trail table lightest.trail)]
  simp

/--
Path searches find a shortest path for every table and every order of the
rows.  The URI of a resource is looked up again for every order iff the paths
of all shortest chains to it resolve without a question mark.
-/
theorem shortestPath_reverseLookup_iff
    (table : BindTable) (lastModified : Id → Option Text) (rootPath : Text)
    (fromResId toResId : Id) :
    (∀ order, FindsShortestPath order table.rows fromResId toResId) ∧
      (((bindGraph table.rows).Reaches rootCollectionId toResId →
          ∀ order,
            LooksUpAgain order lastModified table.rows rootPath toResId) ↔
        PathsResolve table.rows toResId) ∧
      ((∀ bind ∈ table.rows, Segments.IsSegment '/' bind.name) →
        (PathsResolve table.rows toResId ↔
          ∀ chain,
            (bindGraph table.rows).Lightest (fun _ => 1) rootCollectionId
                chain toResId →
              ∀ bind ∈ chain, '?' ∉ bind.name)) := by
  refine ⟨fun order => findsShortestPath table order fromResId toResId, ?_,
    pathsResolve_iff_of_segments table toResId⟩
  by_cases reaches : (bindGraph table.rows).Reaches rootCollectionId toResId
  · rw [← forall_looksUpAgain_iff table lastModified rootPath reaches]
    exact forall_prop_of_true reaches
  · refine iff_of_true (fun reached => (reaches reached).elim) ?_
    intro chain lightest
    exact (reaches lightest.trail.reaches).elim

/-- The name `a?` again: its URI is looked up without results. -/
theorem reverseLookup_not_looksUpAgain :
    (bindGraph twoNames.rows).Reaches rootCollectionId 3 ∧
      ¬ LooksUpAgain (Sql.RowOrder.stored Bind) (fun _ => none) twoNames.rows
        [] 3 := by
  constructor
  · have present : (bindGraph twoNames.rows).Arrow
        ⟨1, "a?".toList, 2, 3, none⟩ :=
      List.mem_cons_self
    exact Multigraph.reaches_of_arrow present
  · intro again
    rcases again 3 (by decide) with ⟨uri, bind, isSet, looked, -⟩
    have path : sabridgeReverseLookup 3 (Sql.RowOrder.stored Bind)
        twoNames.rows [] 3 = some (some "/a?".toList) := by
      decide
    rw [path] at isSet
    rcases Option.some.inj (Option.some.inj isSet) with rfl
    have unexecuted : dbmsLookupUri false twoNames.rows (fun _ => none)
        "/a?".toList = .undefined := by
      rw [dbmsLookupUri_eq twoNames false _ (by decide), if_pos (by decide)]
    rw [List.length_nil, List.drop_zero, unexecuted] at looked
    cases looked

end Limestone.ReverseLookup
