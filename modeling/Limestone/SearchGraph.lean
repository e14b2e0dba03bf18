import Limestone.Library.Loop
import Limestone.Library.RecursiveUnion
import Limestone.Library.SqlInsert
import Limestone.PropertyKeys
import Limestone.ReverseLookup

/-!
# The recursion of a search: `search_graph`

Each scope is a seed of the recursive query, and adds a disjunct to the
condition under which a row is joined with the binds of its resource.  The
binds that lead to a row are kept in an array that begins with the bind of the
scope, and a row whose bind was in the array before is not joined again.
-/

namespace Limestone.SearchGraph

open Library
open Library.SqlScan
open Library.SqlInsert
open DbmsBind
open PathSearch
open ReverseLookup
open Search

/-! ## The query -/

/-- A row of `search_graph`. -/
structure SearchRow where
  rootBindId : Id
  bindId : Id
  url : Text
  resourceId : Id
  depth : Int
  visitedBinds : List Id
  cycle : Bool
deriving DecidableEq, Repr

/-- A disjunct of the condition: a bind, and a depth where there is one. -/
structure SearchCond where
  rootBindId : Id
  depth : Option Int
deriving DecidableEq, Repr

def SearchCond.holds (cond : SearchCond) (row : SearchRow) : Bool :=
  row.rootBindId == cond.rootBindId &&
    cond.depth.all fun depth => decide (row.depth < depth)

/-- The row that a bind of its resource adds to a row. -/
def SearchRow.next (row : SearchRow) (bind : Bind) : SearchRow where
  rootBindId := row.rootBindId
  bindId := bind.id
  url := row.url ++ '/' :: bind.name
  resourceId := bind.resourceId
  depth := row.depth + 1
  visitedBinds := row.visitedBinds ++ [bind.id]
  cycle := bind.id ∈ row.visitedBinds

/-- The recursive part of the query. -/
def expand (binds : List Bind) (conds : List SearchCond) (row : SearchRow) :
    List SearchRow :=
  (binds.filter fun bind =>
    bind.collectionId == row.resourceId && !row.cycle &&
      conds.any fun cond => cond.holds row).map row.next

/-- What the fragments of the context say. -/
structure SearchQuery where
  seeds : List SearchRow
  conds : List SearchCond

/-- The rows of `search_graph`, unless there are more rounds. -/
def searchGraph (binds : List Bind) (query : SearchQuery) (rounds : Nat) :
    Option (List SearchRow) :=
  RecursiveUnion.evaluate (expand binds query.conds) rounds query.seeds

/-! ## The text of the fragments -/

/-- The tokens of a list with a token between its members. -/
def separated (separator : Token) : List (List Token) → List Token
  | [] => []
  | [tokens] => tokens
  | tokens :: rest => tokens ++ separator :: separated separator rest

/-- A row as a list of constants. -/
def rowTokens (row : SearchRow) : List Token :=
  [.symbol '('] ++ valueTokens (.number row.rootBindId) ++ [.symbol ','] ++
    valueTokens (.number row.bindId) ++ [.symbol ','] ++
    valueTokens (.text row.url) ++ [.symbol ','] ++
    valueTokens (.number row.resourceId) ++
    [.operator "::".toList, .word "bigint".toList, .symbol ','] ++
    valueTokens (.number row.depth) ++
    [.symbol ',', .word "ARRAY".toList, .symbol '['] ++
    separated (.symbol ',')
      (row.visitedBinds.map fun id => valueTokens (.number id)) ++
    [.symbol ']', .symbol ',',
      .word (if row.cycle then "true".toList else "false".toList),
      .symbol ')']

/-- A column of `sg`. -/
def columnTokens (name : String) : List Token :=
  [.word "sg".toList, .symbol '.', .word name.toList]

def condTokens (cond : SearchCond) : List Token :=
  [.symbol '('] ++ columnTokens "root_bind_id" ++ [.operator ['=']] ++
    valueTokens (.number cond.rootBindId) ++
    (match cond.depth with
    | none => []
    | some depth =>
        [.word "AND".toList] ++ columnTokens "depth" ++ [.operator ['<']] ++
          valueTokens (.number depth)) ++
    [.symbol ')']

/-- The fragments of the context are these seeds and this condition. -/
structure Spells (ctx : SearchCtx) (query : SearchQuery) : Prop where
  seeds : ∃ seed, ctx.searchGraphSeed = some seed ∧
    Scans false seed (separated (.symbol ',') (query.seeds.map rowTokens))
  conds : ∃ cond, ctx.searchGraphCond = some cond ∧
    Scans false cond
      (separated (.word "OR".toList) (query.conds.map condTokens))

/-! ## The scopes -/

/-- The resource of a scope, and its depth. -/
structure Scope where
  resource : ScopeResource
  depth : Option Int

/-- What `parse_scope` takes a scope for, if it is acceptable. -/
def scopeOf (server : Server) (scope : ScopeElem CharData) : Option Scope :=
  match scopeUri server scope.href, scope.depth with
  | .ok uri, some depth =>
      some ⟨server.resourceFromUri uri, parseDepth server depth⟩
  | _, _ => none

def Scope.seed (scope : Scope) : SearchRow where
  rootBindId := scope.resource.bindId
  bindId := scope.resource.bindId
  url := scope.resource.uri
  resourceId := scope.resource.serialno
  depth := 0
  visitedBinds := [(scope.resource.bindId : Id)]
  cycle := false

def Scope.cond (scope : Scope) : SearchCond where
  rootBindId := scope.resource.bindId
  depth := scope.depth

/-- The query that the scopes are meant to build. -/
def queryOf (scopes : List Scope) : SearchQuery where
  seeds := scopes.map Scope.seed
  conds := scopes.map Scope.cond

variable {server : Server} {ctx start : SearchCtx} {scope : Scope}
  {scopes : List Scope} {elems : List (ScopeElem CharData)}

/-! ## What the fragments say -/

theorem separated_append
    {separator : Token} {lists : List (List Token)} {last : List Token}
    (nonempty : lists ≠ []) :
    separated separator (lists ++ [last]) =
      separated separator lists ++ separator :: last := by
  induction lists with
  | nil => exact (nonempty rfl).elim
  | cons first lists induction =>
      cases lists with
      | nil => rfl
      | cons next lists =>
          have behind := induction (List.cons_ne_nil next lists)
          show first ++ separator :: separated separator
            (next :: lists ++ [last]) = _
          rw [behind]
          show _ = (first ++ separator :: separated separator
            (next :: lists)) ++ separator :: last
          rw [List.append_assoc]
          rfl

theorem valueText_number (value : Nat) :
    valueText false (.number value) = number value :=
  Nat.toList_repr

/-- A text without quotes stands for itself in a literal. -/
theorem escape_eq_self {text : Text} (unquoted : '\'' ∉ text) :
    escape false text = text := by
  have each : ∀ char ∈ text,
      (if char = '\'' ∨ false = true ∧ char = '\\' then [char, char]
        else [char]) = [char] := by
    intro char member
    rw [if_neg]
    rintro (quote | ⟨never, -⟩)
    · rcases quote with rfl
      exact unquoted member
    · cases never
  rw [escape, List.flatMap_congr each]
  simp

/-- A number and the type and constants behind it. -/
theorem scans_serialno (value : SqlValue) :
    Scans false (valueText false value ++ "::bigint, 0, ARRAY[".toList)
      (valueTokens value ++ [.operator "::".toList, .word "bigint".toList,
        .symbol ',', .number ['0'], .symbol ',', .word "ARRAY".toList,
        .symbol '[']) := by
  have behind : run false ⟨[], .operator [':']⟩
      ":bigint, 0, ARRAY[".toList =
        ⟨[.operator "::".toList, .word "bigint".toList, .symbol ',',
          .number ['0'], .symbol ',', .word "ARRAY".toList, .symbol '['],
          .ground⟩ := by
    decide +kernel
  have split : "::bigint, 0, ARRAY[".toList =
      ':' :: ":bigint, 0, ARRAY[".toList := by
    decide
  rw [Scans, run_append, start, run_valueText_open, split, run_cons,
    step_openScan (by decide) (by decide)]
  have shifted := @run_tokens false ":bigint, 0, ARRAY[".toList []
    (.operator [':']) ([] ++ valueTokens value)
  rw [List.append_nil, behind] at shifted
  exact shifted

theorem scans_seedText (unquoted : '\'' ∉ scope.resource.uri) :
    Scans false (seedText scope.resource) (rowTokens scope.seed) := by
  have text : seedText scope.resource =
      ['('] ++ (valueText false (.number scope.resource.bindId) ++ [',']) ++
        [' '] ++ (valueText false (.number scope.resource.bindId) ++ [',']) ++
        [' '] ++ (valueText false (.text scope.resource.uri) ++ [',']) ++
        [' '] ++ (valueText false (.number scope.resource.serialno) ++
          "::bigint, 0, ARRAY[".toList) ++
        (valueText false (.number scope.resource.bindId) ++ [']']) ++
        ", false)".toList := by
    have comma : ", ".toList = [',', ' '] := by decide
    have opened : ", '".toList = [',', ' ', '\''] := by decide
    have closed : "', ".toList = ['\'', ',', ' '] := by decide
    have flag : "], false)".toList = ']' :: ", false)".toList := by decide
    have parenthesis : "(".toList = ['('] := by decide
    delta seedText
    rw [valueText_number, valueText_number, comma, opened, closed, flag,
      parenthesis, valueText, escape_eq_self unquoted]
    simp only [List.append_assoc, List.cons_append, List.nil_append]
  have bracket : Scans false ['('] [.symbol '('] :=
    rfl
  have blank : Scans false [' '] [] :=
    rfl
  have comma : ∀ value : SqlValue,
      Scans false (valueText false value ++ [','])
        (valueTokens value ++ [.symbol ',']) :=
    fun _ => scans_valueText (Or.inl rfl)
  have closed : Scans false
      (valueText false (.number scope.resource.bindId) ++ [']'])
      (valueTokens (.number scope.resource.bindId) ++ [.symbol ']']) :=
    scans_valueText_ended (by decide) (by decide) fun _ => rfl
  have flag : Scans false ", false)".toList
      [.symbol ',', .word "false".toList, .symbol ')'] := by
    unfold Scans
    decide +kernel
  have whole := ((((((((bracket.append (comma (.number
    scope.resource.bindId))).append blank).append (comma (.number
    scope.resource.bindId))).append blank).append (comma (.text
    scope.resource.uri))).append blank).append (scans_serialno (.number
    scope.resource.serialno))).append closed).append flag
  rw [text, rowTokens]
  simpa [Scope.seed, separated, valueTokens] using whole

theorem scans_condText :
    Scans false (condText scope.resource scope.depth)
      (condTokens scope.cond) := by
  have opened : Scans false "(sg.root_bind_id = ".toList
      ([.symbol '('] ++ columnTokens "root_bind_id" ++ [.operator ['=']]) := by
    unfold Scans
    decide +kernel
  have closed : ∀ value : SqlValue,
      Scans false (valueText false value ++ [')'])
        (valueTokens value ++ [.symbol ')']) :=
    fun _ => scans_valueText (Or.inr rfl)
  cases known : scope.depth with
  | none =>
      have text : condText scope.resource none =
          "(sg.root_bind_id = ".toList ++
            (valueText false (.number scope.resource.bindId) ++ [')']) := by
        rw [valueText_number]
        exact List.append_assoc _ _ [')']
      have whole := opened.append (closed (.number scope.resource.bindId))
      rw [text, condTokens]
      simpa [Scope.cond, known] using whole
  | some depth =>
      have text : condText scope.resource (some depth) =
          "(sg.root_bind_id = ".toList ++
            (valueText false (.number scope.resource.bindId) ++ [' ']) ++
            "AND sg.depth < ".toList ++
            (valueText false (.number depth) ++ [')']) := by
        have blank : ∀ front middle back behind : Text,
            front ++ middle ++ (' ' :: back) ++ behind ++ [')'] =
              front ++ (middle ++ [' ']) ++ back ++ (behind ++ [')']) := by
          simp
        rw [valueText_number]
        exact blank _ _ _ _
      have blank : Scans false
          (valueText false (.number scope.resource.bindId) ++ [' '])
          (valueTokens (.number scope.resource.bindId) ++ []) :=
        scans_valueText_ended (by decide) (by decide) fun tokens => by
          rw [List.append_nil]
          rfl
      have middle : Scans false "AND sg.depth < ".toList
          ([.word "AND".toList] ++ columnTokens "depth" ++
            [.operator ['<']]) := by
        unfold Scans
        decide +kernel
      have whole := ((opened.append blank).append middle).append
        (closed (.number depth))
      rw [text, condTokens]
      simpa [Scope.cond, known] using whole

/-- The first scope. -/
theorem spells_first
    (seed : start.searchGraphSeed = none)
    (cond : start.searchGraphCond = none)
    (unquoted : '\'' ∉ scope.resource.uri) :
    Spells (addSearchGraph scope.resource scope.depth start)
      (queryOf [scope]) := by
  constructor
  case seeds =>
    refine ⟨seedText scope.resource, ?_, scans_seedText unquoted⟩
    simp only [addSearchGraph, seed]
  case conds =>
    refine ⟨condText scope.resource scope.depth, ?_, scans_condText⟩
    simp only [addSearchGraph, cond]

/-- A further scope. -/
theorem Spells.add
    (before : Spells ctx (queryOf scopes))
    (nonempty : scopes ≠ [])
    (unquoted : '\'' ∉ scope.resource.uri) :
    Spells (addSearchGraph scope.resource scope.depth ctx)
      (queryOf (scopes ++ [scope])) := by
  rcases before with ⟨⟨seed, seedEq, seedScans⟩, ⟨cond, condEq, condScans⟩⟩
  constructor
  case seeds =>
    have comma : Scans false ",".toList [.symbol ','] := by
      unfold Scans
      decide +kernel
    refine ⟨seed ++ ",".toList ++ seedText scope.resource, ?_, ?_⟩
    · simp only [addSearchGraph, seedEq]
    · have whole := (seedScans.append comma).append (scans_seedText unquoted)
      have filled : (queryOf scopes).seeds.map rowTokens ≠ [] := by
        simpa [queryOf] using nonempty
      have tokens : (queryOf (scopes ++ [scope])).seeds.map rowTokens =
          (queryOf scopes).seeds.map rowTokens ++ [rowTokens scope.seed] := by
        simp [queryOf]
      rw [tokens, separated_append filled]
      simpa using whole
  case conds =>
    have word : Scans false " OR ".toList [.word "OR".toList] := by
      unfold Scans
      decide +kernel
    refine ⟨cond ++ " OR ".toList ++ condText scope.resource scope.depth,
      ?_, ?_⟩
    · simp only [addSearchGraph, condEq]
    · have whole := (condScans.append word).append (@scans_condText scope)
      have filled : (queryOf scopes).conds.map condTokens ≠ [] := by
        simpa [queryOf] using nonempty
      have tokens : (queryOf (scopes ++ [scope])).conds.map condTokens =
          (queryOf scopes).conds.map condTokens ++
            [condTokens scope.cond] := by
        simp [queryOf]
      rw [tokens, separated_append filled]
      simpa using whole

/-- The fragments say what the scopes are meant to say. -/
theorem spells_queryOf
    (seed : start.searchGraphSeed = none)
    (cond : start.searchGraphCond = none)
    (nonempty : scopes ≠ [])
    (unquoted : ∀ scope ∈ scopes, '\'' ∉ scope.resource.uri) :
    Spells
      (scopes.foldl
        (fun ctx scope => addSearchGraph scope.resource scope.depth ctx)
        start)
      (queryOf scopes) := by
  induction scopes using List.reverseRecOn with
  | nil => exact (nonempty rfl).elim
  | append_singleton scopes scope induction =>
      have last := unquoted scope
        (List.mem_append_right _ List.mem_cons_self)
      rw [List.foldl_append]
      by_cases empty : scopes = []
      · rcases empty with rfl
        exact spells_first seed cond last
      · have before := induction empty fun other member =>
          unquoted other (List.mem_append_left _ member)
        exact before.add empty last

/-- An accepted scope. -/
theorem parseScope_eq_ok {elem : ScopeElem CharData}
    (plain : start.isBitQuery = false)
    (parsed : parseScope server start elem = .ok ctx) :
    ∃ scope, scopeOf server elem = some scope ∧
      ctx = addSearchGraph scope.resource scope.depth start := by
  unfold parseScope at parsed
  cases located : scopeUri server elem.href with
  | error failure =>
      rw [located] at parsed
      cases parsed
  | ok uri =>
      rw [located] at parsed
      cases depth : elem.depth with
      | none =>
          rw [depth] at parsed
          cases parsed
      | some cdata =>
          rw [depth, plain] at parsed
          refine ⟨⟨server.resourceFromUri uri, parseDepth server cdata⟩, ?_, ?_⟩
          · rw [scopeOf, located, depth]
          · exact (Except.ok.inj parsed).symm

/-- The scopes of an accepted list, and what they do to the context. -/
theorem foldlM_parseScope_eq_ok
    (plain : start.isBitQuery = false)
    (parsed : elems.foldlM (parseScope server) start = .ok ctx) :
    (elems.filterMap (scopeOf server)).length = elems.length ∧
      ctx = (elems.filterMap (scopeOf server)).foldl
        (fun ctx scope => addSearchGraph scope.resource scope.depth ctx)
        start := by
  induction elems generalizing start with
  | nil => exact ⟨rfl, (Except.ok.inj parsed).symm⟩
  | cons elem elems induction =>
      rw [List.foldlM_cons] at parsed
      cases first : parseScope server start elem with
      | error failure =>
          rw [first] at parsed
          cases parsed
      | ok next =>
          rw [first] at parsed
          rcases parseScope_eq_ok plain first with ⟨scope, isScope, rfl⟩
          have still : (addSearchGraph scope.resource scope.depth
              start).isBitQuery = false :=
            plain
          rcases induction still parsed with ⟨length, rest⟩
          rw [List.filterMap_cons_some isScope, List.length_cons,
            List.length_cons, length, List.foldl_cons]
          exact ⟨rfl, rest⟩

theorem parseFrom_eq_ok
    (plain : start.isBitQuery = false)
    (parsed : parseFrom server elems start = .ok ctx) :
    elems.filterMap (scopeOf server) ≠ [] ∧
      ctx = (elems.filterMap (scopeOf server)).foldl
        (fun ctx scope => addSearchGraph scope.resource scope.depth ctx)
        start := by
  unfold parseFrom at parsed
  split at parsed
  case isTrue => cases parsed
  case isFalse nonempty =>
    rcases foldlM_parseScope_eq_ok plain parsed with ⟨length, same⟩
    refine ⟨fun none => ?_, same⟩
    rw [none] at length
    exact nonempty (List.length_eq_zero_iff.mp length.symm)

/-! ## The rows -/

variable {binds : List Bind} {table : BindTable} {conds : List SearchCond}
  {row next : SearchRow} {bind : Bind} {chain : List Bind} {finish : Id}
  {query : SearchQuery} {rows : List SearchRow} {rounds : Nat}

theorem mem_expand :
    next ∈ expand binds conds row ↔
      ∃ bind ∈ binds, bind.collectionId = row.resourceId ∧
        row.cycle = false ∧ (∃ cond ∈ conds, cond.holds row = true) ∧
        row.next bind = next := by
  rw [expand, List.mem_map]
  constructor
  · rintro ⟨bind, member, rfl⟩
    rw [List.mem_filter, Bool.and_eq_true, Bool.and_eq_true, beq_iff_eq,
      Bool.not_eq_true', List.any_eq_true] at member
    exact ⟨bind, member.1, member.2.1.1, member.2.1.2, member.2.2, rfl⟩
  · rintro ⟨bind, member, leaves, open_, met, rfl⟩
    refine ⟨bind, ?_, rfl⟩
    rw [List.mem_filter, Bool.and_eq_true, Bool.and_eq_true, beq_iff_eq,
      Bool.not_eq_true', List.any_eq_true]
    exact ⟨member, ⟨leaves, open_⟩, met⟩

/-- The binds that a row has not visited count twice, and its flag once. -/
def rank (binds : List Bind) (row : SearchRow) : Nat :=
  2 * Loop.unvisited Bind.id binds row.visitedBinds +
    if row.cycle then 0 else 1

/-- A row that is joined visits another bind, or sets the flag. -/
theorem rank_lowers (joined : next ∈ expand binds conds row) :
    rank binds next < rank binds row := by
  rcases mem_expand.mp joined with ⟨bind, member, -, open_, -, rfl⟩
  unfold rank
  rw [open_]
  show 2 * Loop.unvisited Bind.id binds (row.visitedBinds ++ [bind.id]) + _ < _
  by_cases seen : bind.id ∈ row.visitedBinds
  · have flag : (row.next bind).cycle = true := decide_eq_true seen
    have most : Loop.unvisited Bind.id binds
        (row.visitedBinds ++ [bind.id]) ≤ _ :=
      Loop.unvisited_le fun here => List.mem_append_left [bind.id]
    rw [flag]
    simp only [if_true, Bool.false_eq_true, if_false]
    omega
  · have flag : (row.next bind).cycle = false := decide_eq_false seen
    have less := Loop.unvisited_lt member seen
    rw [flag]
    simp only [Bool.false_eq_true, if_false]
    omega

/-- The recursion ends, whatever the binds and the scopes are. -/
theorem exists_searchGraph (binds : List Bind) (query : SearchQuery) :
    ∃ rounds rows, searchGraph binds query rounds = some rows :=
  RecursiveUnion.exists_evaluate (rank binds) (fun _ _ => rank_lowers)
    query.seeds

/-! ## Where the rows lead -/

/-- The URL leads from the root collection to the resource. -/
def Resolves (binds : List Bind) (rootPath url : Text) (id : Id) : Prop :=
  ∃ path, url = rootPath ++ path ∧
    Leads binds rootCollectionId (Segments.tokens '/' path) id

/-- What a row leads to is joined with the binds of the same resource. -/
theorem Resolves.joined
    {rootPath : Text}
    (segment : Segments.IsSegment '/' bind.name)
    (member : bind ∈ table.rows)
    (leaves : bind.collectionId = row.resourceId)
    (resolves : Resolves table.rows rootPath row.url row.resourceId) :
    Resolves table.rows rootPath (row.next bind).url
      (row.next bind).resourceId := by
  rcases resolves with ⟨path, url, leads⟩
  refine ⟨path ++ '/' :: bind.name, ?_, ?_⟩
  · show row.url ++ '/' :: bind.name = _
    rw [url, List.append_assoc]
  · rw [Segments.tokens_append_sep, Segments.tokens_segment segment]
    rw [← leaves] at leads
    exact leads.snoc member

/-- The row belongs to the scope, and resolves if the URI of the scope does. -/
structure BelongsTo (binds : List Bind) (scope : Scope) (row : SearchRow) :
    Prop where
  root : row.rootBindId = scope.resource.bindId
  resolves : ∀ rootPath,
    Resolves binds rootPath scope.resource.uri scope.resource.serialno →
      Resolves binds rootPath row.url row.resourceId

theorem belongsTo_of_derives
    (segments : ∀ bind ∈ table.rows, Segments.IsSegment '/' bind.name)
    (derives : RecursiveUnion.Derives (expand table.rows conds)
      (queryOf scopes).seeds row) :
    ∃ scope ∈ scopes, BelongsTo table.rows scope row := by
  induction derives with
  | seed member =>
      rcases List.mem_map.mp member with ⟨scope, inScopes, rfl⟩
      exact ⟨scope, inScopes, rfl, fun _ resolves => resolves⟩
  | joined _ joined induction =>
      rcases induction with ⟨scope, inScopes, root, leads⟩
      rcases mem_expand.mp joined with ⟨bind, inTable, leaves, -, -, rfl⟩
      refine ⟨scope, inScopes, root, fun rootPath resolves => ?_⟩
      exact (leads rootPath resolves).joined (segments bind inTable) inTable
        leaves

/-! ## Which rows there are -/

/-- The row at the end of a chain. -/
def Scope.rowOf (scope : Scope) (chain : List Bind) : SearchRow :=
  chain.foldl SearchRow.next scope.seed

/-- The depth of the scope allows the chain. -/
def Scope.Allows (scope : Scope) (chain : List Bind) : Prop :=
  ∀ depth, scope.depth = some depth → (chain.length : Int) ≤ depth

/--
The chain comes through no bind twice and not through the bind of the scope,
before its last bind.
-/
def Scope.IsFresh (scope : Scope) (chain : List Bind) : Prop :=
  ((scope.resource.bindId : Id) :: chain.dropLast.map Bind.id).Nodup

theorem rowOf_append :
    scope.rowOf (chain ++ [bind]) = (scope.rowOf chain).next bind := by
  rw [Scope.rowOf, List.foldl_append]
  rfl

/-- What the row of a chain says. -/
structure IsRowOf (scope : Scope) (chain : List Bind) (finish : Id)
    (row : SearchRow) : Prop where
  rootBindId : row.rootBindId = scope.resource.bindId
  url : row.url =
    scope.resource.uri ++ Segments.slashed '/' (chain.map Bind.name)
  resourceId : row.resourceId = finish
  depth : row.depth = chain.length

theorem isRowOf_rowOf
    (trail : (bindGraph binds).Trail scope.resource.serialno chain finish) :
    IsRowOf scope chain finish (scope.rowOf chain) ∧
      (scope.rowOf chain).visitedBinds =
        (scope.resource.bindId : Id) :: chain.map Bind.id := by
  induction chain using List.reverseRecOn generalizing finish with
  | nil =>
      refine ⟨⟨rfl, ?_, trail, rfl⟩, rfl⟩
      exact (List.append_nil _).symm
  | append_singleton chain bind induction =>
      rcases Multigraph.trail_append.mp trail with ⟨middle, front, last⟩
      rcases last with ⟨-, leaves, ends⟩
      rcases induction front with ⟨before, visited⟩
      rw [rowOf_append]
      constructor
      · constructor
        case rootBindId => exact before.rootBindId
        case url =>
          show (scope.rowOf chain).url ++ '/' :: bind.name = _
          rw [before.url, List.map_append, Segments.slashed_append,
            List.append_assoc]
          simp [Segments.slashed]
        case resourceId => exact ends
        case depth =>
          show (scope.rowOf chain).depth + 1 = _
          rw [before.depth, List.length_append]
          simp
      · show (scope.rowOf chain).visitedBinds ++ [bind.id] = _
        rw [visited, List.map_append]
        rfl

/-- A row that comes through no bind twice has no cycle. -/
theorem cycle_rowOf
    (trail : (bindGraph binds).Trail scope.resource.serialno chain finish)
    (fresh : ((scope.resource.bindId : Id) :: chain.map Bind.id).Nodup) :
    (scope.rowOf chain).cycle = false := by
  cases chain using List.reverseRecOn with
  | nil => rfl
  | append_singleton chain bind =>
      rcases Multigraph.trail_append.mp trail with ⟨middle, front, -⟩
      rw [rowOf_append]
      apply decide_eq_false
      rw [(isRowOf_rowOf front).2]
      intro seen
      rw [List.map_append, ← List.cons_append] at fresh
      exact (List.nodup_append.mp fresh).2.2 bind.id seen bind.id
        List.mem_cons_self rfl

/-- A chain that is fresh and not too long has a row. -/
theorem derives_rowOf
    (member : scope ∈ scopes)
    (trail : (bindGraph binds).Trail scope.resource.serialno chain finish)
    (allowed : scope.Allows chain)
    (fresh : scope.IsFresh chain) :
    RecursiveUnion.Derives (expand binds (queryOf scopes).conds)
      (queryOf scopes).seeds (scope.rowOf chain) := by
  induction chain using List.reverseRecOn generalizing finish with
  | nil => exact .seed (List.mem_map_of_mem member)
  | append_singleton chain bind induction =>
      rcases Multigraph.trail_append.mp trail with ⟨middle, front, last⟩
      rcases last with ⟨present, leaves, -⟩
      have fresher : ((scope.resource.bindId : Id) ::
          chain.map Bind.id).Nodup := by
        rw [Scope.IsFresh, List.dropLast_concat] at fresh
        exact fresh
      have shorter : scope.Allows chain := by
        intro depth known
        have most := allowed depth known
        rw [List.length_append, List.length_singleton] at most
        omega
      have freshFront : scope.IsFresh chain :=
        fresher.sublist (((List.dropLast_sublist chain).map Bind.id).cons_cons _)
      have earlier := induction front shorter freshFront
      have before := (isRowOf_rowOf front).1
      rw [rowOf_append]
      refine .joined earlier (mem_expand.mpr ⟨bind, present, ?_, ?_, ?_, rfl⟩)
      · rw [before.resourceId]
        exact leaves
      · exact cycle_rowOf front fresher
      · refine ⟨scope.cond, List.mem_map_of_mem member, ?_⟩
        rw [SearchCond.holds, before.rootBindId, before.depth]
        cases known : scope.depth with
        | none => simp [Scope.cond, known]
        | some depth =>
            have most := allowed depth known
            rw [List.length_append, List.length_singleton] at most
            simp [Scope.cond, known]
            omega

/-! ## The recursion -/

/-- What the rows of the recursion are. -/
structure SearchesGraph (binds : List Bind) (scopes : List Scope)
    (rows : List SearchRow) : Prop where
  resolves : ∀ row ∈ rows, ∃ scope ∈ scopes, BelongsTo binds scope row
  complete : ∀ scope ∈ scopes, ∀ chain finish,
    (bindGraph binds).Trail scope.resource.serialno chain finish →
      scope.Allows chain → scope.IsFresh chain →
        ∃ row ∈ rows, IsRowOf scope chain finish row

/--
The fragments that `parse_from` builds spell a recursive query that ends; its
rows resolve as far as the URIs of the scopes do, and every chain of the
allowed length that is fresh has one.
-/
theorem parseFrom_searchesGraph
    (server : Server) (elems : List (ScopeElem CharData))
    (start ctx : SearchCtx) (table : BindTable)
    (seed : start.searchGraphSeed = none)
    (cond : start.searchGraphCond = none)
    (plain : start.isBitQuery = false)
    (parsed : parseFrom server elems start = .ok ctx)
    (unquoted : ∀ scope ∈ elems.filterMap (scopeOf server),
      '\'' ∉ scope.resource.uri)
    (segments : ∀ bind ∈ table.rows, Segments.IsSegment '/' bind.name) :
    Spells ctx (queryOf (elems.filterMap (scopeOf server))) ∧
      ∃ rounds rows,
        searchGraph table.rows (queryOf (elems.filterMap (scopeOf server)))
            rounds = some rows ∧
          SearchesGraph table.rows (elems.filterMap (scopeOf server))
            rows := by
  rcases parseFrom_eq_ok plain parsed with ⟨nonempty, rfl⟩
  refine ⟨spells_queryOf seed cond nonempty unquoted, ?_⟩
  rcases exists_searchGraph table.rows
    (queryOf (elems.filterMap (scopeOf server))) with ⟨rounds, rows, ended⟩
  refine ⟨rounds, rows, ended, ?_⟩
  constructor
  case resolves =>
    intro row member
    exact belongsTo_of_derives segments
      ((RecursiveUnion.mem_iff_derives ended).mp member)
  case complete =>
    intro scope member chain finish trail allowed fresh
    exact ⟨scope.rowOf chain,
      (RecursiveUnion.mem_iff_derives ended).mpr
        (derives_rowOf member trail allowed fresh),
      (isRowOf_rowOf trail).1⟩

/-- A collection with a bind to the collection above it. -/
def loopBinds : BindTable where
  rows :=
    [⟨1, "a".toList, 2, 10, none⟩, ⟨2, "b".toList, 10, 11, none⟩,
      ⟨3, "loop".toList, 11, 10, none⟩, ⟨4, "d".toList, 11, 12, none⟩]
  pkey := by decide
  collectionIdKey := by decide
  positive := by decide

/-- All that is asked for is that collection. -/
def loopServer : Server :=
  { smallServer with
    resourceFromUri := fun _ => ⟨2, "/a/b".toList, 11⟩ }

def loopElems : List (ScopeElem CharData) :=
  [⟨["/a/b".toList], some ["infinity".toList]⟩]

def loopScope : Scope where
  resource := ⟨2, "/a/b".toList, 11⟩
  depth := none

theorem scopes_loopElems :
    loopElems.filterMap (scopeOf loopServer) = [loopScope] := by
  rfl

theorem parseFrom_loopElems :
    parseFrom loopServer loopElems {} =
      .ok (addSearchGraph loopScope.resource loopScope.depth {}) := by
  rfl

theorem unquoted_loopElems :
    ∀ scope ∈ loopElems.filterMap (scopeOf loopServer),
      '\'' ∉ scope.resource.uri := by
  rw [scopes_loopElems]
  intro scope member
  rcases List.mem_singleton.mp member with rfl
  decide

theorem segments_loopBinds :
    ∀ bind ∈ loopBinds.rows, Segments.IsSegment '/' bind.name := by
  unfold Segments.IsSegment
  decide

theorem parseFrom_searchesGraph_loop :
    Spells (addSearchGraph loopScope.resource loopScope.depth {})
        (queryOf (loopElems.filterMap (scopeOf loopServer))) ∧
      ∃ rounds rows,
        searchGraph loopBinds.rows
            (queryOf (loopElems.filterMap (scopeOf loopServer)))
            rounds = some rows ∧
          SearchesGraph loopBinds.rows
            (loopElems.filterMap (scopeOf loopServer)) rows :=
  parseFrom_searchesGraph loopServer loopElems {} _ loopBinds rfl rfl rfl
    parseFrom_loopElems unquoted_loopElems segments_loopBinds

/--
Up from the scope, down through the bind of the scope and on: no bind is
repeated, and there is no row.
-/
theorem not_forall_chain_hasRow :
    ¬ ∀ (server : Server) (elems : List (ScopeElem CharData))
        (start ctx : SearchCtx) (table : BindTable),
      start.searchGraphSeed = none → start.searchGraphCond = none →
      start.isBitQuery = false →
      parseFrom server elems start = .ok ctx →
      (∀ bind ∈ table.rows, Segments.IsSegment '/' bind.name) →
      (∀ scope ∈ elems.filterMap (scopeOf server),
        Resolves table.rows [] scope.resource.uri scope.resource.serialno) →
      ∃ rounds rows,
        searchGraph table.rows (queryOf (elems.filterMap (scopeOf server)))
            rounds = some rows ∧
          ∀ scope ∈ elems.filterMap (scopeOf server), ∀ chain finish,
            (bindGraph table.rows).Trail scope.resource.serialno chain
                finish →
              scope.Allows chain → (chain.map Bind.id).Nodup →
                ∃ row ∈ rows, IsRowOf scope chain finish row := by
  intro complete
  have resolves : Resolves loopBinds.rows [] "/a/b".toList 11 := by
    refine ⟨"/a/b".toList, rfl, ?_⟩
    unfold Leads
    decide +kernel
  rcases complete loopServer loopElems {} _ loopBinds rfl rfl rfl
    parseFrom_loopElems segments_loopBinds (by
      rw [scopes_loopElems]
      intro scope member
      rcases List.mem_singleton.mp member with rfl
      exact resolves) with ⟨rounds, rows, ended, hasRow⟩
  rw [scopes_loopElems] at ended hasRow
  rcases hasRow loopScope List.mem_cons_self
    [⟨3, "loop".toList, 11, 10, none⟩, ⟨2, "b".toList, 10, 11, none⟩,
      ⟨4, "d".toList, 11, 12, none⟩] 12
    ⟨List.mem_of_getElem? (rfl : loopBinds.rows[2]? = _), rfl,
      List.mem_of_getElem? (rfl : loopBinds.rows[1]? = _), rfl,
      List.mem_of_getElem? (rfl : loopBinds.rows[3]? = _), rfl, rfl⟩
    (fun depth never => by cases never) (by decide) with
    ⟨row, member, isRow⟩
  have derives := (RecursiveUnion.mem_iff_derives ended).mp member
  have computed : ∃ all, searchGraph loopBinds.rows (queryOf [loopScope]) 5 =
      some all ∧ all.all (fun row =>
        decide (row.url ≠ "/a/b/loop/b/d".toList)) = true :=
    ⟨_, rfl, by decide +kernel⟩
  rcases computed with ⟨all, allEnded, none_⟩
  have listed := (RecursiveUnion.mem_iff_derives allEnded).mpr derives
  apply of_decide_eq_true (List.all_eq_true.mp none_ row listed)
  rw [isRow.url]
  decide

end Limestone.SearchGraph
