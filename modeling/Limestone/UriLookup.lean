import Limestone.DbmsLookup

/-!
# The one-query lookup and the walk

The walk resolves the tokens of a URI one bind at a time.  The rows of the
joined query are the binds of the walk followed by NULL columns, so that the
lookup agrees with the walk whenever its query is executed, and the prefix of
a URI that is resolved in part is right when the URI begins with a slash.
-/

namespace Limestone.UriLookup

open Library
open DbmsBind
open DbmsDbd
open DbmsLookup

/-! ## The walk -/

/-- The resources reached token by token with `dbms_get_bind_resource_id`. -/
def walk (binds : List Bind) : Id → List Text → List Id
  | _, [] => []
  | collId, name :: names =>
      let resId := dbmsGetBindResourceId binds collId name
      if resId = 0 then [] else resId :: walk binds resId names

/-- The id of the bind by which a walk takes its last step. -/
def walkBindId (binds : List Bind) : Id → List Text → Id
  | _, [] => 0
  | collId, [name] => dbmsGetBindId binds collId name
  | collId, name :: names =>
      walkBindId binds (dbmsGetBindResourceId binds collId name) names

/-- The lookup gives what the walk from the root collection gives. -/
structure AgreesWithWalk (binds : List Bind) (uri : Text)
    (result : LookupResult) : Prop where
  complete :
    (walk binds rootCollectionId (Segments.tokens '/' uri)).length =
        (Segments.tokens '/' uri).length →
      ∃ bind, result = .found bind ∧
        bind.resourceId =
          (walk binds rootCollectionId
            (Segments.tokens '/' uri)).getLast?.getD rootCollectionId ∧
        bind.bindId =
          walkBindId binds rootCollectionId (Segments.tokens '/' uri)
  inPart :
    0 < (walk binds rootCollectionId (Segments.tokens '/' uri)).length →
    (walk binds rootCollectionId (Segments.tokens '/' uri)).length <
        (Segments.tokens '/' uri).length →
      ∃ bind part, result = .found bind ∧ bind.resourceId = -1 ∧
        (walk binds rootCollectionId (Segments.tokens '/' uri)).getLast? =
          some bind.parentId ∧
        bind.uri = some part ∧
        Segments.SpellsFirst '/' (compactUri uri)
          (walk binds rootCollectionId (Segments.tokens '/' uri)).length part
  none :
    walk binds rootCollectionId (Segments.tokens '/' uri) = [] →
    Segments.tokens '/' uri ≠ [] →
      result = .noBind

/-- The lookup agrees with the walk or reports an error of the database. -/
def LookupAgrees (databaseFails : Bool) (binds : List Bind) (uri : Text)
    (result : LookupResult) : Prop :=
  (∀ err, result = .error err → databaseFails = true) ∧
    ((∀ err, result ≠ .error err) → AgreesWithWalk binds uri result)

/-! ## The text of the query -/

theorem notMem_number (value : Nat) : '?' ∉ number value := by
  have digits : number value = Nat.toDigits 10 value :=
    Nat.toList_repr
  intro found
  rw [digits] at found
  cases SqlText.isDigit_of_mem_toDigits found

/-- The strings of a query that is being built hold a question mark. -/
def HasPlaceholder (parts : QueryParts) : Prop :=
  '?' ∈ parts.select ∨ '?' ∈ parts.uriMaxUpdatedAt ∨
    '?' ∈ parts.fromClause ∨ '?' ∈ parts.whereClause

theorem hasPlaceholder_firstPart (next : Text) :
    HasPlaceholder (firstPart next) ↔ '?' ∈ next := by
  simp [HasPlaceholder, firstPart, mem_dbmsEscape]

theorem hasPlaceholder_addPart (parts : QueryParts) (next : Text) :
    HasPlaceholder (addPart parts next) ↔
      HasPlaceholder parts ∨ '?' ∈ next := by
  simp [HasPlaceholder, addPart, mem_dbmsEscape, notMem_number]
  tauto

theorem hasPlaceholder_foldl (parts : QueryParts) (names : List Text) :
    HasPlaceholder (names.foldl addPart parts) ↔
      HasPlaceholder parts ∨ ∃ name ∈ names, '?' ∈ name := by
  induction names generalizing parts with
  | nil => simp
  | cons name names induction =>
      rw [List.foldl_cons, induction, hasPlaceholder_addPart]
      simp [or_assoc]

theorem mem_queryText (parts : QueryParts) :
    '?' ∈ queryText parts ↔ HasPlaceholder parts := by
  simp [HasPlaceholder, queryText, notMem_number]

/-- The query is executed iff no token has a question mark. -/
theorem escquery_queryText (next : Text) (names : List Text) :
    escquery (dbmsPrepare
        (queryText (names.foldl addPart (firstPart next)))) =
      if ∃ name ∈ next :: names, '?' ∈ name then none
      else some (queryText (names.foldl addPart (firstPart next))) := by
  have placeholder :
      ('?' ∈ queryText (names.foldl addPart (firstPart next))) =
        ∃ name ∈ next :: names, '?' ∈ name := by
    rw [mem_queryText, hasPlaceholder_foldl, hasPlaceholder_firstPart]
    simp
  simp only [escquery_dbmsPrepare, placeholder]

/-! ## The rows of the query -/

/-- The bind of a name in a collection. -/
def bindNamed (binds : List Bind) (collId : Id) (name : Text) :
    Option Bind :=
  (binds.filter fun bind =>
    bind.collectionId == collId && bind.name == name).head?

/-- The binds of the walk. -/
def walkBinds (binds : List Bind) : Id → List Text → List Bind
  | _, [] => []
  | collId, name :: names =>
      match bindNamed binds collId name with
      | none => []
      | some bind => bind :: walkBinds binds bind.resourceId names

theorem bindNamed_eq_some
    {binds : List Bind} {collId : Id} {name : Text} {bind : Bind}
    (found : bindNamed binds collId name = some bind) :
    bind ∈ binds ∧ bind.collectionId = collId ∧ bind.name = name := by
  have member := List.mem_of_head? found
  rw [List.mem_filter, Bool.and_eq_true, beq_iff_eq, beq_iff_eq] at member
  exact member

theorem dbmsGetBindResourceId_eq
    (binds : List Bind) (collId : Id) (name : Text) :
    dbmsGetBindResourceId binds collId name =
      ((bindNamed binds collId name).map Bind.resourceId).getD 0 := by
  rw [dbmsGetBindResourceId, bindNamed]
  cases binds.filter fun bind =>
      bind.collectionId == collId && bind.name == name with
  | nil => rfl
  | cons bind rest => rfl

theorem dbmsGetBindId_eq
    (binds : List Bind) (collId : Id) (name : Text) :
    dbmsGetBindId binds collId name =
      ((bindNamed binds collId name).map Bind.id).getD 0 := by
  rw [dbmsGetBindId, bindNamed]
  cases binds.filter fun bind =>
      bind.collectionId == collId && bind.name == name with
  | nil => rfl
  | cons bind rest => rfl

/-- The unique key of the table: a join finds one bind at most. -/
theorem bindsNamed_eq
    (table : BindTable) (collId : Id) (name : Text) :
    bindsNamed table.rows collId (dbmsEscape name) =
      (bindNamed table.rows collId name).toList := by
  have pairs : (fun bind : Bind =>
      bind.collectionId == collId && bind.name == name) =
        fun bind => bind.key == (collId, name) := by
    funext bind
    exact Bool.eq_iff_iff.mpr (by simp [Bind.key])
  rw [bindsNamed, bindNamed, readLiteral_dbmsEscape, pairs]
  rcases Sql.filter_key table.collectionIdKey (collId, name) with
    none | ⟨bind, only⟩
  · rw [none]
    rfl
  · rw [only]
    rfl

theorem walk_eq
    (table : BindTable) (collId : Id) (names : List Text) :
    walk table.rows collId names =
      (walkBinds table.rows collId names).map Bind.resourceId := by
  induction names generalizing collId with
  | nil => rfl
  | cons name names induction =>
      rw [walk, walkBinds, dbmsGetBindResourceId_eq]
      cases found : bindNamed table.rows collId name with
      | none => rfl
      | some bind =>
          have positive :=
            (table.positive bind (bindNamed_eq_some found).1).2
          have nonzero : bind.resourceId ≠ 0 := Int.ne_of_gt positive
          simp only [Option.map_some, Option.getD_some, if_neg nonzero,
            List.map_cons, induction]

theorem length_walkBinds_le
    (binds : List Bind) (collId : Id) (names : List Text) :
    (walkBinds binds collId names).length ≤ names.length := by
  induction names generalizing collId with
  | nil => exact Nat.le_refl 0
  | cons name names induction =>
      rw [walkBinds]
      cases bindNamed binds collId name with
      | none => exact Nat.zero_le _
      | some bind => exact Nat.succ_le_succ (induction bind.resourceId)

theorem mem_of_mem_walkBinds
    {binds : List Bind} {collId : Id} {names : List Text} {bind : Bind}
    (member : bind ∈ walkBinds binds collId names) : bind ∈ binds := by
  induction names generalizing collId with
  | nil => cases member
  | cons name names induction =>
      rw [walkBinds] at member
      cases found : bindNamed binds collId name with
      | none =>
          rw [found] at member
          cases member
      | some first =>
          rw [found] at member
          rcases List.mem_cons.mp member with rfl | later
          · exact (bindNamed_eq_some found).1
          · exact induction later

theorem walkBindId_eq
    (binds : List Bind) (collId : Id) (names : List Text)
    (complete : (walkBinds binds collId names).length = names.length) :
    walkBindId binds collId names =
      ((walkBinds binds collId names).getLast?.map Bind.id).getD 0 := by
  induction names generalizing collId with
  | nil => rfl
  | cons name names induction =>
      rw [walkBinds] at complete ⊢
      cases found : bindNamed binds collId name with
      | none =>
          rw [found] at complete
          cases complete
      | some bind =>
          rw [found] at complete
          have rest : (walkBinds binds bind.resourceId names).length =
              names.length := Nat.succ.inj complete
          cases names with
          | nil =>
              rw [walkBindId, dbmsGetBindId_eq, found]
              rfl
          | cons next names =>
              rw [walkBindId, dbmsGetBindResourceId_eq, found]
              · rw [Option.map_some, Option.getD_some, induction _ rest]
                show _ = ((bind :: walkBinds binds bind.resourceId
                  (next :: names)).getLast?.map Bind.id).getD 0
                cases later : walkBinds binds bind.resourceId
                    (next :: names) with
                | nil =>
                    rw [later] at rest
                    cases rest
                | cons head tail => rfl
              · exact nofun

theorem joinedBinds_none (binds : List Bind) (literals : List Text) :
    joinedBinds binds none literals =
      [List.replicate literals.length none] := by
  induction literals with
  | nil => rfl
  | cons literal literals induction =>
      rw [joinedBinds, induction]
      rfl

/-- The joined query has one row: the binds of the walk, then NULL columns. -/
theorem joinedBinds_some
    (table : BindTable) (collId : Id) (names : List Text) :
    joinedBinds table.rows (some collId) (names.map dbmsEscape) =
      [(walkBinds table.rows collId names).map some ++
        List.replicate
          (names.length - (walkBinds table.rows collId names).length)
          none] := by
  induction names generalizing collId with
  | nil => rfl
  | cons name names induction =>
      rw [List.map_cons, joinedBinds, bindsNamed_eq, walkBinds]
      cases bindNamed table.rows collId name with
      | none =>
          simp only [Option.toList_none, joinedBinds_none, List.length_map]
          rfl
      | some bind =>
          simp only [Option.toList_some, List.flatMap_cons, List.flatMap_nil,
            induction, List.map_cons, List.map_nil, List.append_nil,
            List.length_cons, Nat.add_sub_add_right]
          rfl

/-- The row of a chain of binds in a query of `count` joins. -/
def chainRow (chain : List Bind) (count : Nat) : List (Option Bind) :=
  chain.map some ++ List.replicate (count - chain.length) none

theorem lookupRows_eq
    (table : BindTable) (next : Text) (names : List Text) :
    lookupRows table.rows (dbmsEscape next) (names.map dbmsEscape) =
      if walkBinds table.rows rootCollectionId (next :: names) = [] then []
      else
        [chainRow (walkBinds table.rows rootCollectionId (next :: names))
          (next :: names).length] := by
  rw [lookupRows, bindsNamed_eq, walkBinds]
  cases bindNamed table.rows rootCollectionId next with
  | none => rfl
  | some bind =>
      rw [if_neg nofun]
      simp only [Option.toList_some, List.flatMap_cons, List.flatMap_nil,
        joinedBinds_some, chainRow, List.map_cons, List.map_nil,
        List.append_nil, List.length_cons, Nat.add_sub_add_right]
      rfl

/-! ## Reading the row -/

/-- Counting slashes stops at the slash behind the resolved tokens. -/
theorem slashOffset_eq
    {limit count : Nat} (below : count < limit) (offset : Nat) (uri : Text) :
    slashOffset limit count offset uri =
      offset + (Segments.beforeSep '/' (limit - 1 - count) uri).length := by
  induction uri generalizing count offset with
  | nil =>
      rw [slashOffset, if_neg (Nat.ne_of_lt below), Segments.beforeSep]
      rfl
  | cons char uri induction =>
      rw [slashOffset, if_pos below]
      by_cases slash : char = '/'
      · rw [if_pos slash, slash]
        by_cases last : count + 1 = limit
        · have zero : limit - 1 - count = 0 := by omega
          rw [zero, Segments.beforeSep, if_pos rfl, last]
          cases uri with
          | nil => rw [slashOffset, if_pos rfl]; rfl
          | cons next uri =>
              rw [slashOffset, if_neg (Nat.lt_irrefl limit), if_pos rfl]
              rfl
        · have more : limit - 1 - count = limit - 1 - (count + 1) + 1 := by
            omega
          rw [induction (by omega), more, Segments.beforeSep, if_pos rfl,
            List.length_cons]
          omega
      · rw [if_neg slash, induction below,
          Segments.beforeSep_cons_ne slash, List.length_cons]
        omega

/-- The part of the URI that the lookup cuts off. -/
theorem take_slashOffset (count : Nat) (uri : Text) :
    uri.take (slashOffset (count + 1) 0 0 uri) =
      Segments.beforeSep '/' count uri := by
  rw [slashOffset_eq (Nat.succ_pos count), Nat.zero_add]
  exact (List.prefix_iff_eq_take.mp
    (Segments.beforeSep_prefix count uri)).symm

theorem length_takeWhile_isSome (chain : List Bind) (missing : Nat) :
    (((chain.map some ++ List.replicate missing none).map
        (Option.map Bind.resourceId)).takeWhile Option.isSome).length =
      chain.length := by
  induction chain with
  | nil =>
      cases missing with
      | zero => rfl
      | succ missing => rfl
  | cons bind chain induction =>
      simp only [List.map_cons, List.cons_append, Option.map_some,
        List.takeWhile_cons, Option.isSome_some, if_true, List.length_cons,
        induction]

/-- The column that is read last is the resource the walk ends at. -/
theorem column_eq
    {chain : List Bind} {last : Bind} (missing : Nat)
    (ends : chain.getLast? = some last) :
    ((chain.map some ++ List.replicate missing none).map
      (Option.map Bind.resourceId))[chain.length - 1]? =
        some (some last.resourceId) := by
  have nonempty : chain.length - 1 < chain.length := by
    cases chain with
    | nil => cases ends
    | cons head tail => exact Nat.lt_succ_self _
  rw [List.getLast?_eq_getElem?] at ends
  rw [List.getElem?_map, List.getElem?_append_left
    (by rwa [List.length_map]), List.getElem?_map, ends]
  rfl

/-- The bind that is made of a row whose URI resolves as a whole. -/
theorem readRow_complete
    (lastModified : Id → Option Text) (uri : Text)
    {chain : List Bind} {last : Bind}
    (ends : chain.getLast? = some last) :
    (readRow lastModified uri (chain.map some)).resourceId =
        last.resourceId ∧
      (readRow lastModified uri (chain.map some)).bindId = last.id := by
  have columns := length_takeWhile_isSome chain 0
  have column := column_eq 0 ends
  rw [List.replicate_zero, List.append_nil] at columns column
  constructor
  · simp only [readRow, columns, column, List.length_map, ne_eq,
      not_true_eq_false, if_false]
    rfl
  · simp only [readRow, List.getLast?_map, ends]
    rfl

theorem readRow_complete_uri
    (lastModified : Id → Option Text) (uri : Text) (chain : List Bind) :
    (readRow lastModified uri (chain.map some)).uri = none := by
  have columns := length_takeWhile_isSome chain 0
  rw [List.replicate_zero, List.append_nil] at columns
  simp only [readRow, columns, List.length_map, ne_eq, not_true_eq_false,
    if_false]

/-- The bind that is made of a row with NULL columns. -/
theorem readRow_inPart
    (lastModified : Id → Option Text) (uri : Text)
    {chain : List Bind} {last : Bind} {missing : Nat}
    (some_missing : missing ≠ 0)
    (ends : chain.getLast? = some last) :
    (readRow lastModified uri
        (chain.map some ++ List.replicate missing none)).resourceId = -1 ∧
      (readRow lastModified uri
        (chain.map some ++ List.replicate missing none)).parentId =
          last.resourceId ∧
      (readRow lastModified uri
        (chain.map some ++ List.replicate missing none)).uri =
          some (Segments.beforeSep '/' chain.length uri) := by
  have columns := length_takeWhile_isSome chain missing
  have column := column_eq missing ends
  have shorter : chain.length ≠
      (chain.map some ++ List.replicate missing none).length := by
    rw [List.length_append, List.length_map, List.length_replicate]
    omega
  refine ⟨?_, ?_, ?_⟩
  · simp only [readRow, columns, if_pos shorter]
  · simp only [readRow, columns, column, if_pos shorter]
    rfl
  · simp only [readRow, columns, if_pos shorter, take_slashOffset]

/-! ## The prefix -/

/-- The prefix is right when the URI begins with a slash. -/
theorem spellsFirst_of_slash
    {uri : Text} {count : Nat}
    (slash : uri.head? = some '/')
    (some : 0 < count)
    (short : count ≤ (Segments.tokens '/' uri).length) :
    Segments.SpellsFirst '/' (compactUri uri) count
      (Segments.beforeSep '/' count (compactUri uri)) := by
  cases uri with
  | nil => cases slash
  | cons head rest =>
      rcases Option.some.inj slash with rfl
      rw [Segments.tokens_sep_cons] at short
      have nonempty : Segments.tokens '/' rest ≠ [] := by
        intro empty
        rw [empty, List.length_nil] at short
        omega
      have segments : ∀ name ∈ Segments.tokens '/' rest,
          Segments.IsSegment '/' name :=
        fun _ => Segments.isSegment_of_mem_tokens
      rcases Segments.squeeze_sep nonempty with ⟨trail, isTrail, shape⟩
      rw [compactUri, shape, Segments.beforeSep_slashed segments isTrail short]
      exact Segments.spellsFirst_slashed segments isTrail some short

/-- Without a slash in front the prefix spells one token too many. -/
theorem not_spellsFirst_of_no_slash
    {uri : Text} {count : Nat}
    (noSlash : uri.head? ≠ some '/')
    (short : count < (Segments.tokens '/' uri).length) :
    ¬ Segments.SpellsFirst '/' (compactUri uri) count
      (Segments.beforeSep '/' count (compactUri uri)) := by
  cases uri with
  | nil => cases short
  | cons head rest =>
      have other : head ≠ '/' := fun same => noSlash (congrArg some same)
      have segments : ∀ name ∈ Segments.tokens '/' (head :: rest),
          Segments.IsSegment '/' name :=
        fun _ => Segments.isSegment_of_mem_tokens
      rcases Segments.squeeze_other other with
        ⟨-, trail, isTrail, shape⟩
      intro spells
      have length := congrArg List.length spells.spells
      rw [compactUri, Segments.tokens_squeeze, shape] at length
      cases found : Segments.tokens '/' (head :: rest) with
      | nil =>
          rw [found] at short
          cases short
      | cons name names =>
          rw [found] at length segments short
          have within : count ≤ names.length := Nat.le_of_lt_succ short
          have cut : Segments.beforeSep '/' count
              (Segments.joined '/' (name :: names) ++ trail) =
                Segments.joined '/' (name :: names.take count) :=
            Segments.beforeSep_joined segments isTrail short
          have partSegments : ∀ other ∈ name :: names.take count,
              Segments.IsSegment '/' other := by
            intro other member
            apply segments
            rcases List.mem_cons.mp member with rfl | later
            · exact List.mem_cons_self
            · exact List.mem_cons_of_mem _ (List.mem_of_mem_take later)
          have partTokens := Segments.tokens_joined partSegments nofun
            (Or.inl rfl : Segments.IsTrail '/' [])
          rw [List.append_nil] at partTokens
          rw [cut, partTokens, List.length_cons, List.length_take,
            List.length_take, List.length_cons] at length
          omega

/-! ## The lookup -/

/-- The cases of the lookup, the walk being known. -/
theorem dbmsLookupUri_eq
    (table : BindTable) (databaseFails : Bool)
    (lastModified : Id → Option Text) {uri : Text}
    (some : Segments.tokens '/' uri ≠ []) :
    dbmsLookupUri databaseFails table.rows lastModified uri =
      if '?' ∈ uri then .undefined
      else if databaseFails then
        .error ⟨httpInternalServerError, "dbms_execute error"⟩
      else if walkBinds table.rows rootCollectionId
          (Segments.tokens '/' uri) = [] then .noBind
      else
        .found (readRow lastModified (compactUri uri)
          (chainRow
            (walkBinds table.rows rootCollectionId (Segments.tokens '/' uri))
            (Segments.tokens '/' uri).length)) := by
  have placeholder :
      (∃ name ∈ Segments.tokens '/' uri, '?' ∈ name) = ('?' ∈ uri) := by
    rw [← Segments.mem_tokens_iff (by decide)]
  cases tokens : Segments.tokens '/' uri with
  | nil => exact (some tokens).elim
  | cons next names =>
      rw [tokens] at placeholder
      simp only [dbmsLookupUri, compactUri, Segments.tokens_squeeze, tokens,
        escquery_queryText, placeholder, lookupRows_eq]
      by_cases question : '?' ∈ uri
      · simp only [question, if_true]
      · simp only [question, if_false]
        cases databaseFails with
        | true => rfl
        | false =>
            by_cases unresolved : walkBinds table.rows rootCollectionId
                (next :: names) = []
            · simp only [unresolved, if_true]
            · simp only [unresolved, if_false]

/-- Some but not all tokens resolve. -/
def ResolvesInPart (binds : List Bind) (uri : Text) : Prop :=
  0 < (walk binds rootCollectionId (Segments.tokens '/' uri)).length ∧
    (walk binds rootCollectionId (Segments.tokens '/' uri)).length <
      (Segments.tokens '/' uri).length

section Agreement

variable {table : BindTable} {uri : Text} {bind : DbmsBindList}

/-- The walk of a URI without tokens stays at the root collection. -/
theorem agrees_of_no_tokens
    (tokens : Segments.tokens '/' uri = [])
    (resourceId : bind.resourceId = rootCollectionId)
    (bindId : bind.bindId = 0) :
    AgreesWithWalk table.rows uri (.found bind) where
  complete := by
    intro _
    rw [tokens]
    exact ⟨bind, rfl, resourceId, bindId⟩
  inPart := by
    intro positive
    rw [tokens] at positive
    cases positive
  none := fun _ some => (some tokens).elim

/-- No bind is returned when the first token does not resolve. -/
theorem agrees_of_unresolved
    (some : Segments.tokens '/' uri ≠ [])
    (unresolved : walkBinds table.rows rootCollectionId
      (Segments.tokens '/' uri) = []) :
    AgreesWithWalk table.rows uri .noBind := by
  have reached := walk_eq table rootCollectionId (Segments.tokens '/' uri)
  rw [unresolved, List.map_nil] at reached
  constructor
  · intro complete
    rw [reached, List.length_nil] at complete
    exact (some (List.length_eq_zero_iff.mp complete.symm)).elim
  · intro positive
    rw [reached] at positive
    cases positive
  · exact fun _ _ => rfl

/-- A row without NULL columns. -/
theorem agrees_of_complete
    (lastModified : Id → Option Text) {last : Bind}
    (ends : (walkBinds table.rows rootCollectionId
      (Segments.tokens '/' uri)).getLast? = some last)
    (complete : (walkBinds table.rows rootCollectionId
      (Segments.tokens '/' uri)).length = (Segments.tokens '/' uri).length) :
    AgreesWithWalk table.rows uri
      (.found (readRow lastModified (compactUri uri)
        (chainRow
          (walkBinds table.rows rootCollectionId (Segments.tokens '/' uri))
          (Segments.tokens '/' uri).length))) := by
  have reached := walk_eq table rootCollectionId (Segments.tokens '/' uri)
  have read := readRow_complete lastModified (compactUri uri) ends
  have row : chainRow (walkBinds table.rows rootCollectionId
      (Segments.tokens '/' uri)) (Segments.tokens '/' uri).length =
        (walkBinds table.rows rootCollectionId
          (Segments.tokens '/' uri)).map some := by
    rw [chainRow, complete, Nat.sub_self, List.replicate_zero,
      List.append_nil]
  rw [row]
  constructor
  · intro _
    refine ⟨_, rfl, ?_, ?_⟩
    · rw [read.1, reached, List.getLast?_map, ends]
      rfl
    · rw [read.2, walkBindId_eq _ _ _ complete, ends]
      rfl
  · intro _ short
    rw [reached, List.length_map, complete] at short
    exact (Nat.lt_irrefl _ short).elim
  · intro empty
    rw [reached, List.map_eq_nil_iff] at empty
    rw [empty] at ends
    cases ends

/-- A row with NULL columns: only the prefix may be wrong. -/
theorem agrees_iff_of_inPart
    (lastModified : Id → Option Text) {last : Bind}
    (ends : (walkBinds table.rows rootCollectionId
      (Segments.tokens '/' uri)).getLast? = some last)
    (short : (walkBinds table.rows rootCollectionId
      (Segments.tokens '/' uri)).length < (Segments.tokens '/' uri).length) :
    AgreesWithWalk table.rows uri
        (.found (readRow lastModified (compactUri uri)
          (chainRow
            (walkBinds table.rows rootCollectionId (Segments.tokens '/' uri))
            (Segments.tokens '/' uri).length))) ↔
      uri.head? = some '/' := by
  have reached := walk_eq table rootCollectionId (Segments.tokens '/' uri)
  have missing : (Segments.tokens '/' uri).length -
      (walkBinds table.rows rootCollectionId
        (Segments.tokens '/' uri)).length ≠ 0 := by omega
  have read := readRow_inPart lastModified (compactUri uri) missing ends
  have length : (walk table.rows rootCollectionId
      (Segments.tokens '/' uri)).length =
        (walkBinds table.rows rootCollectionId
          (Segments.tokens '/' uri)).length := by
    rw [reached, List.length_map]
  have positive : 0 < (walk table.rows rootCollectionId
      (Segments.tokens '/' uri)).length := by
    rw [length, List.length_pos_iff]
    intro empty
    rw [empty] at ends
    cases ends
  constructor
  · intro agrees
    by_contra noSlash
    rcases agrees.inPart positive (length ▸ short) with
      ⟨_, part, found, -, -, uriPart, spells⟩
    rcases LookupResult.found.inj found with rfl
    have cut := Option.some.inj (uriPart.symm.trans read.2.2)
    rw [cut, length] at spells
    exact not_spellsFirst_of_no_slash noSlash short spells
  · intro slash
    constructor
    · intro complete
      rw [length] at complete
      exact (Nat.ne_of_lt short complete).elim
    · intro _ _
      refine ⟨_, _, rfl, read.1, ?_, read.2.2, ?_⟩
      · rw [reached, List.getLast?_map, ends]
        exact congrArg some read.2.1.symm
      · rw [length]
        exact spellsFirst_of_slash slash (length ▸ positive)
          (Nat.le_of_lt short)
    · intro empty
      rw [empty] at positive
      cases positive

end Agreement

/--
The lookup agrees with the walk iff the URI has no question mark and, when it
resolves in part, begins with a slash.
-/
theorem lookupAgrees_iff
    (table : BindTable) (databaseFails : Bool)
    (lastModified : Id → Option Text) (uri : Text) :
    LookupAgrees databaseFails table.rows uri
        (dbmsLookupUri databaseFails table.rows lastModified uri) ↔
      '?' ∉ uri ∧
        (uri.head? = some '/' ∨ databaseFails = true ∨
          ¬ ResolvesInPart table.rows uri) := by
  by_cases some : Segments.tokens '/' uri = []
  · have other : '?' ≠ '/' := by decide
    have noQuestion : '?' ∉ uri := by
      rw [Segments.mem_tokens_iff other, some]
      simp
    have whole : ¬ ResolvesInPart table.rows uri := by
      rintro ⟨-, short⟩
      rw [some] at short
      cases short
    have root : dbmsLookupUri databaseFails table.rows lastModified uri =
        .found { resourceId := rootCollectionId
                 updatedAt := rootUpdatedAt } := by
      simp only [dbmsLookupUri, compactUri, Segments.tokens_squeeze, some]
    rw [root]
    refine iff_of_true ⟨nofun, fun _ => ?_⟩
      ⟨noQuestion, Or.inr (Or.inr whole)⟩
    exact agrees_of_no_tokens some rfl rfl
  rw [dbmsLookupUri_eq table databaseFails lastModified some]
  by_cases question : '?' ∈ uri
  · rw [if_pos question]
    refine iff_of_false ?_ fun fine => fine.1 question
    rintro ⟨-, agrees⟩
    have agreement := agrees nofun
    -- whatever the walk does, the lookup has nothing to show
    by_cases unresolved : walk table.rows rootCollectionId
        (Segments.tokens '/' uri) = []
    · cases agreement.none unresolved some
    · have positive := List.length_pos_iff.mpr unresolved
      by_cases complete : (walk table.rows rootCollectionId
          (Segments.tokens '/' uri)).length =
            (Segments.tokens '/' uri).length
      · rcases agreement.complete complete with ⟨_, found, -⟩
        cases found
      · have bound := length_walkBinds_le table.rows rootCollectionId
          (Segments.tokens '/' uri)
        rw [walk_eq, List.length_map] at complete
        rw [walk_eq] at positive
        have short := Nat.lt_of_le_of_ne bound complete
        rcases agreement.inPart (walk_eq table _ _ ▸ positive) (by
          rw [walk_eq, List.length_map]
          exact short) with ⟨_, _, found, -⟩
        cases found
  rw [if_neg question]
  cases databaseFails with
  | true =>
      rw [if_pos rfl]
      refine iff_of_true ⟨fun _ _ => rfl, fun noError => ?_⟩
        ⟨question, Or.inr (Or.inl rfl)⟩
      exact (noError _ rfl).elim
  | false =>
      rw [if_neg Bool.false_ne_true]
      have inPart : ResolvesInPart table.rows uri ↔
          0 < (walkBinds table.rows rootCollectionId
              (Segments.tokens '/' uri)).length ∧
            (walkBinds table.rows rootCollectionId
              (Segments.tokens '/' uri)).length <
                (Segments.tokens '/' uri).length := by
        rw [ResolvesInPart, walk_eq, List.length_map]
      cases ends : (walkBinds table.rows rootCollectionId
          (Segments.tokens '/' uri)).getLast? with
      | none =>
          have unresolved := List.getLast?_eq_none_iff.mp ends
          rw [if_pos unresolved]
          refine iff_of_true
            ⟨nofun, fun _ => agrees_of_unresolved some unresolved⟩
            ⟨question, Or.inr (Or.inr ?_)⟩
          rw [inPart, unresolved]
          rintro ⟨positive, -⟩
          cases positive
      | some last =>
          have resolved : walkBinds table.rows rootCollectionId
              (Segments.tokens '/' uri) ≠ [] := by
            intro empty
            rw [empty] at ends
            cases ends
          rw [if_neg resolved]
          by_cases complete : (walkBinds table.rows rootCollectionId
              (Segments.tokens '/' uri)).length =
                (Segments.tokens '/' uri).length
          · refine iff_of_true
              ⟨nofun, fun _ => agrees_of_complete lastModified ends complete⟩
              ⟨question, Or.inr (Or.inr ?_)⟩
            rw [inPart, complete]
            exact fun both => Nat.lt_irrefl _ both.2
          · have short := Nat.lt_of_le_of_ne
              (length_walkBinds_le table.rows rootCollectionId
                (Segments.tokens '/' uri)) complete
            have inPartHolds : ResolvesInPart table.rows uri :=
              inPart.mpr ⟨List.length_pos_iff.mpr resolved, short⟩
            have prefixRight :=
              agrees_iff_of_inPart lastModified ends short
            constructor
            · rintro ⟨-, agrees⟩
              exact ⟨question, Or.inl (prefixRight.mp (agrees nofun))⟩
            · rintro ⟨-, slash | failed | whole⟩
              · exact ⟨nofun, fun _ => prefixRight.mpr slash⟩
              · cases failed
              · exact (whole inPartHolds).elim

/-- Two names in the root collection. -/
def twoNames : BindTable where
  rows := [⟨1, "a?".toList, 2, 3, none⟩, ⟨2, "a".toList, 2, 4, none⟩]
  pkey := by decide
  collectionIdKey := by decide
  positive := by decide

/--
The name `a?` is looked up without results, and a relative URI that resolves
in part gives one token too many.
-/
theorem lookup_not_agrees :
    ¬ LookupAgrees false twoNames.rows "/a?".toList
        (dbmsLookupUri false twoNames.rows (fun _ => none) "/a?".toList) ∧
      ¬ LookupAgrees false twoNames.rows "a/b".toList
        (dbmsLookupUri false twoNames.rows (fun _ => none) "a/b".toList) := by
  constructor
  · have unexecuted : dbmsLookupUri false twoNames.rows (fun _ => none)
        "/a?".toList = .undefined := by
      rw [dbmsLookupUri_eq twoNames false _ (by decide), if_pos (by decide)]
    rw [unexecuted]
    rintro ⟨-, agrees⟩
    rcases (agrees nofun).complete (by decide) with ⟨_, found, -⟩
    cases found
  · have cut : dbmsLookupUri false twoNames.rows (fun _ => none)
        "a/b".toList = .found { resourceId := -1
                                parentId := 4
                                uri := some "a/b".toList } := by
      rw [dbmsLookupUri_eq twoNames false _ (by decide), if_neg (by decide)]
      rfl
    rw [cut]
    rintro ⟨-, agrees⟩
    rcases (agrees nofun).inPart (by decide) (by decide) with
      ⟨_, part, found, -, -, uriPart, spells⟩
    rcases LookupResult.found.inj found with rfl
    rcases Option.some.inj uriPart with rfl
    have tokens := spells.spells
    revert tokens
    decide

end Limestone.UriLookup
