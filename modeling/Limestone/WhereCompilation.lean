import Limestone.WhereTokens

/-!
# What a where clause is compiled to

The text that is generated for a where clause is read as the condition that
the clause asks for, and all columns are there, under conditions on the request
that are stated here.
-/

namespace Limestone.Search

open Library SqlScan SqlCondition

/-! ## The condition on the request -/

/-- Some property is held by the column, and its item is there. -/
def IsProvided (namespaces : NamespaceTable) (items : List FromItem)
    (column : Column) : Prop :=
  ∃ prop item, propColumn namespaces prop = some (column, item) ∧ item ∈ items

/--
The text is read as the condition that the element asks for, which has its
truth value on every row, and the columns of the condition are provided.
-/
def IsCompiled (namespaces : NamespaceTable) (backslash : Bool)
    (text : Text) (items : List FromItem) (elem : WhereElem CharData) : Prop :=
  ∃ tokens condition,
    tokenize backslash text = some tokens ∧ ParsesTo tokens condition ∧
      connective namespaces elem = some condition ∧
      (∀ row, condition.eval row = whereTruth namespaces row elem) ∧
      ∀ column ∈ condition.columns, IsProvided namespaces items column
/-- `not` has one operand, and a literal comes in one piece. -/
def IsReadWhole : WhereElem CharData → Prop
  | .comp _ _ literal => literal.cdata.headD [] = literal.cdata.flatten
  | .not operands => operands.length = 1
  | _ => True

/-- The condition on the request. -/
structure IsCompilable (request : SearchRequest CharData)
    (elem : WhereElem CharData) : Prop where
  whole : ∀ node ∈ elem.nodes, IsReadWhole node
  /-- Only properties that are known are asked for with `is-defined`. -/
  known : ∀ prop ∈ definedProps elem.nodes, prop.isDav = true →
    prop.name.text ∈ getLivepropMap.map Prod.fst
  /-- Dead properties are listed, with names that are read back. -/
  dead : ∀ prop ∈ mentionedProps elem.nodes, prop.isDav = false →
    '_' ∉ prop.name.text ∧ ∃ set ∈ request.listed elem, set.SameAs prop
variable {namespaces : NamespaceTable} {order : HashOrder} {server : Server}
  {ctx : SearchCtx} {prop : PropElem} {backslash : Bool}
  {request : SearchRequest CharData} {elem : WhereElem CharData}
/-! ## The condition that is asked for and the one that is read -/

mutual

/-- They are the same if nothing is left unread. -/
theorem readCondition_of_connective :
    ∀ (elem : WhereElem CharData) (condition : Condition),
      connective namespaces elem = some condition →
        ∃ found, readCondition namespaces elem = some found ∧
          (condition = found ↔ ∀ node ∈ elem.nodes, IsReadWhole node)
  | .comp op (.prop prop) literal, condition, asked => by
      rw [connective, Option.map_eq_some_iff] at asked
      rcases asked with ⟨column, found, rfl⟩
      refine ⟨_, by rw [readCondition, found]; rfl, ?_⟩
      simp [WhereElem.nodes, IsReadWhole, eq_comm]
  | .log op (first :: operands), condition, asked => by
      simp only [connective, Option.bind_eq_bind, Option.bind_eq_some_iff]
        at asked
      rcases asked with ⟨firstCondition, firstAsked, others, othersAsked, same⟩
      rcases Option.some.inj same with rfl
      rcases readCondition_of_connective first firstCondition firstAsked with
        ⟨firstFound, firstRead, firstSame⟩
      rcases readConditions_of_connectives operands others othersAsked with
        ⟨othersFound, othersRead, length, othersSame⟩
      refine ⟨joinAll op.junction firstFound othersFound, ?_, ?_⟩
      · simp [readCondition, firstRead, othersRead]
      · rw [joinAll_inj length, firstSame, othersSame, forall_nodes_log]
        simp [IsReadWhole]
  | .not [operand], condition, asked => by
      rw [connective, Option.map_eq_some_iff] at asked
      rcases asked with ⟨inner, innerAsked, rfl⟩
      rcases readCondition_of_connective operand inner innerAsked with
        ⟨found, read, same⟩
      refine ⟨.not found, ?_, ?_⟩
      · simp [readCondition, read]
      · rw [Condition.not.injEq, same, forall_nodes_not]
        simp [IsReadWhole]
  | .isCollection, condition, asked => by
      refine ⟨condition, asked, ?_⟩
      simp [WhereElem.nodes, IsReadWhole]
  | .isDefined prop, condition, asked => by
      refine ⟨condition, asked, ?_⟩
      simp [WhereElem.nodes, IsReadWhole]

theorem readConditions_of_connectives :
    ∀ (operands : List (WhereElem CharData)) (conditions : List Condition),
      connectives namespaces operands = some conditions →
        ∃ found, readConditions namespaces operands = some found ∧
          conditions.length = found.length ∧
          (conditions = found ↔
            ∀ node ∈ operandNodes operands, IsReadWhole node)
  | [], conditions, asked => by
      rcases Option.some.inj asked with rfl
      refine ⟨[], rfl, rfl, ?_⟩
      simp [operandNodes]
  | operand :: operands, conditions, asked => by
      simp only [connectives, Option.bind_eq_bind, Option.bind_eq_some_iff]
        at asked
      rcases asked with ⟨condition, firstAsked, others, othersAsked, same⟩
      rcases Option.some.inj same with rfl
      rcases readCondition_of_connective operand condition firstAsked with
        ⟨firstFound, firstRead, firstSame⟩
      rcases readConditions_of_connectives operands others othersAsked with
        ⟨othersFound, othersRead, length, othersSame⟩
      refine ⟨firstFound :: othersFound, ?_, congrArg (· + 1) length, ?_⟩
      · simp [readConditions, firstRead, othersRead]
      · rw [List.cons.injEq, firstSame, othersSame, forall_operandNodes]

end

/-- A property that is asked for with `is-defined` has a column. -/
def IsKnown (namespaces : NamespaceTable) : WhereElem CharData → Prop
  | .isDefined prop => propColumn namespaces prop ≠ none
  | _ => True

mutual

/-- An element asks for a condition if `not` has one operand everywhere. -/
theorem exists_connective :
    ∀ elem : WhereElem CharData,
      (∀ node ∈ elem.nodes, IsRead namespaces node) →
        (∀ node ∈ elem.nodes, IsReadWhole node ∧ IsKnown namespaces node) →
          ∃ condition, connective namespaces elem = some condition
  | .comp op (.prop prop) literal, read, _ => by
      rcases isRead_comp (read _ (WhereElem.mem_nodes _)) with
        ⟨-, column, item, -, found, -⟩
      exact ⟨_, by rw [connective, found]; rfl⟩
  | .comp _ (.bitmark _) _, read, _ => (read _ (WhereElem.mem_nodes _)).2.elim
  | .log op [], read, _ => ((read _ (WhereElem.mem_nodes _)).1 rfl).elim
  | .log op (first :: operands), read, whole => by
      rcases forall_nodes_log.mp read with ⟨-, firstRead, othersRead⟩
      rcases forall_nodes_log.mp whole with ⟨-, firstWhole, othersWhole⟩
      rcases exists_connective first firstRead firstWhole with
        ⟨condition, asked⟩
      rcases exists_connectives operands othersRead othersWhole with
        ⟨conditions, othersAsked⟩
      exact ⟨joinAll op.junction condition conditions, by
        simp [connective, asked, othersAsked]⟩
  | .not [], read, _ => ((read _ (WhereElem.mem_nodes _)).1 rfl).elim
  | .not [operand], read, whole => by
      rcases exists_connective operand (forall_nodes_not.mp read).2
        (forall_nodes_not.mp whole).2 with ⟨condition, asked⟩
      exact ⟨.not condition, by simp [connective, asked]⟩
  | .not (_ :: _ :: _), _, whole => by
      have one := (whole _ (WhereElem.mem_nodes _)).1
      simp [IsReadWhole] at one
  | .isCollection, _, _ => ⟨_, rfl⟩
  | .isBit, read, _ => (read _ (WhereElem.mem_nodes _)).2.elim
  | .isDefined prop, _, whole => by
      rcases Option.ne_none_iff_exists'.mp
        (whole _ (WhereElem.mem_nodes _)).2 with ⟨column, found⟩
      exact ⟨_, by rw [connective, found]; rfl⟩
  | .other _, read, _ => (read _ (WhereElem.mem_nodes _)).1.elim

theorem exists_connectives :
    ∀ operands : List (WhereElem CharData),
      (∀ node ∈ operandNodes operands, IsRead namespaces node) →
        (∀ node ∈ operandNodes operands,
          IsReadWhole node ∧ IsKnown namespaces node) →
          ∃ conditions, connectives namespaces operands = some conditions
  | [], _, _ => ⟨[], rfl⟩
  | operand :: operands, read, whole => by
      rcases forall_operandNodes.mp read with ⟨firstRead, othersRead⟩
      rcases forall_operandNodes.mp whole with ⟨firstWhole, othersWhole⟩
      rcases exists_connective operand firstRead firstWhole with
        ⟨condition, asked⟩
      rcases exists_connectives operands othersRead othersWhole with
        ⟨conditions, othersAsked⟩
      exact ⟨condition :: conditions, by
        simp [connectives, asked, othersAsked]⟩

end
/-! ## When a where clause is compiled to what it asks for -/

/-- The tokens of the condition that `parse_query` leaves. -/
theorem tokenize_whereCond
    (read : ∀ node ∈ elem.nodes, IsRead namespaces node) :
    tokenize backslash (" ".toList ++ whereText namespaces elem) =
      some (whereTokens namespaces elem) := by
  have blank : Scans backslash " ".toList [] := rfl
  exact (blank.append (scans_whereText elem read)).tokenize_eq

theorem propColumn_dead (dead : prop.isDav = false) :
    propColumn namespaces prop =
      some (.quoted (propKey namespaces prop),
        .deadProperty (propKey namespaces prop)
          ⟨some prop.name.text, namespaces.id prop.ns⟩) := by
  rw [propColumn, dead]
  rfl

theorem liveColumns_not_quoted
    {name key : Text} {item : FromItem} :
    liveColumns.lookup name ≠ some (.quoted key, item) := by
  intro found
  rcases List.lookup_eq_some_iff.mp found with ⟨before, rest, split, -⟩
  have member : (name, Column.quoted key, item) ∈ liveColumns := by
    rw [split]
    exact List.mem_append_right before (List.mem_cons_self ..)
  simp [liveColumns] at member

/-- The column of a dead property comes from one item only. -/
theorem item_of_dead
    {other : PropElem} {item : FromItem}
    (found : propColumn namespaces other =
      some (.quoted (propKey namespaces prop), item)) :
    item = .deadProperty (propKey namespaces prop)
      ⟨some prop.name.text, namespaces.id prop.ns⟩ := by
  by_cases dav : other.isDav = true
  · rw [propColumn, if_pos dav] at found
    exact (liveColumns_not_quoted found).elim
  · rw [propColumn_dead (Bool.eq_false_iff.mpr dav)] at found
    rcases Prod.mk.inj (Option.some.inj found) with ⟨column, rfl⟩
    have keys := Column.quoted.inj column
    rcases propKey_eq_iff.mp keys with ⟨name, ns⟩
    rw [keys, name, ns]

/-- The items of the properties that a request mentions are there. -/
theorem item_mem_fromItems
    {column : Column} {item : FromItem}
    (parsed : parseQuery server order request = .ok ctx)
    (present : request.whereElem = some elem)
    (compilable : IsCompilable request elem)
    (mentioned : prop ∈ mentionedProps elem.nodes)
    (found : propColumn server.namespaces prop = some (column, item)) :
    item ∈ fromItems order server.namespaces ctx := by
  cases dav : prop.isDav with
  | true =>
      have known : propAttr server.namespaces prop ≠ none := by
        rw [Ne, ← propColumn_eq_none_iff, found]
        nofun
      rcases Option.ne_none_iff_exists'.mp known with ⟨attr, isAttr⟩
      rcases propColumn_eq_some isAttr with ⟨_, _, same, -, live⟩
      rw [found] at same
      rcases Option.some.inj same with ⟨⟩
      rcases live dav with rfl | ⟨rfl, needed⟩
      · exact resources_mem_fromItems
      · exact media_mem_fromItems
          (media_parseQuery parsed present mentioned needed)
  | false =>
      rcases compilable.dead prop mentioned dav with ⟨free, listed⟩
      rw [propColumn_dead dav] at found
      rcases Option.some.inj found with ⟨⟩
      exact (deadProperty_mem_fromItems dav).mpr
        ⟨free, (mem_keys_parseQuery parsed present dav).mpr listed⟩

/-- The type of a resource is a live property. -/
theorem type_isProvided :
    IsProvided namespaces (fromItems order namespaces ctx)
      (.plain "type".toList) := by
  have nonempty : "resourcetype".toList ≠ [] := by simp
  have plain : ∀ char ∈ "resourcetype".toList,
      char ≠ '\'' ∧ char ≠ '"' ∧ char ≠ '\\' := by simp
  exact ⟨⟨⟨"resourcetype".toList, nonempty, plain⟩, "DAV:".toList, false⟩,
    .resources, rfl, resources_mem_fromItems⟩

/-- What a condition that is read as it should be says about the request. -/
theorem IsCompiled.isCompilable
    {text : Text}
    (compiled : IsCompiled server.namespaces backslash text
      (fromItems order server.namespaces ctx) elem)
    (parsed : parseQuery server order request = .ok ctx)
    (present : request.whereElem = some elem)
    (plain : ∀ node ∈ elem.nodes, IsPlain node)
    (isText : ctx.whereCond = some text) :
    IsCompilable request elem := by
  rcases compiled with
    ⟨found, condition, tokenized, parses, asked, -, provided⟩
  have cond := whereCond_parseQuery parsed present
  rcases Option.some.inj (isText.symm.trans cond) with rfl
  have tokens : tokenize backslash _ = some (whereTokens server.namespaces elem)
    := tokenize_whereCond fun node member =>
      ⟨accepted_parseQuery parsed present node member, plain node member⟩
  rcases Option.some.inj (tokenized.symm.trans tokens) with rfl
  rcases readCondition_of_connective elem condition asked with
    ⟨other, otherRead, same⟩
  rcases columns_of_connective elem condition asked with ⟨-, columns⟩
  refine ⟨?_, ?_, ?_⟩
  · apply same.mp
    exact parses.unique (encloses_whereTokens elem other otherRead).parsesTo
  · intro prop defined dav
    rcases columns prop (mem_mentionedProps_of_defined defined) with
      ⟨column, item, isColumn, -⟩
    apply Classical.byContradiction
    intro unlisted
    rw [propColumn_eq_none_iff.mpr
      (propAttr_eq_none_iff.mpr ⟨dav, unlisted⟩)] at isColumn
    cases isColumn
  · intro prop mentioned dead
    rcases columns prop mentioned with ⟨column, item, isColumn, inside⟩
    rw [propColumn_dead dead] at isColumn
    rcases Option.some.inj isColumn with ⟨⟩
    -- the item that holds the column is the one of the property
    rcases provided _ inside with ⟨holder, item, holds, member⟩
    rw [item_of_dead holds, deadProperty_mem_fromItems dead] at member
    exact ⟨member.1, (mem_keys_parseQuery parsed present dead).mp member.2⟩

theorem IsCompilable.isKnown (compilable : IsCompilable request elem) :
    ∀ node ∈ elem.nodes, IsKnown namespaces node := by
  intro node member
  cases node with
  | isDefined prop =>
      have defined : prop ∈ definedProps elem.nodes :=
        List.mem_filterMap.mpr ⟨_, member, rfl⟩
      show propColumn namespaces prop ≠ none
      rw [Ne, propColumn_eq_none_iff, propAttr_eq_none_iff]
      rintro ⟨dav, unlisted⟩
      exact unlisted (compilable.known prop defined dav)
  | comp op subject literal => trivial
  | log op operands => trivial
  | not operands => trivial
  | isCollection => trivial
  | isBit => trivial
  | other name => trivial

/-- Under the condition, the text is read as it should be. -/
theorem IsCompilable.isCompiled
    (compilable : IsCompilable request elem)
    (parsed : parseQuery server order request = .ok ctx)
    (present : request.whereElem = some elem)
    (plain : ∀ node ∈ elem.nodes, IsPlain node) :
    IsCompiled server.namespaces backslash
      (" ".toList ++ whereText server.namespaces elem)
      (fromItems order server.namespaces ctx) elem := by
  have read : ∀ node ∈ elem.nodes, IsRead server.namespaces node :=
    fun node member =>
      ⟨accepted_parseQuery parsed present node member, plain node member⟩
  rcases exists_connective elem read
    (fun node member =>
      ⟨compilable.whole node member, compilable.isKnown node member⟩) with
    ⟨condition, asked⟩
  rcases readCondition_of_connective elem condition asked with
    ⟨found, foundRead, same⟩
  rcases same.mpr compilable.whole with rfl
  refine ⟨_, condition, tokenize_whereCond read,
    (encloses_whereTokens elem condition foundRead).parsesTo, asked,
    fun row => eval_connective row elem condition asked, ?_⟩
  intro column member
  rcases (columns_of_connective elem condition asked).1 column member with
    rfl | ⟨prop, mentioned, item, isColumn⟩
  · exact type_isProvided
  · exact ⟨prop, item, isColumn,
      item_mem_fromItems parsed present compilable mentioned isColumn⟩

/-! ## The exact condition -/

/--
A where clause of plain elements is compiled to the condition that it asks for
just if no operand of a `not` and no piece of a literal is left out, only
known properties are asked for with `is-defined`, and the dead properties in it
have no underscore in their names and are selected or asked for as well.
-/
theorem isCompiled_iff
    (parsed : parseQuery server order request = .ok ctx)
    (present : request.whereElem = some elem)
    (plain : ∀ node ∈ elem.nodes, IsPlain node) :
    (∃ text, ctx.whereCond = some text ∧
        IsCompiled server.namespaces backslash text
          (fromItems order server.namespaces ctx) elem) ↔
      IsCompilable request elem := by
  constructor
  · rintro ⟨text, isText, compiled⟩
    exact compiled.isCompilable parsed present plain isText
  · intro compilable
    exact ⟨_, whereCond_parseQuery parsed present,
      compilable.isCompiled parsed present plain⟩

/-- Neither a collection nor blue. -/
def notBlue : WhereElem CharData :=
  .log .and [.not [.isCollection],
    .not [.comp .eq (.prop colour) ⟨["blue".toList], none⟩]]

theorem plain_notBlue : ∀ node ∈ notBlue.nodes, IsPlain node := by
  simp [notBlue, WhereElem.nodes, operandNodes, IsPlain, IsPlainLiteral]

theorem isCompiled_iff_selected :
    ∃ ctx,
      parseQuery smallServer keptOrder (smallRequest [colour] notBlue) =
          .ok ctx ∧
        (∀ node ∈ notBlue.nodes, IsPlain node) ∧
        ((∃ text, ctx.whereCond = some text ∧
            IsCompiled smallServer.namespaces false text
              (fromItems keptOrder smallServer.namespaces ctx) notBlue) ↔
          IsCompilable (smallRequest [colour] notBlue) notBlue) :=
  ⟨_, rfl, plain_notBlue, isCompiled_iff rfl rfl plain_notBlue⟩

/-- A dead property that is compared without being selected has no column. -/
theorem unselected_not_isCompiled :
    ∃ ctx,
      parseQuery smallServer keptOrder (smallRequest [shape] notBlue) =
          .ok ctx ∧
        (∀ node ∈ notBlue.nodes, IsPlain node) ∧
        ¬ ∃ text, ctx.whereCond = some text ∧
          IsCompiled smallServer.namespaces false text
            (fromItems keptOrder smallServer.namespaces ctx) notBlue := by
  have accepted : ∃ ctx, parseQuery smallServer keptOrder
      (smallRequest [shape] notBlue) = .ok ctx := ⟨_, rfl⟩
  rcases accepted with ⟨ctx, parsed⟩
  refine ⟨ctx, parsed, plain_notBlue, ?_⟩
  rintro ⟨text, isText, compiled⟩
  have compilable : IsCompilable (smallRequest [shape] notBlue) notBlue :=
    compiled.isCompilable parsed rfl plain_notBlue isText
  have mentioned : colour ∈ mentionedProps notBlue.nodes := by
    simp [notBlue, WhereElem.nodes, operandNodes, mentionedProps,
      WhereElem.mentionedProp]
  rcases compilable.dead colour mentioned rfl with ⟨-, set, listed, same⟩
  have selected : (smallRequest [shape] notBlue).listed notBlue =
      [shape] := by
    simp [SearchRequest.listed, SearchRequest.selected, smallRequest,
      SelectElem.props, notBlue, WhereElem.nodes, operandNodes, definedProps,
      WhereElem.definedProp]
  rw [selected, List.mem_singleton] at listed
  rw [listed] at same
  have names : shape.name.text = colour.name.text :=
    congrArg XmlName.text same.1
  simp [shape, colour] at names

end Limestone.Search
