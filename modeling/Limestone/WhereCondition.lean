import Limestone.Library.SqlCondition
import Limestone.PropertyKeys

/-!
# What a where clause asks for

A where clause asks for a condition on the properties of a resource.  Each
property has a column, which comes from an item of the from clause, and the
condition has the truth value of the clause on every row.
-/

namespace Limestone.Search

open Library SqlScan SqlCondition

/-! ## The condition that is asked for -/

def CompOp.comparison : CompOp → Comparison
  | .eq => .eq
  | .lt => .lt
  | .gt => .gt
  | .lte => .le
  | .gte => .ge
  | .like => .like

def LogOp.junction : LogOp → Junction
  | .and => .and
  | .or => .or

/-- The columns of the live properties and the items with their tables. -/
def liveColumns : List (Text × Column × FromItem) :=
  [("creationdate".toList, .plain "created_at".toList, .resources),
    ("displayname".toList, .plain "displayname".toList, .resources),
    ("getcontentlanguage".toList, .plain "contentlanguage".toList, .resources),
    ("getcontenttype".toList,
      .qualified "media".toList "mimetype".toList, .media),
    ("getcontentlength".toList, .qualified "media".toList "size".toList, .media),
    ("getlastmodified".toList,
      .qualified "media".toList "updated_at".toList, .media),
    ("getetag".toList, .qualified "media".toList "sha1".toList, .media),
    ("resourcetype".toList, .plain "type".toList, .resources),
    ("resource-id".toList,
      .qualified "resources".toList "uuid".toList, .resources),
    ("owner".toList, .qualified "principals".toList "name".toList, .resources),
    ("lastmodified".toList,
      .qualified "resources".toList "lastmodified".toList, .resources),
    ("popularity".toList,
      .qualified "resources".toList "views".toList, .resources),
    ("coolness".toList,
      .qualified "resources".toList "coolness".toList, .resources),
    ("edits".toList, .qualified "resources".toList "edits".toList, .resources)]

/-- The column that holds a property, and the item that it comes from. -/
def propColumn (namespaces : NamespaceTable) (prop : PropElem) :
    Option (Column × FromItem) :=
  if prop.isDav then liveColumns.lookup prop.name.text
  else
    some (.quoted (propKey namespaces prop),
      .deadProperty (propKey namespaces prop)
        ⟨some prop.name.text, namespaces.id prop.ns⟩)

/-- The resource is a collection. -/
def isCollectionCondition : Condition :=
  .compare (.plain "type".toList) .eq "Collection".toList

mutual

/--
The condition that an element asks for: literals are meant as a whole, and
`not` has one operand.
-/
def connective (namespaces : NamespaceTable) :
    WhereElem CharData → Option Condition
  | .comp op (.prop prop) literal =>
      (propColumn namespaces prop).map fun column =>
        .compare column.1 op.comparison literal.cdata.flatten
  | .log op (first :: operands) => do
      let first ← connective namespaces first
      let operands ← connectives namespaces operands
      return joinAll op.junction first operands
  | .not [operand] => (connective namespaces operand).map .not
  | .isCollection => some isCollectionCondition
  | .isDefined prop =>
      (propColumn namespaces prop).map fun column => .isNotNull column.1
  | .comp _ (.bitmark _) _ | .log _ [] | .not [] | .not (_ :: _ :: _)
  | .isBit | .other _ => none

def connectives (namespaces : NamespaceTable) :
    List (WhereElem CharData) → Option (List Condition)
  | [] => some []
  | operand :: operands => do
      let condition ← connective namespaces operand
      let conditions ← connectives namespaces operands
      return condition :: conditions

end

mutual

/-- The truth value of an element on a row, where `none` is unknown. -/
def whereTruth (namespaces : NamespaceTable) (row : RowValues) :
    WhereElem CharData → Option Bool
  | .comp op (.prop prop) literal =>
      (propColumn namespaces prop).bind fun column =>
        row.compare column.1 op.comparison literal.cdata.flatten
  | .log op operands =>
      op.junction.evalAll (operandTruths namespaces row operands)
  | .not [operand] =>
      (whereTruth namespaces row operand).map fun value => !value
  | .isCollection => isCollectionCondition.eval row
  | .isDefined prop =>
      (propColumn namespaces prop).map fun column => row.isNotNull column.1
  | .comp _ (.bitmark _) _ | .not [] | .not (_ :: _ :: _) | .isBit
  | .other _ => none

def operandTruths (namespaces : NamespaceTable) (row : RowValues) :
    List (WhereElem CharData) → List (Option Bool)
  | [] => []
  | operand :: operands =>
      whereTruth namespaces row operand ::
        operandTruths namespaces row operands

end
variable {namespaces : NamespaceTable} {order : HashOrder} {server : Server}
  {ctx : SearchCtx} {prop : PropElem} {backslash : Bool}
  {request : SearchRequest CharData} {elem : WhereElem CharData}
/-! ## The columns of properties -/

/-- The attribute is read as the column. -/
structure IsColumnOf (attr : Text) (column : Column) : Prop where
  isFree : column.isFree = true
  scans : ∀ backslash, Scans backslash (attr ++ [' ']) column.spelled

theorem live_columns :
    ∀ entry ∈ getLivepropMap, ∃ column item,
      liveColumns.lookup entry.1 = some (column, item) ∧
        IsColumnOf entry.2 column ∧
        (item = .resources ∨ item = .media ∧ "media.".toList <:+: entry.2) := by
  simp only [getLivepropMap, List.forall_mem_cons, List.not_mem_nil]
  refine ⟨?_, ?_, ?_, ?_, ?_, ?_, ?_, ?_, ?_, ?_, ?_, ?_, ?_, ?_,
    fun _ none => none.elim⟩
  all_goals
    refine ⟨_, _, rfl, ⟨rfl, ?_⟩, ?_⟩
    · intro backslash
      cases backslash
      · rfl
      · rfl
    · first
        | exact Or.inl rfl
        | exact Or.inr ⟨rfl, List.prefix_append _ _ |>.isInfix⟩

theorem lookup_eq_none {α : Type*} {entries : List (Text × α)} {name : Text} :
    entries.lookup name = none ↔ name ∉ entries.map Prod.fst := by
  rw [List.lookup_eq_none_iff, List.mem_map]
  constructor
  · rintro different ⟨entry, member, rfl⟩
    simpa using different entry member
  · intro absent entry member
    rw [bne_iff_ne]
    rintro rfl
    exact absent ⟨entry, member, rfl⟩

theorem propAttr_eq_none_iff :
    propAttr namespaces prop = none ↔
      prop.isDav = true ∧
        prop.name.text ∉ getLivepropMap.map Prod.fst := by
  by_cases dav : prop.isDav = true
  · rw [propAttr, if_pos dav, lookup_eq_none]
    simp [dav]
  · rw [propAttr, if_neg dav]
    simp [dav]

theorem propColumn_eq_none_iff :
    propColumn namespaces prop = none ↔
      propAttr namespaces prop = none := by
  rw [propAttr_eq_none_iff]
  by_cases dav : prop.isDav = true
  · have sameNames : liveColumns.map Prod.fst =
        getLivepropMap.map Prod.fst := rfl
    rw [propColumn, if_pos dav, lookup_eq_none, sameNames]
    simp [dav]
  · rw [propColumn, if_neg dav]
    simp [dav]

theorem isColumnOf_deadAttr :
    IsColumnOf ('"' :: propKey namespaces prop ++ ['"'])
      (.quoted (propKey namespaces prop)) where
  isFree := rfl
  scans := by
    intro backslash
    have read : run backslash ⟨[], .quoted []⟩ (propKey namespaces prop) =
        ⟨[], .quoted (propKey namespaces prop)⟩ :=
      run_quoted fun char member => (isQuotable_propKey char member).2.1
    have split : '"' :: propKey namespaces prop ++ ['"'] ++ [' '] =
        '"' :: (propKey namespaces prop ++ ['"', ' ']) := by
      simp
    rw [Scans, split, run_cons]
    show run backslash ⟨[], .quoted []⟩ _ = _
    rw [run_append, read]
    rfl

/-- The attribute of a property is read as its column. -/
theorem propColumn_eq_some
    {attr : Text}
    (known : propAttr namespaces prop = some attr) :
    ∃ column item, propColumn namespaces prop = some (column, item) ∧
      IsColumnOf attr column ∧
      (prop.isDav = true →
        item = .resources ∨ item = .media ∧ needsMedia prop = true) := by
  by_cases dav : prop.isDav = true
  · rw [propAttr, if_pos dav] at known
    rcases List.lookup_eq_some_iff.mp known with ⟨before, rest, split, -⟩
    have member : (prop.name.text, attr) ∈ getLivepropMap := by
      rw [split]
      exact List.mem_append_right before (List.mem_cons_self ..)
    rcases live_columns _ member with ⟨column, item, listed, isColumn, from_⟩
    refine ⟨column, item, ?_, isColumn, ?_⟩
    · rw [propColumn, if_pos dav]
      exact listed
    · intro _
      rcases from_ with resources | ⟨media, isMedia⟩
      · exact Or.inl resources
      · refine Or.inr ⟨media, ?_⟩
        rw [needsMedia, dav, known]
        exact decide_eq_true isMedia
  · rw [propAttr, if_neg dav] at known
    rcases Option.some.inj known with rfl
    refine ⟨_, _, if_neg dav, isColumnOf_deadAttr, ?_⟩
    intro isDav
    exact (dav isDav).elim
/-! ## Columns and truth of the condition -/

/-- The column is that of the type or of one of the properties. -/
def IsNamed (namespaces : NamespaceTable) (props : List PropElem)
    (column : Column) : Prop :=
  column = .plain "type".toList ∨
    ∃ prop ∈ props, ∃ item, propColumn namespaces prop = some (column, item)

theorem IsNamed.mono
    {props others : List PropElem} {column : Column}
    (named : IsNamed namespaces props column)
    (subset : props ⊆ others) :
    IsNamed namespaces others column := by
  rcases named with isType | ⟨prop, member, item, found⟩
  · exact Or.inl isType
  · exact Or.inr ⟨prop, subset member, item, found⟩

mutual

/-- A condition has the columns of the properties that are mentioned. -/
theorem columns_of_connective :
    ∀ (elem : WhereElem CharData) (condition : Condition),
      connective namespaces elem = some condition →
        (∀ column ∈ condition.columns,
          IsNamed namespaces (mentionedProps elem.nodes) column) ∧
        ∀ prop ∈ mentionedProps elem.nodes, ∃ column item,
          propColumn namespaces prop = some (column, item) ∧
            column ∈ condition.columns
  | .comp op (.prop prop) literal, condition, asked => by
      rw [connective, Option.map_eq_some_iff] at asked
      rcases asked with ⟨⟨column, item⟩, found, rfl⟩
      have mentioned : mentionedProps
          (WhereElem.comp op (.prop prop) literal).nodes = [prop] := by
        simp [WhereElem.nodes, mentionedProps, WhereElem.mentionedProp]
      simp [mentioned, IsNamed, Condition.columns, found]
  | .log op (first :: operands), condition, asked => by
      simp only [connective, Option.bind_eq_bind, Option.bind_eq_some_iff]
        at asked
      rcases asked with ⟨firstCondition, firstAsked, others, othersAsked, same⟩
      rcases Option.some.inj same with rfl
      rcases columns_of_connective first firstCondition firstAsked with
        ⟨firstNamed, firstThere⟩
      rcases columns_of_connectives operands others othersAsked with
        ⟨othersNamed, othersThere⟩
      rw [columns_joinAll, mentionedProps_log]
      simp only [List.mem_append]
      constructor
      · rintro column (member | member)
        · exact (firstNamed column member).mono (List.subset_append_left ..)
        · exact (othersNamed column member).mono (List.subset_append_right ..)
      · rintro prop (member | member)
        · rcases firstThere prop member with ⟨column, item, found, inside⟩
          exact ⟨column, item, found, Or.inl inside⟩
        · rcases othersThere prop member with ⟨column, item, found, inside⟩
          exact ⟨column, item, found, Or.inr inside⟩
  | .not [operand], condition, asked => by
      rw [connective, Option.map_eq_some_iff] at asked
      rcases asked with ⟨inner, innerAsked, rfl⟩
      rw [mentionedProps_not]
      exact columns_of_connective operand inner innerAsked
  | .isCollection, condition, asked => by
      rcases Option.some.inj asked with rfl
      have mentioned : mentionedProps
          (WhereElem.isCollection : WhereElem CharData).nodes = [] := by
        simp [WhereElem.nodes, mentionedProps, WhereElem.mentionedProp]
      simp [mentioned, IsNamed, isCollectionCondition, Condition.columns]
  | .isDefined prop, condition, asked => by
      rw [connective, Option.map_eq_some_iff] at asked
      rcases asked with ⟨⟨column, item⟩, found, rfl⟩
      have mentioned : mentionedProps
          (WhereElem.isDefined prop : WhereElem CharData).nodes = [prop] := by
        simp [WhereElem.nodes, mentionedProps, WhereElem.mentionedProp]
      simp [mentioned, IsNamed, Condition.columns, found]

theorem columns_of_connectives :
    ∀ (operands : List (WhereElem CharData)) (conditions : List Condition),
      connectives namespaces operands = some conditions →
        (∀ column ∈ conditions.flatMap Condition.columns,
          IsNamed namespaces (mentionedProps (operandNodes operands)) column) ∧
        ∀ prop ∈ mentionedProps (operandNodes operands), ∃ column item,
          propColumn namespaces prop = some (column, item) ∧
            column ∈ conditions.flatMap Condition.columns
  | [], conditions, asked => by
      rcases Option.some.inj asked with rfl
      simp [operandNodes, mentionedProps]
  | operand :: operands, conditions, asked => by
      simp only [connectives, Option.bind_eq_bind, Option.bind_eq_some_iff]
        at asked
      rcases asked with ⟨condition, firstAsked, others, othersAsked, same⟩
      rcases Option.some.inj same with rfl
      rcases columns_of_connective operand condition firstAsked with
        ⟨firstNamed, firstThere⟩
      rcases columns_of_connectives operands others othersAsked with
        ⟨othersNamed, othersThere⟩
      rw [List.flatMap_cons, mentionedProps_operands]
      simp only [List.mem_append]
      constructor
      · rintro column (member | member)
        · exact (firstNamed column member).mono (List.subset_append_left ..)
        · exact (othersNamed column member).mono (List.subset_append_right ..)
      · rintro prop (member | member)
        · rcases firstThere prop member with ⟨column, item, found, inside⟩
          exact ⟨column, item, found, Or.inl inside⟩
        · rcases othersThere prop member with ⟨column, item, found, inside⟩
          exact ⟨column, item, found, Or.inr inside⟩

end

mutual

/-- A condition has the truth value of the element on every row. -/
theorem eval_connective (row : RowValues) :
    ∀ (elem : WhereElem CharData) (condition : Condition),
      connective namespaces elem = some condition →
        condition.eval row = whereTruth namespaces row elem
  | .comp op (.prop prop) literal, condition, asked => by
      rw [connective, Option.map_eq_some_iff] at asked
      rcases asked with ⟨column, found, rfl⟩
      simp [whereTruth, found, Condition.eval]
  | .log op (first :: operands), condition, asked => by
      simp only [connective, Option.bind_eq_bind, Option.bind_eq_some_iff]
        at asked
      rcases asked with ⟨firstCondition, firstAsked, others, othersAsked, same⟩
      rcases Option.some.inj same with rfl
      rw [eval_joinAll, List.map_cons,
        eval_connective row first firstCondition firstAsked,
        eval_connectives row operands others othersAsked]
      simp [whereTruth, operandTruths]
  | .not [operand], condition, asked => by
      rw [connective, Option.map_eq_some_iff] at asked
      rcases asked with ⟨inner, innerAsked, rfl⟩
      rw [Condition.eval, eval_connective row operand inner innerAsked]
      simp [whereTruth]
  | .isCollection, condition, asked => by
      rcases Option.some.inj asked with rfl
      simp [whereTruth]
  | .isDefined prop, condition, asked => by
      rw [connective, Option.map_eq_some_iff] at asked
      rcases asked with ⟨column, found, rfl⟩
      simp [whereTruth, found, Condition.eval]

theorem eval_connectives (row : RowValues) :
    ∀ (operands : List (WhereElem CharData)) (conditions : List Condition),
      connectives namespaces operands = some conditions →
        conditions.map (Condition.eval row) =
          operandTruths namespaces row operands
  | [], conditions, asked => by
      rcases Option.some.inj asked with rfl
      simp [operandTruths]
  | operand :: operands, conditions, asked => by
      simp only [connectives, Option.bind_eq_bind, Option.bind_eq_some_iff]
        at asked
      rcases asked with ⟨condition, firstAsked, others, othersAsked, same⟩
      rcases Option.some.inj same with rfl
      rw [List.map_cons, eval_connective row operand condition firstAsked,
        eval_connectives row operands others othersAsked]
      simp [operandTruths]

end

end Limestone.Search
