import Limestone.WhereCondition

/-!
# How the text of a where clause is read

The text of a where clause is scanned to tokens, and these are parsed as a
condition, unless an unknown property leaves a parenthesis open.
-/

namespace Limestone.Search

open Library SqlScan SqlCondition

variable {namespaces : NamespaceTable} {order : HashOrder} {server : Server}
  {ctx : SearchCtx} {prop : PropElem} {backslash : Bool}
  {request : SearchRequest CharData} {elem : WhereElem CharData}
/-! ## The elements in question -/

/-- A literal without quotes, backslashes and question marks. -/
def IsPlainLiteral (literal : LiteralElem CharData) : Prop :=
  literal.typed = none ∧
    ∀ char ∈ literal.cdata.flatten, char ≠ '\'' ∧ char ≠ '\\' ∧ char ≠ '?'

/-- Comparisons of properties with plain literals, and the other operators. -/
def IsPlain : WhereElem CharData → Prop
  | .comp _ (.prop _) literal => IsPlainLiteral literal
  | .log _ _ | .not _ | .isCollection | .isDefined _ => True
  | .comp _ (.bitmark _) _ | .isBit | .other _ => False
/-! ## The tokens of the text -/

def CompOp.token : CompOp → Token
  | .eq => .operator ['=']
  | .lt => .operator ['<']
  | .gt => .operator ['>']
  | .lte => .operator ['<', '=']
  | .gte => .operator ['>', '=']
  | .like => .word "LIKE".toList

def LogOp.token (op : LogOp) : Token :=
  .word op.name

def enclosed (tokens : List Token) : List Token :=
  .symbol '(' :: (tokens ++ [.symbol ')'])

def compTokens (column : Column) (op : CompOp) (literal : Text) : List Token :=
  enclosed (column.spelled ++ [op.token, .literal literal])

def isCollectionTokens : List Token :=
  compTokens (.plain "type".toList) .eq "Collection".toList

/-- The text for an unknown property ends after the parenthesis. -/
def isDefinedTokens : Option (Column × FromItem) → List Token
  | none => [.symbol '(']
  | some column =>
      enclosed (column.1.spelled ++
        [.word "IS".toList, .word "NOT".toList, .word "NULL".toList])

mutual

def whereTokens (namespaces : NamespaceTable) :
    WhereElem CharData → List Token
  | .comp op (.prop prop) literal =>
      match propColumn namespaces prop with
      | none => []
      | some column => compTokens column.1 op (literal.cdata.headD [])
  | .log op (first :: operands) =>
      enclosed (whereTokens namespaces first ++
        operandsTokens namespaces op operands)
  | .not (first :: _) =>
      enclosed (.word "NOT".toList :: whereTokens namespaces first)
  | .isCollection => isCollectionTokens
  | .isDefined prop => isDefinedTokens (propColumn namespaces prop)
  | .comp _ (.bitmark _) _ | .log _ [] | .not [] | .isBit | .other _ => []

def operandsTokens (namespaces : NamespaceTable) (op : LogOp) :
    List (WhereElem CharData) → List Token
  | [] => []
  | operand :: operands =>
      op.token :: (whereTokens namespaces operand ++
        operandsTokens namespaces op operands)

end

theorem scans_sql (op : CompOp) :
    Scans backslash (op.sql ++ [' ']) [op.token] := by
  cases op
  all_goals
    cases backslash
    · rfl
    · rfl

theorem scans_logOp (op : LogOp) :
    Scans backslash op.text [op.token] := by
  cases op
  all_goals
    cases backslash
    · rfl
    · rfl

theorem scans_literal
    {text : Text}
    (plain : ∀ char ∈ text, char ≠ '\'' ∧ char ≠ '\\') :
    Scans backslash ('\'' :: text ++ ['\'', ' ']) [.literal text] := by
  rw [Scans, List.cons_append, run_cons]
  show run backslash ⟨[], .literal []⟩ _ = _
  rw [run_append, run_literal plain]
  rfl

theorem scans_blank : Scans backslash [' '] [] :=
  rfl

theorem scans_enclosed
    {text : Text} {tokens : List Token}
    (scans : Scans backslash text tokens) :
    Scans backslash ("( ".toList ++ text ++ [')']) (enclosed tokens) := by
  have opens : Scans backslash "( ".toList [.symbol '('] := by
    cases backslash
    · rfl
    · rfl
  have closes : Scans backslash [')'] [.symbol ')'] := by
    cases backslash
    · rfl
    · rfl
  exact (opens.append scans).append closes

theorem scans_compText
    {attr literal : Text} {column : Column} {op : CompOp}
    (isColumn : IsColumnOf attr column)
    (plain : ∀ char ∈ literal, char ≠ '\'' ∧ char ≠ '\\') :
    Scans backslash (compText attr op literal)
      (compTokens column op literal) := by
  have inner := (isColumn.scans backslash).append
    ((scans_sql op).append (scans_literal plain))
  have split : compText attr op literal =
      "( ".toList ++ (attr ++ [' '] ++ (op.sql ++ [' '] ++
        ('\'' :: literal ++ ['\'', ' ']))) ++ [')'] := by
    simp [compText]
  rw [split]
  exact scans_enclosed inner

theorem scans_isDefined (prop : PropElem) :
    Scans backslash (whereText namespaces (.isDefined prop))
      (whereTokens namespaces (.isDefined prop)) := by
  rw [whereText_isDefined]
  show Scans backslash _ (isDefinedTokens (propColumn namespaces prop))
  cases known : propAttr namespaces prop with
  | none =>
      rw [propColumn_eq_none_iff.mpr known]
      cases backslash
      · rfl
      · rfl
  | some attr =>
      rcases propColumn_eq_some known with ⟨column, item, found, isColumn, -⟩
      rw [found]
      have words : Scans backslash "IS NOT NULL ".toList
          [.word "IS".toList, .word "NOT".toList, .word "NULL".toList] := by
        cases backslash
        · rfl
        · rfl
      have split : pstrcat ["( ".toList, some attr, " IS NOT NULL )".toList] =
          "( ".toList ++ (attr ++ [' '] ++ "IS NOT NULL ".toList) ++ [')'] := by
        simp [pstrcat]
      rw [split]
      exact scans_enclosed ((isColumn.scans backslash).append words)

/-- What is known of an element that `parse_where` comes to. -/
def IsRead (namespaces : NamespaceTable) (node : WhereElem CharData) : Prop :=
  IsAccepted namespaces node ∧ IsPlain node

theorem isRead_comp
    {op : CompOp} {literal : LiteralElem CharData}
    (read : IsRead namespaces (.comp op (.prop prop) literal)) :
    ∃ attr column item, propAttr namespaces prop = some attr ∧
      propColumn namespaces prop = some (column, item) ∧
      IsColumnOf attr column ∧ literal.typed = none ∧
      ∀ char ∈ literal.cdata.headD [], char ≠ '\'' ∧ char ≠ '\\' := by
  rcases read with ⟨⟨known, -, nonempty⟩, untyped, plain⟩
  rcases Option.ne_none_iff_exists'.mp known with ⟨attr, found⟩
  rcases propColumn_eq_some found with ⟨column, item, listed, isColumn, -⟩
  refine ⟨attr, column, item, found, listed, isColumn, untyped, ?_⟩
  intro char member
  have inside : char ∈ literal.cdata.flatten := by
    cases pieces : literal.cdata with
    | nil => exact (nonempty pieces).elim
    | cons text rest =>
        rw [pieces] at member
        exact List.mem_append_left _ member
  exact ⟨(plain char inside).1, (plain char inside).2.1⟩

mutual

theorem scans_whereText :
    ∀ elem : WhereElem CharData,
      (∀ node ∈ elem.nodes, IsRead namespaces node) →
        Scans backslash (whereText namespaces elem)
          (whereTokens namespaces elem)
  | .comp op (.prop prop) literal, read => by
      rcases isRead_comp (read _ (WhereElem.mem_nodes _)) with
        ⟨attr, column, item, known, found, isColumn, untyped, plain⟩
      have text : whereText namespaces (.comp op (.prop prop) literal) =
          compText attr op (literal.cdata.headD []) := by
        rw [whereText_comp, comparisonText, subjectAttr, known, untyped]
        simp [typeSuffix]
      have tokens : whereTokens namespaces (.comp op (.prop prop) literal) =
          compTokens column op (literal.cdata.headD []) := by
        simp only [whereTokens, found]
      rw [text, tokens]
      exact scans_compText isColumn plain
  | .comp _ (.bitmark _) _, read => (read _ (WhereElem.mem_nodes _)).2.elim
  | .log op [], read => ((read _ (WhereElem.mem_nodes _)).1 rfl).elim
  | .log op (first :: operands), read => by
      rcases forall_nodes_log.mp read with ⟨-, firstRead, others⟩
      have inner := ((scans_whereText first firstRead).append
        (scans_operandsText op operands others)).append scans_blank
      have split : whereText namespaces (.log op (first :: operands)) =
          "( ".toList ++ (whereText namespaces first ++
            operandsText namespaces op operands ++ [' ']) ++ [')'] := by
        simp [whereText_log]
      rw [List.append_nil] at inner
      rw [split]
      exact scans_enclosed inner
  | .not [], read => ((read _ (WhereElem.mem_nodes _)).1 rfl).elim
  | .not (first :: operands), read => by
      have word : Scans backslash "NOT ".toList [.word "NOT".toList] := by
        cases backslash
        · rfl
        · rfl
      have inner := word.append
        ((scans_whereText first (forall_nodes_not.mp read).2).append
          scans_blank)
      have split : whereText namespaces (.not (first :: operands)) =
          "( ".toList ++ ("NOT ".toList ++
            (whereText namespaces first ++ [' '])) ++ [')'] := by
        simp [whereText_not]
      rw [List.append_nil] at inner
      rw [split]
      exact scans_enclosed inner
  | .isCollection, read => by
      cases backslash
      · rfl
      · rfl
  | .isBit, read => (read _ (WhereElem.mem_nodes _)).2.elim
  | .isDefined prop, read => scans_isDefined prop
  | .other name, read => (read _ (WhereElem.mem_nodes _)).1.elim

theorem scans_operandsText (op : LogOp) :
    ∀ operands : List (WhereElem CharData),
      (∀ node ∈ operandNodes operands, IsRead namespaces node) →
        Scans backslash (operandsText namespaces op operands)
          (operandsTokens namespaces op operands)
  | [], read => rfl
  | operand :: operands, read => by
      rcases forall_operandNodes.mp read with ⟨operandRead, others⟩
      have first := (scans_logOp op).append
        (scans_whereText operand operandRead)
      rw [operandsText_cons]
      exact first.append (scans_operandsText op operands others)

end
/-! ## The condition that is read -/

mutual

/--
The condition that the tokens are read as: of literals, the first piece is
there, and of the operands of `not`, the first one.
-/
def readCondition (namespaces : NamespaceTable) :
    WhereElem CharData → Option Condition
  | .comp op (.prop prop) literal =>
      (propColumn namespaces prop).map fun column =>
        .compare column.1 op.comparison (literal.cdata.headD [])
  | .log op (first :: operands) => do
      let first ← readCondition namespaces first
      let operands ← readConditions namespaces operands
      return joinAll op.junction first operands
  | .not (first :: _) => (readCondition namespaces first).map .not
  | .isCollection => some isCollectionCondition
  | .isDefined prop =>
      (propColumn namespaces prop).map fun column => .isNotNull column.1
  | .comp _ (.bitmark _) _ | .log _ [] | .not [] | .isBit | .other _ => none

def readConditions (namespaces : NamespaceTable) :
    List (WhereElem CharData) → Option (List Condition)
  | [] => some []
  | operand :: operands => do
      let condition ← readCondition namespaces operand
      let conditions ← readConditions namespaces operands
      return condition :: conditions

end

theorem propColumn_isFree
    {column : Column} {item : FromItem}
    (found : propColumn namespaces prop = some (column, item)) :
    column.isFree = true := by
  have known : propAttr namespaces prop ≠ none := by
    rw [Ne, ← propColumn_eq_none_iff, found]
    nofun
  rcases Option.ne_none_iff_exists'.mp known with ⟨attr, isAttr⟩
  rcases propColumn_eq_some isAttr with ⟨other, _, same, isColumn, -⟩
  rw [found] at same
  rcases Option.some.inj same with ⟨⟩
  exact isColumn.isFree

theorem encloses_compTokens
    {column : Column}
    (free : column.isFree = true) (op : CompOp) (literal : Text) :
    Encloses (compTokens column op literal)
      (.compare column op.comparison literal) := by
  apply encloses_compare free
  cases op
  all_goals rfl

theorem isKeyword_token (op : LogOp) :
    isKeyword op.junction.keyword op.token = true := by
  cases op
  · rfl
  · rfl

mutual

theorem encloses_whereTokens :
    ∀ (elem : WhereElem CharData) (condition : Condition),
      readCondition namespaces elem = some condition →
        Encloses (whereTokens namespaces elem) condition
  | .comp op (.prop prop) literal, condition, read => by
      rw [readCondition, Option.map_eq_some_iff] at read
      rcases read with ⟨⟨column, item⟩, found, rfl⟩
      simp only [whereTokens, found]
      exact encloses_compTokens (propColumn_isFree found) op _
  | .log op (first :: operands), condition, read => by
      simp only [readCondition, Option.bind_eq_bind, Option.bind_eq_some_iff]
        at read
      rcases read with ⟨firstCondition, firstRead, others, othersRead, same⟩
      rcases Option.some.inj same with rfl
      rcases encloses_operandsTokens op operands others othersRead with
        ⟨pairs, tokens, rfl, encloses⟩
      show Encloses (enclosed (whereTokens namespaces first ++
        operandsTokens namespaces op operands)) _
      rw [tokens]
      exact encloses_junction (isKeyword_token op)
        (encloses_whereTokens first firstCondition firstRead) pairs encloses
  | .not (first :: operands), condition, read => by
      rw [readCondition, Option.map_eq_some_iff] at read
      rcases read with ⟨inner, innerRead, rfl⟩
      exact encloses_not rfl (encloses_whereTokens first inner innerRead)
  | .isCollection, condition, read => by
      rcases Option.some.inj read with rfl
      exact encloses_compTokens rfl .eq _
  | .isDefined prop, condition, read => by
      rw [readCondition, Option.map_eq_some_iff] at read
      rcases read with ⟨⟨column, item⟩, found, rfl⟩
      show Encloses (isDefinedTokens (propColumn namespaces prop)) _
      rw [found]
      exact encloses_isNotNull (propColumn_isFree found) rfl rfl rfl

theorem encloses_operandsTokens (op : LogOp) :
    ∀ (operands : List (WhereElem CharData)) (conditions : List Condition),
      readConditions namespaces operands = some conditions →
        ∃ pairs : List (List Token × Condition),
          operandsTokens namespaces op operands = joined op.token pairs ∧
            pairs.map Prod.snd = conditions ∧
            ∀ pair ∈ pairs, Encloses pair.1 pair.2
  | [], conditions, read => by
      rcases Option.some.inj read with rfl
      exact ⟨[], rfl, rfl, nofun⟩
  | operand :: operands, conditions, read => by
      simp only [readConditions, Option.bind_eq_bind, Option.bind_eq_some_iff]
        at read
      rcases read with ⟨condition, firstRead, others, othersRead, same⟩
      rcases Option.some.inj same with rfl
      rcases encloses_operandsTokens op operands others othersRead with
        ⟨pairs, tokens, conditions, encloses⟩
      have first := encloses_whereTokens operand condition firstRead
      refine ⟨(whereTokens namespaces operand, condition) :: pairs, ?_, ?_, ?_⟩
      · show op.token :: (whereTokens namespaces operand ++
          operandsTokens namespaces op operands) = _
        rw [tokens]
        rfl
      · rw [List.map_cons, conditions]
      · rw [List.forall_mem_cons]
        exact ⟨first, encloses⟩

end

end Limestone.Search
