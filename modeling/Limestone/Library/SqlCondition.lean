import Limestone.Library.SqlScan
import Mathlib.Algebra.Ring.Int.Defs
import Mathlib.Data.List.Induction

/-!
# Search conditions and their precedence

The tokens of a condition are parsed by recursive descent, with `OR` below
`AND` below `NOT` below the comparisons and parentheses.  The parser has a
bound on its depth; a text stands for a condition if some bound is enough.
-/

namespace Limestone.Library.SqlCondition

open SqlScan

/-- A column, by its name, with its table, or in double quotes. -/
inductive Column where
  | plain (name : List Char)
  | qualified (table name : List Char)
  | quoted (name : List Char)
deriving DecidableEq, Repr

inductive Comparison where
  | eq
  | lt
  | gt
  | le
  | ge
  | like
deriving DecidableEq, Repr

inductive Junction where
  | and
  | or
deriving DecidableEq, Repr

inductive Condition where
  | compare (column : Column) (comparison : Comparison) (literal : List Char)
  | isNotNull (column : Column)
  | not (condition : Condition)
  | join (junction : Junction) (left right : Condition)
deriving DecidableEq, Repr

/-- The columns that a condition names. -/
def Condition.columns : Condition → List Column
  | .compare column _ _ => [column]
  | .isNotNull column => [column]
  | .not condition => condition.columns
  | .join _ left right => left.columns ++ right.columns

/-! ## Three-valued truth -/

/-- `AND` and `OR` of truth values, where `none` is unknown. -/
def Junction.eval : Junction → Option Bool → Option Bool → Option Bool
  | .and, some false, _ | .and, _, some false => some false
  | .and, some true, some true => some true
  | .or, some true, _ | .or, _, some true => some true
  | .or, some false, some false => some false
  | _, _, _ => none

/-- What a row says about its columns. -/
structure RowValues where
  compare : Column → Comparison → List Char → Option Bool
  isNotNull : Column → Bool

def Condition.eval (row : RowValues) : Condition → Option Bool
  | .compare column comparison literal => row.compare column comparison literal
  | .isNotNull column => some (row.isNotNull column)
  | .not condition => (condition.eval row).map fun value => !value
  | .join junction left right =>
      junction.eval (left.eval row) (right.eval row)

/-- The value that decides a junction whatever the other operands are. -/
def Junction.dominant : Junction → Bool
  | .and => false
  | .or => true

/-- `AND` and `OR` of any number of truth values, in any order. -/
def Junction.evalAll (junction : Junction) (values : List (Option Bool)) :
    Option Bool :=
  if some junction.dominant ∈ values then some junction.dominant
  else if none ∈ values then none
  else some (!junction.dominant)

theorem Junction.evalAll_eval
    (junction : Junction) (first second : Option Bool)
    (others : List (Option Bool)) :
    junction.evalAll (junction.eval first second :: others) =
      junction.evalAll (first :: second :: others) := by
  cases junction
  all_goals
    rcases first with _ | _ | _
    all_goals
      rcases second with _ | _ | _
      all_goals simp [evalAll, eval, dominant]

theorem Junction.foldl_eval
    (junction : Junction) (first : Option Bool)
    (others : List (Option Bool)) :
    others.foldl junction.eval first = junction.evalAll (first :: others) := by
  induction others generalizing first with
  | nil =>
      cases junction
      all_goals
        rcases first with _ | _ | _
        all_goals rfl
  | cons other others induction =>
      rw [List.foldl_cons, induction, junction.evalAll_eval]

/-- Several conditions joined, from left to right. -/
def joinAll (junction : Junction) (first : Condition)
    (others : List Condition) : Condition :=
  others.foldl (Condition.join junction) first

theorem eval_joinAll
    (row : RowValues) (junction : Junction) (first : Condition)
    (others : List Condition) :
    (joinAll junction first others).eval row =
      junction.evalAll ((first :: others).map (Condition.eval row)) := by
  have folded : ∀ first : Condition, (joinAll junction first others).eval row =
      (others.map (Condition.eval row)).foldl junction.eval
        (first.eval row) := by
    induction others with
    | nil => exact fun _ => rfl
    | cons other others induction =>
        exact fun first => induction (.join junction first other)
  rw [folded, junction.foldl_eval]
  rfl

/-! ## The parser -/

/-- A word of the language, in any case. -/
def isKeyword (keyword : List Char) : Token → Bool
  | .word text => text.map Char.toLower == keyword
  | _ => false

def Junction.keyword : Junction → List Char
  | .and => ['a', 'n', 'd']
  | .or => ['o', 'r']

def reserved : List (List Char) :=
  [['a', 'n', 'd'], ['o', 'r'], ['n', 'o', 't'], ['i', 's'],
    ['n', 'u', 'l', 'l'], ['l', 'i', 'k', 'e']]

def isReserved (text : List Char) : Bool :=
  decide (text.map Char.toLower ∈ reserved)

def parseColumn : List Token → Option (Column × List Token)
  | .quoted name :: rest => some (.quoted name, rest)
  | .word table :: .symbol '.' :: .word name :: rest =>
      if isReserved table then none else some (.qualified table name, rest)
  | .word name :: rest =>
      if isReserved name then none else some (.plain name, rest)
  | _ => none

def parseComparison : Token → Option Comparison
  | .operator ['='] => some .eq
  | .operator ['<'] => some .lt
  | .operator ['>'] => some .gt
  | .operator ['<', '='] => some .le
  | .operator ['>', '='] => some .ge
  | token => if isKeyword ['l', 'i', 'k', 'e'] token then some .like else none

/-- A comparison with a literal, or `IS NOT NULL`. -/
def parsePredicate (tokens : List Token) :
    Option (Condition × List Token) := do
  let (column, rest) ← parseColumn tokens
  match rest with
  | first :: .literal text :: rest =>
      (parseComparison first).map fun comparison =>
        (.compare column comparison text, rest)
  | first :: second :: third :: rest =>
      if isKeyword ['i', 's'] first ∧ isKeyword ['n', 'o', 't'] second ∧
          isKeyword ['n', 'u', 'l', 'l'] third then
        some (.isNotNull column, rest)
      else none
  | _ => none

/-- How tightly an expression is bound. -/
inductive Level where
  | junction (junction : Junction)
  | negation
  | primary
deriving DecidableEq, Repr

/-- The level of the operands. -/
def Junction.operand : Junction → Level
  | .or => .junction .and
  | .and => .negation

/-- The end of a condition in parentheses. -/
def closeParenthesis (found : Condition × List Token) :
    Option (Condition × List Token) :=
  match found.2 with
  | .symbol ')' :: rest => some (found.1, rest)
  | _ => none

mutual

def parse : Nat → Level → List Token → Option (Condition × List Token)
  | 0, _, _ => none
  | fuel + 1, .junction junction, tokens =>
      (parse fuel junction.operand tokens).bind fun found =>
        parseMore fuel junction found.1 found.2
  | _ + 1, .negation, [] => none
  | fuel + 1, .negation, token :: tokens =>
      if isKeyword ['n', 'o', 't'] token then
        (parse fuel .negation tokens).map fun found =>
          (.not found.1, found.2)
      else parse fuel .primary (token :: tokens)
  | fuel + 1, .primary, tokens =>
      if tokens.head? = some (.symbol '(') then
        (parse fuel (.junction .or) tokens.tail).bind closeParenthesis
      else parsePredicate tokens

/-- The operands after the first. -/
def parseMore : Nat → Junction → Condition → List Token →
    Option (Condition × List Token)
  | 0, _, _, _ => none
  | _ + 1, _, left, [] => some (left, [])
  | fuel + 1, junction, left, token :: tokens =>
      if isKeyword junction.keyword token then
        (parse fuel junction.operand tokens).bind fun found =>
          parseMore fuel junction (.join junction left found.1) found.2
      else some (left, token :: tokens)

end

/-- The tokens are those of the condition. -/
def ParsesTo (tokens : List Token) (condition : Condition) : Prop :=
  ∃ fuel, parse fuel (.junction .or) tokens = some (condition, [])

variable {fuel more : Nat} {level : Level} {junction : Junction}
  {tokens rest : List Token} {condition left : Condition}
  {found : Condition × List Token}

/-! ## More fuel than needed -/

theorem parse_succ_and (fuel : Nat) :
    (∀ level tokens found, parse fuel level tokens = some found →
        parse (fuel + 1) level tokens = some found) ∧
      ∀ junction left tokens found,
        parseMore fuel junction left tokens = some found →
          parseMore (fuel + 1) junction left tokens = some found := by
  induction fuel with
  | zero =>
      constructor
      · intro level tokens found parsed
        cases parsed
      · intro junction left tokens found parsed
        cases parsed
  | succ fuel induction =>
      rcases induction with ⟨parses, goesOn⟩
      constructor
      · intro level tokens found parsed
        cases level with
        | junction junction =>
            rw [parse, Option.bind_eq_some_iff] at parsed ⊢
            rcases parsed with ⟨first, firstParsed, others⟩
            exact ⟨first, parses _ _ _ firstParsed, goesOn _ _ _ _ others⟩
        | negation =>
            cases tokens with
            | nil => cases parsed
            | cons token tokens =>
                rw [parse] at parsed ⊢
                split at parsed
                next isNot =>
                    rw [if_pos isNot]
                    rw [Option.map_eq_some_iff] at parsed ⊢
                    rcases parsed with ⟨inner, innerParsed, same⟩
                    exact ⟨inner, parses _ _ _ innerParsed, same⟩
                next isOther =>
                    rw [if_neg isOther]
                    exact parses _ _ _ parsed
        | primary =>
            rw [parse] at parsed ⊢
            split at parsed
            next opened =>
                rw [if_pos opened]
                rw [Option.bind_eq_some_iff] at parsed ⊢
                rcases parsed with ⟨inner, innerParsed, closed⟩
                exact ⟨inner, parses _ _ _ innerParsed, closed⟩
            next isOther =>
                rw [if_neg isOther]
                exact parsed
      · intro junction left tokens found parsed
        cases tokens with
        | nil => exact parsed
        | cons token tokens =>
            rw [parseMore] at parsed ⊢
            split at parsed
            next joined =>
                rw [if_pos joined]
                rw [Option.bind_eq_some_iff] at parsed ⊢
                rcases parsed with ⟨next, nextParsed, others⟩
                exact ⟨next, parses _ _ _ nextParsed, goesOn _ _ _ _ others⟩
            next ended =>
                rw [if_neg ended]
                exact parsed

theorem parse_mono
    (parsed : parse fuel level tokens = some found)
    (le : fuel ≤ more) :
    parse more level tokens = some found := by
  induction le with
  | refl => exact parsed
  | step _ induction => exact (parse_succ_and _).1 _ _ _ induction

/-- Tokens stand for one condition at most. -/
theorem ParsesTo.unique
    {other : Condition}
    (first : ParsesTo tokens condition)
    (second : ParsesTo tokens other) :
    condition = other := by
  rcases first with ⟨fuel, parsed⟩
  rcases second with ⟨more, otherParsed⟩
  have here := parse_mono parsed (Nat.le_max_left fuel more)
  have there := parse_mono otherParsed (Nat.le_max_right fuel more)
  rw [here] at there
  exact congrArg Prod.fst (Option.some.inj there)

/-! ## Rules for parts of a condition -/

/-- The tokens after an expression of a level do not go on with it. -/
def Ends : Level → List Token → Prop
  | .junction .and, rest =>
      ∀ token ∈ rest.head?, isKeyword Junction.and.keyword token = false
  | .junction .or, rest =>
      ∀ token ∈ rest.head?, isKeyword Junction.and.keyword token = false ∧
        isKeyword Junction.or.keyword token = false
  | .negation, _ | .primary, _ => True

/-- The tokens are read as the condition, with enough fuel. -/
def Yields (level : Level) (tokens : List Token) (condition : Condition) :
    Prop :=
  ∃ enough, ∀ fuel, enough ≤ fuel → ∀ rest, Ends level rest →
    parse fuel level (tokens ++ rest) = some (condition, rest)

theorem Yields.parsesTo
    (yields : Yields (.junction .or) tokens condition) :
    ParsesTo tokens condition := by
  rcases yields with ⟨enough, parses⟩
  have parsed := parses enough (Nat.le_refl _) [] (by
    intro token member
    cases member)
  rw [List.append_nil] at parsed
  exact ⟨enough, parsed⟩

/-- What does not begin with `NOT` is an operand of `NOT` or a junction. -/
theorem Yields.negation
    {token : Token}
    (other : isKeyword ['n', 'o', 't'] token = false)
    (yields : Yields .primary (token :: tokens) condition) :
    Yields .negation (token :: tokens) condition := by
  rcases yields with ⟨enough, parses⟩
  refine ⟨enough + 1, ?_⟩
  intro fuel le rest _
  cases fuel with
  | zero => omega
  | succ fuel =>
      rw [List.cons_append, parse, if_neg (by simp [other])]
      exact parses fuel (by omega) rest trivial

theorem yields_not
    {token : Token}
    (isNot : isKeyword ['n', 'o', 't'] token = true)
    (yields : Yields .negation tokens condition) :
    Yields .negation (token :: tokens) (.not condition) := by
  rcases yields with ⟨enough, parses⟩
  refine ⟨enough + 1, ?_⟩
  intro fuel le rest _
  cases fuel with
  | zero => omega
  | succ fuel =>
      rw [List.cons_append, parse, if_pos isNot,
        parses fuel (by omega) rest trivial]
      rfl

/-- A predicate that begins with a column. -/
theorem yields_predicate
    {token : Token}
    (notOpen : token ≠ .symbol '(')
    (parses : ∀ rest,
      parsePredicate (token :: tokens ++ rest) = some (condition, rest)) :
    Yields .primary (token :: tokens) condition := by
  refine ⟨1, ?_⟩
  intro fuel le rest _
  cases fuel with
  | zero => omega
  | succ fuel =>
      have head : (token :: tokens ++ rest).head? ≠ some (.symbol '(') := by
        simp [notOpen]
      rw [parse, if_neg head]
      exact parses rest

theorem yields_parentheses
    (yields : Yields (.junction .or) tokens condition) :
    Yields .primary (.symbol '(' :: (tokens ++ [.symbol ')'])) condition := by
  rcases yields with ⟨enough, parses⟩
  refine ⟨enough + 1, ?_⟩
  intro fuel le rest _
  cases fuel with
  | zero => omega
  | succ fuel =>
      have inner := parses fuel (by omega) (.symbol ')' :: rest) (by
        intro token member
        rw [List.head?_cons, Option.mem_some_iff] at member
        rw [← member]
        exact ⟨rfl, rfl⟩)
      have head : (Token.symbol '(' ::
          (tokens ++ [Token.symbol ')']) ++ rest).head? =
            some (Token.symbol '(') := rfl
      have tail : (Token.symbol '(' ::
          (tokens ++ [Token.symbol ')']) ++ rest).tail =
            tokens ++ .symbol ')' :: rest := by
        simp
      rw [parse, if_pos head, tail, inner]
      rfl

/-- The operands of a junction after the first, each after a keyword. -/
def joined (keyword : Token) (operands : List (List Token × Condition)) :
    List Token :=
  operands.flatMap fun operand => keyword :: operand.1

/-- After an operand, the next keyword does not go on with it. -/
theorem ends_operand
    {keyword : Token} {operands : List (List Token × Condition)}
    (isKey : isKeyword junction.keyword keyword = true)
    (ends : Ends (.junction junction) rest) :
    Ends junction.operand (joined keyword operands ++ rest) := by
  cases junction with
  | and => trivial
  | or =>
      intro token member
      cases operands with
      | nil => exact (ends token member).1
      | cons operand operands =>
          rw [joined, List.flatMap_cons, List.cons_append, List.cons_append,
            List.head?_cons, Option.mem_some_iff] at member
          rw [← member]
          cases keyword with
          | word text =>
              have same : text.map Char.toLower = ['o', 'r'] := by
                simpa [isKeyword, Junction.keyword] using isKey
              simp [isKeyword, Junction.keyword, same]
          | number text => cases isKey
          | literal text => cases isKey
          | quoted text => cases isKey
          | operator text => cases isKey
          | symbol char => cases isKey

theorem parseMore_joined
    {keyword : Token}
    (isKey : isKeyword junction.keyword keyword = true)
    (operands : List (List Token × Condition))
    (yields : ∀ operand ∈ operands,
      Yields junction.operand operand.1 operand.2) :
    ∃ enough, ∀ fuel, enough ≤ fuel → ∀ left rest,
      Ends (.junction junction) rest →
        parseMore fuel junction left (joined keyword operands ++ rest) =
          some (joinAll junction left (operands.map Prod.snd), rest) := by
  induction operands with
  | nil =>
      refine ⟨1, ?_⟩
      intro fuel le left rest ends
      cases fuel with
      | zero => omega
      | succ fuel =>
          cases rest with
          | nil => rfl
          | cons token rest =>
              have other : isKeyword junction.keyword token = false := by
                cases junction with
                | and => exact ends token rfl
                | or => exact (ends token rfl).2
              show parseMore (fuel + 1) junction left (token :: rest) = _
              rw [parseMore, if_neg (by simp [other])]
              rfl
  | cons operand operands induction =>
      simp only [List.mem_cons, forall_eq_or_imp] at yields
      rcases yields with ⟨⟨first, firstParses⟩, others⟩
      rcases induction others with ⟨enough, parses⟩
      refine ⟨max first enough + 1, ?_⟩
      intro fuel le left rest ends
      cases fuel with
      | zero => omega
      | succ fuel =>
          have split : joined keyword (operand :: operands) ++ rest =
              keyword :: (operand.1 ++ (joined keyword operands ++ rest)) := by
            simp [joined]
          rw [split, parseMore, if_pos isKey, firstParses fuel (by omega) _
            (ends_operand isKey ends)]
          exact parses fuel (by omega) _ rest ends

/-- Operands with a keyword between any two of them. -/
theorem yields_junction
    {keyword : Token} {first : List Token} {firstCondition : Condition}
    (isKey : isKeyword junction.keyword keyword = true)
    (firstYields : Yields junction.operand first firstCondition)
    (operands : List (List Token × Condition))
    (yields : ∀ operand ∈ operands,
      Yields junction.operand operand.1 operand.2) :
    Yields (.junction junction) (first ++ joined keyword operands)
      (joinAll junction firstCondition (operands.map Prod.snd)) := by
  rcases firstYields with ⟨enough, parses⟩
  rcases parseMore_joined isKey operands yields with ⟨others, goesOn⟩
  refine ⟨max enough others + 1, ?_⟩
  intro fuel le rest ends
  cases fuel with
  | zero => omega
  | succ fuel =>
      rw [parse, List.append_assoc, parses fuel (by omega) _
        (ends_operand isKey ends)]
      exact goesOn fuel (by omega) _ rest ends

/-- One operand is an expression of the level above. -/
theorem Yields.single
    (yields : Yields junction.operand tokens condition) :
    Yields (.junction junction) tokens condition := by
  have isKey : isKeyword junction.keyword (.word junction.keyword) = true := by
    cases junction with
    | and => rfl
    | or => rfl
  have alone := yields_junction isKey yields [] nofun
  have none : tokens ++ joined (.word junction.keyword) [] = tokens := by
    simp [joined]
  rw [none] at alone
  exact alone

/-! ## Conditions in parentheses -/

/-- The tokens of a column. -/
def Column.spelled : Column → List Token
  | .plain name => [.word name]
  | .qualified table name => [.word table, .symbol '.', .word name]
  | .quoted name => [.quoted name]

/-- The column does not begin with a reserved word. -/
def Column.isFree : Column → Bool
  | .plain name => !isReserved name
  | .qualified table _ => !isReserved table
  | .quoted _ => true

theorem parseColumn_spelled
    {column : Column} {next : Token}
    (free : column.isFree = true)
    (other : next ≠ .symbol '.') :
    parseColumn (column.spelled ++ next :: rest) =
      some (column, next :: rest) := by
  cases column with
  | plain name =>
      have notReserved : isReserved name = false := by
        simpa [Column.isFree] using free
      show parseColumn (.word name :: next :: rest) = _
      unfold parseColumn
      split
      next same => cases same
      next same =>
          rcases List.cons.inj same with ⟨-, same⟩
          exact (other (List.cons.inj same).1).elim
      next same =>
          rcases List.cons.inj same with ⟨sameName, rfl⟩
          rcases Token.word.inj sameName with rfl
          simp [notReserved]
      next _ _ notWord => exact (notWord name (next :: rest) rfl).elim
  | qualified table name =>
      have notReserved : isReserved table = false := by
        simpa [Column.isFree] using free
      show parseColumn (.word table :: .symbol '.' :: .word name ::
        next :: rest) = _
      simp [parseColumn, notReserved]
  | quoted name => rfl

/-- The first token of a column neither opens nor negates a condition. -/
theorem Column.spelled_eq_cons
    {column : Column}
    (free : column.isFree = true) :
    ∃ token others, column.spelled = token :: others ∧
      token ≠ .symbol '(' ∧ isKeyword ['n', 'o', 't'] token = false := by
  have notNot : ∀ name, isReserved name = false →
      isKeyword ['n', 'o', 't'] (.word name) = false := by
    intro name notReserved
    simp only [isReserved, reserved, List.mem_cons, decide_eq_false_iff_not,
      not_or] at notReserved
    simpa [isKeyword] using notReserved.2.2.1
  cases column with
  | plain name =>
      exact ⟨_, _, rfl, nofun, notNot name (by simpa [isFree] using free)⟩
  | qualified table name =>
      exact ⟨_, _, rfl, nofun, notNot table (by simpa [isFree] using free)⟩
  | quoted name => exact ⟨_, _, rfl, nofun, rfl⟩

/-- A condition in parentheses. -/
structure Encloses (tokens : List Token) (condition : Condition) : Prop where
  opens : ∃ others, tokens = .symbol '(' :: others
  yields : Yields .primary tokens condition

/-- What is enclosed may stand wherever a condition may. -/
theorem Encloses.anywhere
    (encloses : Encloses tokens condition) (level : Level) :
    Yields level tokens condition := by
  rcases encloses with ⟨⟨others, rfl⟩, yields⟩
  have negation := yields.negation rfl
  have conjunction : Yields (.junction .and) _ condition :=
    Yields.single negation
  cases level with
  | primary => exact yields
  | negation => exact negation
  | junction junction =>
      cases junction with
      | and => exact conjunction
      | or => exact Yields.single conjunction

theorem encloses_of_yields
    (yields : Yields (.junction .or) tokens condition) :
    Encloses (.symbol '(' :: (tokens ++ [.symbol ')'])) condition :=
  ⟨⟨_, rfl⟩, yields_parentheses yields⟩

theorem encloses_predicate
    {column : Column} {next : Token} {others : List Token}
    (free : column.isFree = true)
    (parses : ∀ rest,
      parsePredicate (column.spelled ++ next :: others ++ rest) =
        some (condition, rest)) :
    Encloses (.symbol '(' :: (column.spelled ++ next :: others ++
      [.symbol ')'])) condition := by
  rcases Column.spelled_eq_cons free with
    ⟨token, more, split, notOpen, notNot⟩
  rw [split, List.cons_append] at parses ⊢
  apply encloses_of_yields
  have predicate := yields_predicate notOpen parses
  have conjunction : Yields (.junction .and) _ condition :=
    Yields.single (predicate.negation notNot)
  exact Yields.single conjunction

theorem encloses_compare
    {column : Column} {comparison : Comparison} {operator : Token}
    {text : List Char}
    (free : column.isFree = true)
    (reads : parseComparison operator = some comparison) :
    Encloses (.symbol '(' :: (column.spelled ++ [operator, .literal text] ++
      [.symbol ')'])) (.compare column comparison text) := by
  apply encloses_predicate free
  intro rest
  have other : operator ≠ .symbol '.' := by
    rintro rfl
    cases reads
  rw [List.append_assoc, parsePredicate]
  show (parseColumn (column.spelled ++ operator :: .literal text :: rest)).bind
    _ = _
  rw [parseColumn_spelled free other]
  simp [reads]

theorem encloses_isNotNull
    {column : Column} {first second third : Token}
    (free : column.isFree = true)
    (isIs : isKeyword ['i', 's'] first = true)
    (isNot : isKeyword ['n', 'o', 't'] second = true)
    (isNull : isKeyword ['n', 'u', 'l', 'l'] third = true) :
    Encloses (.symbol '(' :: (column.spelled ++ [first, second, third] ++
      [.symbol ')'])) (.isNotNull column) := by
  apply encloses_predicate free
  intro rest
  have other : first ≠ .symbol '.' := by
    rintro rfl
    cases isIs
  rw [List.append_assoc, parsePredicate]
  show (parseColumn (column.spelled ++ first :: second :: third :: rest)).bind
    _ = _
  rw [parseColumn_spelled free other]
  cases second with
  | word text => simp [isIs, isNot, isNull]
  | number text => cases isNot
  | literal text => cases isNot
  | quoted text => cases isNot
  | operator text => cases isNot
  | symbol char => cases isNot

theorem encloses_not
    {token : Token}
    (isNot : isKeyword ['n', 'o', 't'] token = true)
    (encloses : Encloses tokens condition) :
    Encloses (.symbol '(' :: (token :: tokens ++ [.symbol ')']))
      (.not condition) := by
  apply encloses_of_yields
  have negated := yields_not isNot (encloses.anywhere .negation)
  have conjunction : Yields (.junction .and) _ (.not condition) :=
    Yields.single negated
  exact Yields.single conjunction

theorem encloses_junction
    {keyword : Token} {first : List Token} {firstCondition : Condition}
    (isKey : isKeyword junction.keyword keyword = true)
    (firstEncloses : Encloses first firstCondition)
    (operands : List (List Token × Condition))
    (encloses : ∀ operand ∈ operands, Encloses operand.1 operand.2) :
    Encloses (.symbol '(' :: (first ++ joined keyword operands ++
        [.symbol ')']))
      (joinAll junction firstCondition (operands.map Prod.snd)) := by
  apply encloses_of_yields
  have whole := yields_junction isKey
    (firstEncloses.anywhere junction.operand) operands
    (fun operand member => (encloses operand member).anywhere _)
  cases junction with
  | and => exact Yields.single whole
  | or => exact whole

theorem Encloses.parsesTo (encloses : Encloses tokens condition) :
    ParsesTo tokens condition :=
  (encloses.anywhere _).parsesTo

/-! ## Conditions that are joined -/

theorem columns_joinAll (first : Condition) (others : List Condition) :
    (joinAll junction first others).columns =
      first.columns ++ others.flatMap Condition.columns := by
  induction others generalizing first with
  | nil => simp [joinAll]
  | cons other others induction =>
      have rest := induction (.join junction first other)
      rw [List.flatMap_cons, ← List.append_assoc]
      exact rest

/-- As many conditions are joined alike only if they are the same. -/
theorem joinAll_inj
    {first other : Condition} {firsts others : List Condition}
    (length : firsts.length = others.length) :
    joinAll junction first firsts = joinAll junction other others ↔
      first = other ∧ firsts = others := by
  induction firsts using List.reverseRecOn generalizing others with
  | nil =>
      rcases List.length_eq_zero_iff.mp length.symm with rfl
      simp [joinAll]
  | append_singleton firsts last induction =>
      rcases List.eq_nil_or_concat others with rfl | ⟨others, otherLast, rfl⟩
      · simp at length
      · rw [List.concat_eq_append] at length ⊢
        have shorter : firsts.length = others.length := by simpa using length
        have join : ∀ first firsts last,
            joinAll junction first (firsts ++ [last]) =
              .join junction (joinAll junction first firsts) last := by
          intro first firsts last
          exact List.foldl_append
        rw [join, join, Condition.join.injEq, induction shorter]
        simp [and_assoc]

end Limestone.Library.SqlCondition
