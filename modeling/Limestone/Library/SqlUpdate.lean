import Limestone.Library.SqlInsert

/-!
# `UPDATE` statements as texts

A statement sets some columns in the rows in which one column has a value.
Its text is read back as the statement, whatever characters its values have.
-/

namespace Limestone.Library.SqlUpdate

open SqlScan
open SqlInsert

/-- An `UPDATE .. SET .. WHERE ..`. -/
structure Update where
  table : List Char
  assignments : List (List Char × SqlValue)
  column : List Char
  value : SqlValue
deriving DecidableEq, Repr

/-! ## Writing statements -/

/-- A name or a keyword with the blank behind it. -/
def wordText (word : List Char) : List Char :=
  word ++ [' ']

/-- The text of `column = value`. -/
def equationText (backslash : Bool) (equation : List Char × SqlValue) :
    List Char :=
  wordText equation.1 ++ ['=', ' '] ++ valueText backslash equation.2

/-- The assignments with commas and blanks between them. -/
def assignmentsText (backslash : Bool) :
    List (List Char × SqlValue) → List Char
  | [] => []
  | [assignment] => equationText backslash assignment
  | assignment :: assignments =>
      equationText backslash assignment ++ [','] ++ [' '] ++
        assignmentsText backslash assignments

def updateText (backslash : Bool) (statement : Update) : List Char :=
  wordText "UPDATE".toList ++ wordText statement.table ++
    wordText "SET".toList ++
    (assignmentsText backslash statement.assignments ++ [' ']) ++
    wordText "WHERE".toList ++
    equationText backslash (statement.column, statement.value)

/-! ## Reading statements -/

/-- A token, or the value that one or two tokens are. -/
inductive Item where
  | word (text : List Char)
  | operator (text : List Char)
  | symbol (char : Char)
  | value (value : SqlValue)
deriving DecidableEq, Repr

/-- The items of a list of tokens. -/
def items : List Token → Option (List Item)
  | [] => some []
  | .literal text :: tokens =>
      (items tokens).map (Item.value (.text text) :: ·)
  | .number text :: tokens =>
      if text.all Char.isDigit then
        (items tokens).map (Item.value (.number (readDigits text)) :: ·)
      else none
  | .operator ['-'] :: .number text :: tokens =>
      if text.all Char.isDigit then
        (items tokens).map (Item.value (.number (-readDigits text)) :: ·)
      else none
  | .word text :: tokens => (items tokens).map (Item.word text :: ·)
  | .operator text :: tokens => (items tokens).map (Item.operator text :: ·)
  | .symbol char :: tokens => (items tokens).map (Item.symbol char :: ·)
  | _ => none

/-- The assignments, and what is behind them. -/
def readAssignments :
    List Item → Option (List (List Char × SqlValue) × List Item)
  | .word column :: .operator ['='] :: .value value :: .symbol ',' :: rest =>
      (readAssignments rest).map fun read =>
        ((column, value) :: read.1, read.2)
  | .word column :: .operator ['='] :: .value value :: rest =>
      some ([(column, value)], rest)
  | _ => none

/-- The condition behind the assignments. -/
def readWhere : List Item → Option (List Char × SqlValue)
  | [.word keyword, .word column, .operator ['='], .value value] =>
      if keyword = "WHERE".toList then some (column, value) else none
  | _ => none

/-- The statement that the items are. -/
def readUpdate : List Item → Option Update
  | .word update :: .word table :: .word set :: rest =>
      if update = "UPDATE".toList ∧ set = "SET".toList then
        (readAssignments rest).bind fun read =>
          (readWhere read.2).map fun condition =>
            { table := table
              assignments := read.1
              column := condition.1
              value := condition.2 }
      else none
  | _ => none

/-- The statement that a text is. -/
def parseUpdate (backslash : Bool) (text : List Char) : Option Update :=
  ((tokenize backslash text).bind items).bind readUpdate

/-! ## Scanning what was written -/

variable {backslash : Bool} {tokens : List Token} {name : List Char}
  {char : Char} {value : SqlValue} {equation : List Char × SqlValue}
  {assignments : List (List Char × SqlValue)}

/-- A name that needs no quotes, or a keyword. -/
def IsName (name : List Char) : Prop :=
  name.head?.any isWordStart = true ∧ ∀ char ∈ name, isWordChar char = true

instance (name : List Char) : Decidable (IsName name) :=
  decidable_of_iff
    (name.head?.any isWordStart = true ∧ name.all isWordChar = true)
    (and_congr_right' List.all_eq_true)

/-- A letter is neither a blank nor a quote. -/
theorem enter_isWordStart (letter : isWordStart char = true) :
    enter tokens char = ⟨tokens, .word [char]⟩ := by
  have others : isBlank char = false ∧ char ≠ '\'' ∧ char ≠ '"' := by
    refine ⟨?_, ?_, ?_⟩
    · rw [Bool.eq_false_iff]
      intro blank
      simp only [isBlank, Bool.or_eq_true, beq_iff_eq] at blank
      rcases blank with ((rfl | rfl) | rfl) | rfl
      all_goals exact absurd letter (by decide)
    · rintro rfl
      exact absurd letter (by decide)
    · rintro rfl
      exact absurd letter (by decide)
  rcases others with ⟨blank, single, double⟩
  rw [enter, if_neg (Bool.eq_false_iff.mp blank), if_neg single,
    if_neg double, if_pos letter]

theorem run_word {text : List Char}
    (chars : ∀ char ∈ name, isWordChar char = true) :
    run backslash ⟨tokens, .word text⟩ name = ⟨tokens, .word (text ++ name)⟩ := by
  induction name generalizing text with
  | nil =>
      rw [List.append_nil]
      rfl
  | cons char name induction =>
      rw [List.forall_mem_cons] at chars
      have read : step backslash ⟨tokens, .word text⟩ char =
          ⟨tokens, .word (text ++ [char])⟩ :=
        if_pos chars.1
      rw [run_cons, read, induction chars.2, List.append_assoc]
      rfl

theorem scans_wordText (named : IsName name) :
    Scans backslash (wordText name) [.word name] := by
  rcases named with ⟨letter, chars⟩
  cases name with
  | nil => cases letter
  | cons char rest =>
      rw [Scans, wordText, List.cons_append, run_cons]
      show run backslash (enter [] char) (rest ++ [' ']) = _
      rw [enter_isWordStart letter, run_append,
        run_word (List.forall_mem_cons.mp chars).2]
      rfl

/-- The tokens of `column = value`. -/
def equationTokens (equation : List Char × SqlValue) : List Token :=
  [.word equation.1, .operator ['=']] ++ valueTokens equation.2

theorem run_equationText (named : IsName equation.1) :
    run backslash ⟨tokens, .ground⟩ (equationText backslash equation) =
      openScan (tokens ++ [.word equation.1, .operator ['=']])
        equation.2 := by
  have equals : Scans backslash ['=', ' '] [.operator ['=']] :=
    rfl
  have front : Scans backslash _ _ := (scans_wordText named).append equals
  rw [equationText, run_append, run_part front, run_valueText_open]
  rfl

/-- An equation and the character that ends it. -/
theorem scans_equationText
    {ended : List Token}
    (named : IsName equation.1)
    (noQuote : char ≠ '\'')
    (noNumber : isNumberChar char = false)
    (ends : ∀ tokens, enter tokens char = ⟨tokens ++ ended, .ground⟩) :
    Scans backslash (equationText backslash equation ++ [char])
      (equationTokens equation ++ ended) := by
  rw [Scans, run_append, start, run_equationText named, run_cons, run_nil,
    step_openScan noQuote noNumber, ends]
  rfl

/-- The tokens of assignments. -/
def assignmentsTokens : List (List Char × SqlValue) → List Token
  | [] => []
  | [assignment] => equationTokens assignment
  | assignment :: assignments =>
      equationTokens assignment ++ [.symbol ','] ++
        assignmentsTokens assignments

theorem scans_assignmentsText
    (nonempty : assignments ≠ [])
    (named : ∀ assignment ∈ assignments, IsName assignment.1) :
    Scans backslash (assignmentsText backslash assignments ++ [' '])
      (assignmentsTokens assignments) := by
  induction assignments with
  | nil => exact (nonempty rfl).elim
  | cons assignment assignments induction =>
      rw [List.forall_mem_cons] at named
      cases assignments with
      | nil =>
          have only : Scans backslash
              (equationText backslash assignment ++ [' '])
              (equationTokens assignment ++ []) := by
            apply scans_equationText named.1
            · decide
            · decide
            · intro tokens
              rw [List.append_nil]
              rfl
          rw [List.append_nil] at only
          exact only
      | cons next assignments =>
          have first : Scans backslash
              (equationText backslash assignment ++ [','])
              (equationTokens assignment ++ [.symbol ',']) := by
            apply scans_equationText named.1
            · decide
            · decide
            · exact fun _ => rfl
          have blank : Scans backslash [' '] [] :=
            rfl
          have whole := (first.append blank).append
            (induction (List.cons_ne_nil next assignments) named.2)
          rw [List.append_nil] at whole
          show Scans backslash ((equationText backslash assignment ++
            [','] ++ [' '] ++ assignmentsText backslash (next :: assignments))
              ++ [' ']) (equationTokens assignment ++ [.symbol ','] ++
                assignmentsTokens (next :: assignments))
          rw [List.append_assoc]
          exact whole

/-- The tokens of a statement. -/
def updateTokens (statement : Update) : List Token :=
  [.word "UPDATE".toList, .word statement.table, .word "SET".toList] ++
    assignmentsTokens statement.assignments ++ [.word "WHERE".toList] ++
    equationTokens (statement.column, statement.value)

/-- A statement that sets something, with names that need no quotes. -/
structure Update.IsPlain (statement : Update) : Prop where
  table : IsName statement.table
  nonempty : statement.assignments ≠ []
  assigned : ∀ assignment ∈ statement.assignments, IsName assignment.1
  column : IsName statement.column

theorem tokenize_updateText
    {statement : Update} (plain : statement.IsPlain) :
    tokenize backslash (updateText backslash statement) =
      some (updateTokens statement) := by
  have keyword : ∀ word ∈ ["UPDATE", "SET", "WHERE"],
      IsName word.toList := by
    decide
  simp only [List.forall_mem_cons] at keyword
  rcases keyword with ⟨update, set, where_, -⟩
  have front : Scans backslash _ _ :=
    (((((scans_wordText update).append (scans_wordText plain.table)).append
      (scans_wordText set)).append
        (scans_assignmentsText plain.nonempty plain.assigned)).append
          (scans_wordText where_))
  have equation : IsName (statement.column, statement.value).1 :=
    plain.column
  rw [tokenize, updateText, run_append, front, run_equationText equation,
    finish_openScan, List.append_assoc]
  rfl

/-! ## Reading what was written -/

theorem items_valueTokens :
    items (valueTokens value ++ tokens) =
      (items tokens).map (Item.value value :: ·) := by
  match value with
  | .text data => rfl
  | .number (.ofNat number) =>
      show items (.number (Nat.toDigits 10 number) :: tokens) = _
      rw [items, if_pos (SqlText.all_isDigit_toDigits number), readDigits_toDigits]
  | .number (.negSucc number) =>
      show items (.operator ['-'] ::
        .number (Nat.toDigits 10 (number + 1)) :: tokens) = _
      rw [items, if_pos (SqlText.all_isDigit_toDigits (number + 1)),
        readDigits_toDigits]
      rfl

/-- The items of `column = value`. -/
def equationItems (equation : List Char × SqlValue) : List Item :=
  [.word equation.1, .operator ['='], .value equation.2]

theorem items_equationTokens :
    items (equationTokens equation ++ tokens) =
      (items tokens).map (equationItems equation ++ ·) := by
  show items (.word equation.1 :: .operator ['='] ::
    (valueTokens equation.2 ++ tokens)) = _
  have behind := @items_valueTokens tokens equation.2
  rw [items, items]
  · rw [behind, Option.map_map, Option.map_map]
    rfl
  · exact nofun

/-- The items of assignments. -/
def assignmentsItems : List (List Char × SqlValue) → List Item
  | [] => []
  | [assignment] => equationItems assignment
  | assignment :: assignments =>
      equationItems assignment ++ [.symbol ','] ++
        assignmentsItems assignments

theorem items_assignmentsTokens :
    items (assignmentsTokens assignments ++ tokens) =
      (items tokens).map (assignmentsItems assignments ++ ·) := by
  induction assignments with
  | nil =>
      show items tokens = (items tokens).map fun items => items
      rw [Option.map_id']
  | cons assignment assignments induction =>
      cases assignments with
      | nil => exact items_equationTokens
      | cons next assignments =>
          show items (equationTokens assignment ++ [.symbol ','] ++
            assignmentsTokens (next :: assignments) ++ tokens) = _
          rw [List.append_assoc, List.append_assoc, items_equationTokens]
          show ((items (assignmentsTokens (next :: assignments) ++
            tokens)).map _).map _ = _
          rw [induction, Option.map_map, Option.map_map]
          rfl

theorem readAssignments_assignmentsItems
    {rest : List Item} {text : List Char}
    (nonempty : assignments ≠ []) :
    readAssignments (assignmentsItems assignments ++ .word text :: rest) =
      some (assignments, .word text :: rest) := by
  induction assignments with
  | nil => exact (nonempty rfl).elim
  | cons assignment assignments induction =>
      cases assignments with
      | nil => rfl
      | cons next assignments =>
          have behind := induction (List.cons_ne_nil next assignments)
          show (readAssignments (assignmentsItems (next :: assignments) ++
            .word text :: rest)).map _ = _
          rw [behind]
          rfl

/-- A written statement is read as what was written. -/
theorem parseUpdate_updateText
    {statement : Update} (plain : statement.IsPlain) :
    parseUpdate backslash (updateText backslash statement) =
      some statement := by
  have condition : items (.word "WHERE".toList ::
      equationTokens (statement.column, statement.value)) =
        some (.word "WHERE".toList ::
          equationItems (statement.column, statement.value)) := by
    have read := @items_equationTokens [] (statement.column, statement.value)
    rw [List.append_nil] at read
    rw [items, read]
    rfl
  have found : items (updateTokens statement) =
      some (.word "UPDATE".toList :: .word statement.table ::
        .word "SET".toList :: (assignmentsItems statement.assignments ++
          .word "WHERE".toList ::
            equationItems (statement.column, statement.value))) := by
    rw [updateTokens, List.append_assoc, List.append_assoc]
    show (((items (assignmentsTokens statement.assignments ++
      .word "WHERE".toList ::
        equationTokens (statement.column, statement.value))).map _).map
          _).map _ = _
    rw [items_assignmentsTokens, condition]
    rfl
  rw [parseUpdate, tokenize_updateText plain, Option.bind_some, found,
    Option.bind_some, readUpdate, if_pos ⟨rfl, rfl⟩,
    readAssignments_assignmentsItems plain.nonempty]
  rfl

end Limestone.Library.SqlUpdate
