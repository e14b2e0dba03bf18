import Limestone.Library.SqlScan
import Limestone.Library.SqlText
import Mathlib.Data.List.Basic

/-!
# `INSERT` statements as texts

A text value is written as a literal with its quotes doubled, and its
backslashes where they escape; a number is written with its digits.  Scanning
a written value gives it back, so that the rows of a statement are those that
were written.
-/

namespace Limestone.Library.SqlInsert

open SqlScan

/-- A value of a row. -/
inductive SqlValue where
  | number (value : Int)
  | text (value : List Char)
deriving DecidableEq, Repr

/-! ## Writing values -/

/-- The characters of a literal. -/
def escape (backslash : Bool) (text : List Char) : List Char :=
  text.flatMap fun char =>
    if char = '\'' ∨ backslash = true ∧ char = '\\' then [char, char]
    else [char]

/-- The text of a value. -/
def valueText (backslash : Bool) : SqlValue → List Char
  | .number value => (toString value).toList
  | .text value => '\'' :: escape backslash value ++ ['\'']

/-- The text of values between parentheses, behind the first of these. -/
def rowText (backslash : Bool) (gap : List Char) : List SqlValue → List Char
  | [] => [')']
  | [value] => valueText backslash value ++ [')']
  | value :: values =>
      valueText backslash value ++ [','] ++ gap ++ rowText backslash gap values

/-! ## Reading tokens -/

/-- A value or a symbol. -/
inductive Cell where
  | value (value : SqlValue)
  | symbol (char : Char)
deriving DecidableEq, Repr

/-- The number of some digits. -/
def readDigits (text : List Char) : Int :=
  Int.ofNat (Nat.ofDigitChars 10 text 0)

/-- The values and symbols of a list of tokens. -/
def cells : List Token → Option (List Cell)
  | [] => some []
  | .literal text :: tokens =>
      (cells tokens).map (Cell.value (.text text) :: ·)
  | .number text :: tokens =>
      if text.all Char.isDigit then
        (cells tokens).map (Cell.value (.number (readDigits text)) :: ·)
      else none
  | .operator ['-'] :: .number text :: tokens =>
      if text.all Char.isDigit then
        (cells tokens).map (Cell.value (.number (-readDigits text)) :: ·)
      else none
  | .symbol char :: tokens => (cells tokens).map (Cell.symbol char :: ·)
  | _ => none

/-- The rows behind the first parenthesis. -/
def readRows (done : List (List SqlValue)) (row : List SqlValue) :
    List Cell → Option (List (List SqlValue))
  | [.value value, .symbol ')'] => some (done ++ [row ++ [value]])
  | .value value :: .symbol ')' :: .symbol ',' :: .symbol '(' :: rest =>
      readRows (done ++ [row ++ [value]]) [] rest
  | .value value :: .symbol ',' :: rest => readRows done (row ++ [value]) rest
  | _ => none

/-- An `INSERT INTO .. (..) VALUES ..`. -/
structure Insert where
  table : List Char
  columns : List (List Char)
  rows : List (List SqlValue)
deriving DecidableEq, Repr

/-- The names of the columns, and the tokens behind them. -/
def readColumns : List Token → Option (List (List Char) × List Token)
  | .word column :: .symbol ')' :: tokens => some ([column], tokens)
  | .word column :: .symbol ',' :: tokens =>
      (readColumns tokens).map fun read => (column :: read.1, read.2)
  | _ => none

/-- The statement that the tokens are. -/
def readInsert : List Token → Option Insert
  | .word insert :: .word into :: .word table :: .symbol '(' :: tokens =>
      if insert = "INSERT".toList ∧ into = "INTO".toList then
        match readColumns tokens with
        | some (columns, .word values :: .symbol '(' :: tokens) =>
            if values = "VALUES".toList then
              (cells tokens).bind fun cells =>
                (readRows [] [] cells).map fun rows =>
                  { table := table, columns := columns, rows := rows }
            else none
        | _ => none
      else none
  | _ => none

/-- The statement that a text is. -/
def parseInsert (backslash : Bool) (text : List Char) : Option Insert :=
  (tokenize backslash text).bind readInsert

/-! ## Scanning what was written -/

variable {backslash : Bool} {tokens : List Token} {text data : List Char}
  {value : SqlValue} {values : List SqlValue} {char : Char}
  {gap : List Char}

/-- An escaped text is read as the text, inside a literal. -/
theorem run_escape :
    run backslash ⟨tokens, .literal text⟩ (escape backslash data) =
      ⟨tokens, .literal (text ++ data)⟩ := by
  induction data generalizing text with
  | nil => simp [escape]
  | cons char data induction =>
      rw [escape, List.flatMap_cons, run_append]
      have read : run backslash ⟨tokens, .literal text⟩
          (if char = '\'' ∨ backslash = true ∧ char = '\\' then [char, char]
            else [char]) = ⟨tokens, .literal (text ++ [char])⟩ := by
        by_cases quote : char = '\''
        · rcases quote with rfl
          rfl
        · by_cases escapes : backslash = true ∧ char = '\\'
          · rcases escapes with ⟨rfl, rfl⟩
            rfl
          · rw [if_neg (not_or.mpr ⟨quote, escapes⟩)]
            show (if char = '\'' then _ else if backslash = true ∧ char = '\\'
              then _ else _) = _
            rw [if_neg quote, if_neg escapes]
      rw [read]
      show run backslash _ (escape backslash data) = _
      rw [induction, List.append_assoc]
      rfl

/-- The tokens of a value. -/
def valueTokens : SqlValue → List Token
  | .text value => [.literal value]
  | .number (.ofNat value) => [.number (Nat.toDigits 10 value)]
  | .number (.negSucc value) =>
      [.operator ['-'], .number (Nat.toDigits 10 (value + 1))]

/-- A digit after a minus begins a number. -/
theorem run_minus (numeral : IsNumeral text) :
    run backslash ⟨tokens, .ground⟩ ('-' :: text) =
      ⟨tokens ++ [.operator ['-']], .number text⟩ := by
  rw [run_cons]
  show run backslash ⟨tokens, .operator ['-']⟩ text = _
  exact run_operator_numeral numeral

/-- The scan behind a value that nothing has ended yet. -/
def openScan (tokens : List Token) : SqlValue → Scan
  | .text value => ⟨tokens, .literalEnd value⟩
  | .number (.ofNat value) => ⟨tokens, .number (Nat.toDigits 10 value)⟩
  | .number (.negSucc value) =>
      ⟨tokens ++ [.operator ['-']], .number (Nat.toDigits 10 (value + 1))⟩

theorem run_valueText_open :
    run backslash ⟨tokens, .ground⟩ (valueText backslash value) =
      openScan tokens value := by
  match value with
  | .text data =>
      rw [valueText, List.cons_append, run_cons]
      show run backslash ⟨tokens, .literal []⟩ _ = _
      rw [run_append, run_escape]
      rfl
  | .number (.ofNat number) =>
      have written : valueText backslash (.number (.ofNat number)) =
          Nat.toDigits 10 number :=
        Nat.toList_repr
      rw [written, run_numeral (isNumeral_toDigits number) rfl]
      rfl
  | .number (.negSucc number) =>
      have written : valueText backslash (.number (.negSucc number)) =
          '-' :: Nat.toDigits 10 (number + 1) := by
        show ("-" ++ Nat.repr (number + 1)).toList = _
        simp
      rw [written, run_minus (isNumeral_toDigits (number + 1))]
      rfl

/-- What is neither a quote nor part of a number ends a value. -/
theorem step_openScan
    (noQuote : char ≠ '\'')
    (noNumber : isNumberChar char = false) :
    step backslash (openScan tokens value) char =
      enter (tokens ++ valueTokens value) char := by
  match value with
  | .text data =>
      show (if char = '\'' then _ else _) = _
      rw [if_neg noQuote]
      rfl
  | .number (.ofNat number) =>
      show (if isNumberChar char = true then _ else _) = _
      rw [if_neg (Bool.eq_false_iff.mp noNumber)]
      rfl
  | .number (.negSucc number) =>
      show (if isNumberChar char = true then _ else
        enter (tokens ++ [.operator ['-']] ++ [.number _]) char) = _
      rw [if_neg (Bool.eq_false_iff.mp noNumber), List.append_assoc]
      rfl

/-- A value may be the end of a text. -/
theorem finish_openScan :
    finish (openScan tokens value) = some (tokens ++ valueTokens value) := by
  match value with
  | .text data => rfl
  | .number (.ofNat number) => rfl
  | .number (.negSucc number) =>
      show some ((tokens ++ _) ++ _) = _
      rw [List.append_assoc]
      rfl

/-- A value and the character that ends it. -/
theorem scans_valueText_ended
    {ended : List Token}
    (noQuote : char ≠ '\'')
    (noNumber : isNumberChar char = false)
    (ends : ∀ tokens, enter tokens char = ⟨tokens ++ ended, .ground⟩) :
    Scans backslash (valueText backslash value ++ [char])
      (valueTokens value ++ ended) := by
  rw [Scans, run_append, start, run_valueText_open, run_cons, run_nil,
    step_openScan noQuote noNumber, ends]
  rfl

/-- A comma or the parenthesis at the end of a row. -/
def IsEnd (char : Char) : Prop :=
  char = ',' ∨ char = ')'

/-- A written value and what ends it. -/
theorem run_valueText (ends : IsEnd char) :
    run backslash ⟨tokens, .ground⟩ (valueText backslash value ++ [char]) =
      ⟨tokens ++ (valueTokens value ++ [.symbol char]), .ground⟩ := by
  rw [run_append, run_valueText_open, run_cons, run_nil, ← List.append_assoc]
  rcases ends with rfl | rfl
  · exact step_openScan (by decide) (by decide)
  · exact step_openScan (by decide) (by decide)

/-- The tokens of a row behind its parenthesis. -/
def rowTokens : List SqlValue → List Token
  | [] => [.symbol ')']
  | [value] => valueTokens value ++ [.symbol ')']
  | value :: values =>
      valueTokens value ++ [.symbol ','] ++ rowTokens values

theorem scans_valueText (ends : IsEnd char) :
    Scans backslash (valueText backslash value ++ [char])
      (valueTokens value ++ [.symbol char]) :=
  run_valueText ends

theorem scans_rowText
    (blank : Scans backslash gap []) (nonempty : values ≠ []) :
    Scans backslash (rowText backslash gap values) (rowTokens values) := by
  induction values with
  | nil => exact (nonempty rfl).elim
  | cons value values induction =>
      cases values with
      | nil => exact scans_valueText (Or.inr rfl)
      | cons next values =>
          have first : Scans backslash
              (valueText backslash value ++ [','] ++ gap)
              (valueTokens value ++ [.symbol ','] ++ []) :=
            (scans_valueText (Or.inl rfl)).append blank
          rw [List.append_nil] at first
          exact first.append (induction (List.cons_ne_nil next values))

/-! ## Reading what was written -/

theorem readDigits_toDigits (number : Nat) :
    readDigits (Nat.toDigits 10 number) = Int.ofNat number := by
  rw [readDigits, Nat.ofDigitChars_ten_toDigits]

theorem cells_valueTokens :
    cells (valueTokens value ++ tokens) =
      (cells tokens).map (Cell.value value :: ·) := by
  match value with
  | .text data => rfl
  | .number (.ofNat number) =>
      show cells (.number (Nat.toDigits 10 number) :: tokens) = _
      rw [cells, if_pos (SqlText.all_isDigit_toDigits number), readDigits_toDigits]
  | .number (.negSucc number) =>
      show cells (.operator ['-'] ::
        .number (Nat.toDigits 10 (number + 1)) :: tokens) = _
      rw [cells, if_pos (SqlText.all_isDigit_toDigits (number + 1)),
        readDigits_toDigits]
      rfl

/-- The cells of a row behind its parenthesis. -/
def rowCells : List SqlValue → List Cell
  | [] => [.symbol ')']
  | [value] => [.value value, .symbol ')']
  | value :: values => .value value :: .symbol ',' :: rowCells values

theorem cells_rowTokens (nonempty : values ≠ []) :
    cells (rowTokens values ++ tokens) =
      (cells tokens).map (rowCells values ++ ·) := by
  induction values with
  | nil => exact (nonempty rfl).elim
  | cons value values induction =>
      cases values with
      | nil =>
          rw [rowTokens, List.append_assoc, cells_valueTokens]
          show ((cells tokens).map _).map _ = _
          rw [Option.map_map]
          rfl
      | cons next values =>
          rw [rowTokens, List.append_assoc, List.append_assoc,
            cells_valueTokens]
          show ((cells (rowTokens (next :: values) ++ tokens)).map _).map _ = _
          rw [induction (List.cons_ne_nil next values), Option.map_map,
            Option.map_map]
          rfl
          exact nofun

/-! ## Rows and statements -/

/-- Rows with their parentheses, behind the first of these. -/
def rowsText (backslash : Bool) (gap : List Char) :
    List (List SqlValue) → List Char
  | [] => []
  | [row] => rowText backslash gap row
  | row :: rows =>
      rowText backslash gap row ++ [',', '('] ++ rowsText backslash gap rows

/-- The tokens of rows behind the first parenthesis. -/
def rowsTokens : List (List SqlValue) → List Token
  | [] => []
  | [row] => rowTokens row
  | row :: rows =>
      rowTokens row ++ [.symbol ',', .symbol '('] ++ rowsTokens rows

/-- The cells of rows behind the first parenthesis. -/
def rowsCells : List (List SqlValue) → List Cell
  | [] => []
  | [row] => rowCells row
  | row :: rows =>
      rowCells row ++ .symbol ',' :: .symbol '(' :: rowsCells rows

variable {rows done : List (List SqlValue)} {row : List SqlValue}
  {table : List Char} {columns : List (List Char)}

theorem scans_rowsText
    (blank : Scans backslash gap [])
    (filled : ∀ row ∈ rows, row ≠ []) :
    Scans backslash (rowsText backslash gap rows) (rowsTokens rows) := by
  induction rows with
  | nil => rfl
  | cons row rows induction =>
      rw [List.forall_mem_cons] at filled
      have first := scans_rowText blank filled.1
      cases rows with
      | nil => exact first
      | cons next rows =>
          have between : Scans backslash [',', '(']
              [.symbol ',', .symbol '('] :=
            rfl
          exact (first.append between).append (induction filled.2)

/-- Every further row follows a comma. -/
theorem rowsText_cons :
    rowsText backslash gap (row :: rows) =
      rowText backslash gap row ++
        rows.flatMap fun row => ',' :: '(' :: rowText backslash gap row := by
  induction rows generalizing row with
  | nil => exact (List.append_nil _).symm
  | cons next rows induction =>
      show rowText backslash gap row ++ [',', '('] ++
        rowsText backslash gap (next :: rows) = _
      rw [induction, List.append_assoc]
      rfl

/-- What is in the text of rows is in one of them. -/
theorem mem_rowsText (noComma : char ≠ ',') (noBracket : char ≠ '(') :
    char ∈ rowsText backslash gap rows ↔
      ∃ row ∈ rows, char ∈ rowText backslash gap row := by
  cases rows with
  | nil => simp [rowsText]
  | cons row rows =>
      rw [rowsText_cons, List.mem_append, List.mem_flatMap]
      simp [noComma, noBracket]

theorem cells_rowsTokens (filled : ∀ row ∈ rows, row ≠ []) :
    cells (rowsTokens rows) = some (rowsCells rows) := by
  induction rows with
  | nil => rfl
  | cons row rows induction =>
      rw [List.forall_mem_cons] at filled
      cases rows with
      | nil =>
          have read : cells (rowTokens row ++ []) =
              (cells []).map (rowCells row ++ ·) :=
            cells_rowTokens filled.1
          rw [List.append_nil] at read
          rw [rowsTokens, read, rowsCells]
          exact congrArg some (List.append_nil _)
      | cons next rows =>
          rw [rowsTokens, List.append_assoc, cells_rowTokens filled.1]
          · show ((((cells (rowsTokens (next :: rows))).map _).map _).map _) = _
            rw [induction filled.2]
            rfl
          · exact nofun

/-- The last row is read to its end. -/
theorem readRows_rowCells (nonempty : values ≠ []) :
    readRows done row (rowCells values) = some (done ++ [row ++ values]) := by
  induction values generalizing row with
  | nil => exact (nonempty rfl).elim
  | cons value values induction =>
      cases values with
      | nil => rfl
      | cons next values =>
          rw [rowCells, readRows, induction (List.cons_ne_nil next values),
            List.append_assoc]
          · rfl
          · exact nofun

theorem readRows_append (nonempty : values ≠ []) {rest : List Cell} :
    readRows done row
        (rowCells values ++ .symbol ',' :: .symbol '(' :: rest) =
      readRows (done ++ [row ++ values]) [] rest := by
  induction values generalizing row with
  | nil => exact (nonempty rfl).elim
  | cons value values induction =>
      cases values with
      | nil => rfl
      | cons next values =>
          have other : readRows done (row ++ [value])
              (rowCells (next :: values) ++ .symbol ',' :: .symbol '(' :: rest)
                = readRows (done ++ [row ++ [value] ++ next :: values]) [] rest
              :=
            induction (List.cons_ne_nil next values)
          rw [List.append_assoc] at other
          exact other

/-- The rows that were written are read. -/
theorem readRows_rowsCells
    (nonempty : rows ≠ [])
    (filled : ∀ row ∈ rows, row ≠ []) :
    readRows done [] (rowsCells rows) = some (done ++ rows) := by
  induction rows generalizing done with
  | nil => exact (nonempty rfl).elim
  | cons row rows induction =>
      rw [List.forall_mem_cons] at filled
      cases rows with
      | nil => exact readRows_rowCells filled.1
      | cons next rows =>
          rw [rowsCells, readRows_append filled.1,
            induction (List.cons_ne_nil next rows) filled.2, List.append_assoc]
          · rfl
          · exact nofun

/-- The tokens of column names behind the parenthesis. -/
def columnTokens : List (List Char) → List Token
  | [] => []
  | [column] => [.word column, .symbol ')']
  | column :: columns => .word column :: .symbol ',' :: columnTokens columns

/-- The tokens of a statement before its rows. -/
def headTokens (table : List Char) (columns : List (List Char)) :
    List Token :=
  [.word "INSERT".toList, .word "INTO".toList, .word table, .symbol '('] ++
    columnTokens columns ++ [.word "VALUES".toList, .symbol '(']

theorem readColumns_columnTokens (nonempty : columns ≠ []) :
    readColumns (columnTokens columns ++ tokens) = some (columns, tokens) := by
  induction columns with
  | nil => exact (nonempty rfl).elim
  | cons column columns induction =>
      cases columns with
      | nil => rfl
      | cons next columns =>
          show (readColumns (columnTokens (next :: columns) ++ tokens)).map _
            = _
          rw [induction (List.cons_ne_nil next columns)]
          rfl

/-- A text with the tokens of a statement is read as the statement. -/
theorem parseInsert_of_scans
    (scans : Scans backslash text
      (headTokens table columns ++ rowsTokens rows))
    (named : columns ≠ [])
    (nonempty : rows ≠ [])
    (filled : ∀ row ∈ rows, row ≠ []) :
    parseInsert backslash text =
      some { table := table, columns := columns, rows := rows } := by
  rw [parseInsert, scans.tokenize_eq, headTokens, List.append_assoc,
    List.append_assoc]
  show readInsert (.word "INSERT".toList :: .word "INTO".toList ::
    .word table :: .symbol '(' :: (columnTokens columns ++
      .word "VALUES".toList :: .symbol '(' :: rowsTokens rows)) = _
  rw [readInsert, if_pos ⟨rfl, rfl⟩, readColumns_columnTokens named]
  show (if "VALUES".toList = "VALUES".toList then _ else _) = _
  rw [if_pos rfl, cells_rowsTokens filled]
  show (readRows [] [] (rowsCells rows)).map _ = _
  rw [readRows_rowsCells nonempty filled]
  rfl

/-- A written statement is read as what was written. -/
theorem parseInsert_rowsText
    {head : List Char}
    (blank : Scans backslash gap [])
    (scanned : Scans backslash head (headTokens table columns))
    (named : columns ≠ [])
    (nonempty : rows ≠ [])
    (filled : ∀ row ∈ rows, row ≠ []) :
    parseInsert backslash (head ++ rowsText backslash gap rows) =
      some { table := table, columns := columns, rows := rows } :=
  parseInsert_of_scans (scanned.append (scans_rowsText blank filled)) named
    nonempty filled

end Limestone.Library.SqlInsert
