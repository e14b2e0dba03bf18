import Limestone.Library.SqlText
import Mathlib.Data.List.Basic
import Mathlib.Tactic.Common

/-!
# The tokens of an SQL text

A scanner reads a text character by character.  Its state is the list of the
finished tokens and what it is in the middle of, so that a text made of parts
is scanned part by part.  Two texts have the same structure if their tokens
differ only inside string literals and numbers.

Escape strings (`E'..'`) and dollar quotes are left out.  Whether a backslash
escapes the next character of an ordinary literal is a setting of the server.
-/

namespace Limestone.Library.SqlScan

inductive Token where
  | word (text : List Char)
  | number (text : List Char)
  | literal (text : List Char)
  /-- A name in double quotes. -/
  | quoted (text : List Char)
  | operator (text : List Char)
  | symbol (char : Char)
deriving DecidableEq, Repr

/-- What the scanner is in the middle of. -/
inductive Mode where
  | ground
  | word (text : List Char)
  | number (text : List Char)
  | operator (text : List Char)
  | literal (text : List Char)
  /-- In a literal, after a backslash. -/
  | escape (text : List Char)
  /-- After a quote that ends the literal unless another one follows. -/
  | literalEnd (text : List Char)
  | quoted (text : List Char)
  | quotedEnd (text : List Char)
  | lineComment
  | blockComment (depth : Nat) (last : Char)
deriving DecidableEq, Repr

structure Scan where
  tokens : List Token
  mode : Mode
deriving DecidableEq, Repr

/-! ## The scanner -/

def isBlank (char : Char) : Bool :=
  char == ' ' || char == '\t' || char == '\n' || char == '\r'

/-- A letter; all characters beyond ASCII are letters. -/
def isWordStart (char : Char) : Bool :=
  char.isAlpha || char == '_' || decide (128 ≤ char.toNat)

def isWordChar (char : Char) : Bool :=
  isWordStart char || char.isDigit || char == '$'

def isNumberChar (char : Char) : Bool :=
  char.isDigit || char == '.'

def isOperator (char : Char) : Bool :=
  char ∈ ['+', '-', '*', '/', '<', '>', '=', '~', '!', '@', '#', '%', '^',
    '&', '|', '`', '?', ':']

/-- The first character of a token, or one between tokens. -/
def enter (tokens : List Token) (char : Char) : Scan :=
  if isBlank char then ⟨tokens, .ground⟩
  else if char = '\'' then ⟨tokens, .literal []⟩
  else if char = '"' then ⟨tokens, .quoted []⟩
  else if isWordStart char then ⟨tokens, .word [char]⟩
  else if char.isDigit then ⟨tokens, .number [char]⟩
  else if isOperator char then ⟨tokens, .operator [char]⟩
  else ⟨tokens ++ [.symbol char], .ground⟩

/-- The operator before the first character of a comment. -/
def operatorBefore (text : List Char) : List Token :=
  if text.dropLast = [] then [] else [.operator text.dropLast]

def step (backslash : Bool) (scan : Scan) (char : Char) : Scan :=
  match scan.mode with
  | .ground => enter scan.tokens char
  | .word text =>
      if isWordChar char then ⟨scan.tokens, .word (text ++ [char])⟩
      else enter (scan.tokens ++ [.word text]) char
  | .number text =>
      if isNumberChar char then ⟨scan.tokens, .number (text ++ [char])⟩
      else enter (scan.tokens ++ [.number text]) char
  | .operator text =>
      if char = '-' ∧ text.getLast? = some '-' then
        ⟨scan.tokens ++ operatorBefore text, .lineComment⟩
      else if char = '*' ∧ text.getLast? = some '/' then
        ⟨scan.tokens ++ operatorBefore text, .blockComment 1 ' '⟩
      else if isOperator char then
        ⟨scan.tokens, .operator (text ++ [char])⟩
      else enter (scan.tokens ++ [.operator text]) char
  | .literal text =>
      if char = '\'' then ⟨scan.tokens, .literalEnd text⟩
      else if backslash ∧ char = '\\' then ⟨scan.tokens, .escape text⟩
      else ⟨scan.tokens, .literal (text ++ [char])⟩
  | .escape text => ⟨scan.tokens, .literal (text ++ [char])⟩
  | .literalEnd text =>
      if char = '\'' then ⟨scan.tokens, .literal (text ++ ['\''])⟩
      else enter (scan.tokens ++ [.literal text]) char
  | .quoted text =>
      if char = '"' then ⟨scan.tokens, .quotedEnd text⟩
      else ⟨scan.tokens, .quoted (text ++ [char])⟩
  | .quotedEnd text =>
      if char = '"' then ⟨scan.tokens, .quoted (text ++ ['"'])⟩
      else enter (scan.tokens ++ [.quoted text]) char
  | .lineComment =>
      if char = '\n' then ⟨scan.tokens, .ground⟩ else scan
  | .blockComment depth last =>
      if last = '/' ∧ char = '*' then
        ⟨scan.tokens, .blockComment (depth + 1) ' '⟩
      else if last = '*' ∧ char = '/' then
        ⟨scan.tokens, if depth ≤ 1 then .ground
          else .blockComment (depth - 1) ' '⟩
      else ⟨scan.tokens, .blockComment depth char⟩

def run (backslash : Bool) (scan : Scan) (text : List Char) : Scan :=
  text.foldl (step backslash) scan

def start : Scan :=
  ⟨[], .ground⟩

/-- The tokens at the end of the text; `none` inside a literal or a comment. -/
def finish (scan : Scan) : Option (List Token) :=
  match scan.mode with
  | .ground | .lineComment => some scan.tokens
  | .word text => some (scan.tokens ++ [.word text])
  | .number text => some (scan.tokens ++ [.number text])
  | .operator text => some (scan.tokens ++ [.operator text])
  | .literalEnd text => some (scan.tokens ++ [.literal text])
  | .quotedEnd text => some (scan.tokens ++ [.quoted text])
  | .literal _ | .escape _ | .quoted _ | .blockComment _ _ => none

def tokenize (backslash : Bool) (text : List Char) : Option (List Token) :=
  finish (run backslash start text)

variable {backslash : Bool} {scan other : Scan} {text rest : List Char}
  {char : Char} {tokens : List Token} {mode : Mode}

@[simp]
theorem run_nil : run backslash scan [] = scan :=
  rfl

@[simp]
theorem run_cons :
    run backslash scan (char :: text) =
      run backslash (step backslash scan char) text :=
  rfl

theorem run_append :
    run backslash scan (text ++ rest) =
      run backslash (run backslash scan text) rest :=
  List.foldl_append

/-! ## Finished tokens stay -/

theorem enter_tokens (before : List Token) :
    enter (before ++ tokens) char =
      ⟨before ++ (enter tokens char).tokens, (enter tokens char).mode⟩ := by
  unfold enter
  repeat' split
  all_goals simp

theorem step_tokens (before : List Token) :
    step backslash ⟨before ++ tokens, mode⟩ char =
      ⟨before ++ (step backslash ⟨tokens, mode⟩ char).tokens,
        (step backslash ⟨tokens, mode⟩ char).mode⟩ := by
  cases mode
  all_goals
    simp only [step]
    repeat' split
  all_goals first
    | rfl
    | exact enter_tokens before
    | rw [List.append_assoc, enter_tokens]
    | rw [List.append_assoc]

/-- What was scanned before does not matter for the tokens that follow. -/
theorem run_tokens (before : List Token) :
    run backslash ⟨before ++ tokens, mode⟩ text =
      ⟨before ++ (run backslash ⟨tokens, mode⟩ text).tokens,
        (run backslash ⟨tokens, mode⟩ text).mode⟩ := by
  induction text generalizing tokens mode with
  | nil => rfl
  | cons char text induction =>
      rw [run_cons, step_tokens, induction]
      rfl

/-- A part of a text, from the ground to the ground. -/
theorem run_part
    {found : List Token}
    (part : run backslash start text = ⟨found, .ground⟩)
    (before : List Token) :
    run backslash ⟨before, .ground⟩ text = ⟨before ++ found, .ground⟩ := by
  have shifted : run backslash ⟨before ++ [], .ground⟩ text =
      ⟨before ++ (run backslash start text).tokens,
        (run backslash start text).mode⟩ :=
    run_tokens before
  rw [List.append_nil, part] at shifted
  exact shifted

/-- A text that is just these tokens and blanks. -/
def Scans (backslash : Bool) (text : List Char) (found : List Token) : Prop :=
  run backslash start text = ⟨found, .ground⟩

theorem Scans.append
    {found others : List Token}
    (first : Scans backslash text found)
    (second : Scans backslash rest others) :
    Scans backslash (text ++ rest) (found ++ others) := by
  unfold Scans
  rw [run_append, first]
  exact run_part second found

theorem Scans.tokenize_eq
    {found : List Token}
    (scans : Scans backslash text found) :
    tokenize backslash text = some found := by
  rw [tokenize, scans]
  rfl

/-! ## The structure of a text -/

/-- The token without what a literal or a number says. -/
def Token.outline : Token → Token
  | .literal _ => .literal []
  | .number _ => .number []
  | token => token

def Mode.outline : Mode → Mode
  | .number _ => .number []
  | .literal _ => .literal []
  | .escape _ => .escape []
  | .literalEnd _ => .literalEnd []
  | mode => mode

def Scan.outline (scan : Scan) : Scan :=
  ⟨scan.tokens.map Token.outline, scan.mode.outline⟩

/-- Two texts have the same tokens, apart from literals and numbers. -/
def SameStructure (backslash : Bool) (text other : List Char) : Prop :=
  (tokenize backslash text).map (List.map Token.outline) =
    (tokenize backslash other).map (List.map Token.outline)

@[simp]
theorem Token.outline_outline (token : Token) :
    token.outline.outline = token.outline := by
  cases token
  all_goals rfl

theorem enter_outline :
    (enter (tokens.map Token.outline) char).outline =
      (enter tokens char).outline := by
  unfold enter Scan.outline
  repeat' split
  all_goals simp

theorem enter_outline_congr
    {others : List Token}
    (alike : tokens.map Token.outline = others.map Token.outline) :
    (enter tokens char).outline = (enter others char).outline := by
  rw [← enter_outline, alike, enter_outline]

theorem map_outline_congr
    {others : List Token}
    (alike : tokens.map Token.outline = others.map Token.outline)
    {token otherToken : Token}
    (last : token.outline = otherToken.outline) :
    (tokens ++ [token]).map Token.outline =
      (others ++ [otherToken]).map Token.outline := by
  simp [alike, last]

/-- The next character is read alike whatever the literals say. -/
theorem step_outline
    (alike : scan.outline = other.outline) :
    (step backslash scan char).outline =
      (step backslash other char).outline := by
  rcases scan with ⟨tokens, mode⟩
  rcases other with ⟨others, otherMode⟩
  have sameTokens : tokens.map Token.outline = others.map Token.outline :=
    congrArg Scan.tokens alike
  have sameMode : mode.outline = otherMode.outline :=
    congrArg Scan.mode alike
  cases mode
  all_goals
    cases otherMode
    all_goals try exact (Mode.noConfusion sameMode : False).elim
  case ground.ground => exact enter_outline_congr sameTokens
  case word.word text otherText =>
    rcases Mode.word.inj sameMode with rfl
    simp only [step]
    split
    · simp [Scan.outline, sameTokens]
    · exact enter_outline_congr (map_outline_congr sameTokens rfl)
  case number.number text otherText =>
    simp only [step]
    split
    · simp [Scan.outline, sameTokens, Mode.outline]
    · exact enter_outline_congr (map_outline_congr sameTokens rfl)
  case operator.operator text otherText =>
    rcases Mode.operator.inj sameMode with rfl
    simp only [step]
    split
    · simp [Scan.outline, sameTokens]
    · split
      · simp [Scan.outline, sameTokens]
      · split
        · simp [Scan.outline, sameTokens]
        · exact enter_outline_congr (map_outline_congr sameTokens rfl)
  case literal.literal text otherText =>
    simp only [step]
    split
    · simp [Scan.outline, sameTokens, Mode.outline]
    · split
      · simp [Scan.outline, sameTokens, Mode.outline]
      · simp [Scan.outline, sameTokens, Mode.outline]
  case escape.escape text otherText =>
    simp [step, Scan.outline, sameTokens, Mode.outline]
  case literalEnd.literalEnd text otherText =>
    simp only [step]
    split
    · simp [Scan.outline, sameTokens, Mode.outline]
    · exact enter_outline_congr (map_outline_congr sameTokens rfl)
  case quoted.quoted text otherText =>
    rcases Mode.quoted.inj sameMode with rfl
    simp only [step]
    split
    · simp [Scan.outline, sameTokens]
    · simp [Scan.outline, sameTokens]
  case quotedEnd.quotedEnd text otherText =>
    rcases Mode.quotedEnd.inj sameMode with rfl
    simp only [step]
    split
    · simp [Scan.outline, sameTokens]
    · exact enter_outline_congr (map_outline_congr sameTokens rfl)
  case lineComment.lineComment =>
    simp only [step]
    split
    · simp [Scan.outline, sameTokens]
    · exact alike
  case blockComment.blockComment depth last otherDepth otherLast =>
    rcases Mode.blockComment.inj sameMode with ⟨rfl, rfl⟩
    simp only [step]
    split
    · simp [Scan.outline, sameTokens]
    · split
      · simp [Scan.outline, sameTokens]
      · simp [Scan.outline, sameTokens]

theorem run_outline
    (alike : scan.outline = other.outline) :
    (run backslash scan text).outline = (run backslash other text).outline := by
  induction text generalizing scan other with
  | nil => exact alike
  | cons char text induction =>
      rw [run_cons, run_cons]
      exact induction (step_outline alike)

theorem finish_outline
    (alike : scan.outline = other.outline) :
    (finish scan).map (List.map Token.outline) =
      (finish other).map (List.map Token.outline) := by
  rcases scan with ⟨tokens, mode⟩
  rcases other with ⟨others, otherMode⟩
  have sameTokens : tokens.map Token.outline = others.map Token.outline :=
    congrArg Scan.tokens alike
  have sameMode : mode.outline = otherMode.outline :=
    congrArg Scan.mode alike
  cases mode
  all_goals
    cases otherMode
    all_goals try exact (Mode.noConfusion sameMode : False).elim
  all_goals
    simp_all [finish, Mode.outline, Token.outline]

/-! ## Texts that are read alike -/

/-- Neither in a literal nor in a quoted name nor in a comment. -/
def Mode.outside : Mode → Bool
  | .ground | .word _ | .number _ | .operator _ | .quotedEnd _ => true
  | _ => false

/-- A character that ends whatever is outside literals, names and comments. -/
def isDelimiter (char : Char) : Bool :=
  isBlank char || char ∈ ['(', ')', ',', '[', ']']

/--
Scanned from places of the same structure outside literals, the texts lead to
places of the same structure outside literals.
-/
def Alike (backslash : Bool) (text other : List Char) : Prop :=
  ∀ scan otherScan : Scan, scan.outline = otherScan.outline →
    scan.mode.outside = true →
      (run backslash scan text).outline =
          (run backslash otherScan other).outline ∧
        (run backslash scan text).mode.outside = true

theorem outside_outline (mode : Mode) :
    mode.outline.outside = mode.outside := by
  cases mode
  all_goals rfl

theorem outside_of_outline
    (alike : scan.outline = other.outline)
    (outside : scan.mode.outside = true) :
    other.mode.outside = true := by
  have modes : scan.mode.outline = other.mode.outline :=
    congrArg Scan.mode alike
  rw [← outside_outline, ← modes, outside_outline]
  exact outside

theorem Alike.sameStructure
    (alike : Alike backslash text rest) :
    SameStructure backslash text rest :=
  finish_outline (alike start start rfl rfl).1

theorem alike_nil : Alike backslash [] [] :=
  fun _ _ same outside => ⟨same, outside⟩

theorem Alike.append
    {otherText otherRest : List Char}
    (first : Alike backslash text otherText)
    (second : Alike backslash rest otherRest) :
    Alike backslash (text ++ rest) (otherText ++ otherRest) := by
  intro scan otherScan same outside
  rcases first scan otherScan same outside with ⟨middle, stillOutside⟩
  rw [run_append, run_append]
  exact second _ _ middle stillOutside

theorem enter_delimiter
    (delimiter : isDelimiter char = true) :
    (enter tokens char).mode = .ground := by
  simp only [isDelimiter, Bool.or_eq_true, decide_eq_true_eq,
    List.mem_cons, List.not_mem_nil, or_false] at delimiter
  rcases delimiter with blank | rfl | rfl | rfl | rfl | rfl
  · simp [enter, blank]
  all_goals rfl

/-- A delimiter brings the scanner to the ground. -/
theorem step_delimiter
    (outside : scan.mode.outside = true)
    (delimiter : isDelimiter char = true) :
    (step backslash scan char).mode = .ground := by
  have notWord : isWordChar char = false ∧ isNumberChar char = false ∧
      isOperator char = false ∧ char ≠ '-' ∧ char ≠ '*' ∧ char ≠ '"' := by
    simp only [isDelimiter, isBlank, Bool.or_eq_true, beq_iff_eq,
      decide_eq_true_eq, List.mem_cons, List.not_mem_nil, or_false]
      at delimiter
    rcases delimiter with ((((rfl | rfl) | rfl) | rfl) | rfl | rfl | rfl | rfl |
      rfl)
    all_goals decide
  rcases notWord with ⟨word, number, operator, minus, star, quote⟩
  rcases scan with ⟨tokens, mode⟩
  cases mode
  all_goals try exact (Bool.noConfusion outside : False).elim
  case ground => exact enter_delimiter delimiter
  case word text => simp [step, word, enter_delimiter delimiter]
  case number text => simp [step, number, enter_delimiter delimiter]
  case operator text =>
    simp [step, minus, star, operator, enter_delimiter delimiter]
  case quotedEnd text => simp [step, quote, enter_delimiter delimiter]

/-- On the ground, what was read before does not matter. -/
theorem run_ground
    (grounded : scan.mode = .ground) :
    (run backslash scan text).mode = (run backslash start text).mode := by
  rcases scan with ⟨tokens, mode⟩
  rcases grounded with rfl
  have shifted : run backslash ⟨tokens ++ [], .ground⟩ text =
      ⟨tokens ++ (run backslash start text).tokens,
        (run backslash start text).mode⟩ :=
    run_tokens tokens
  rw [List.append_nil] at shifted
  rw [shifted]

/-- One text after a delimiter, if it ends outside. -/
theorem alike_same
    (delimiter : isDelimiter char = true)
    (closed : (run backslash start text).mode.outside = true) :
    Alike backslash (char :: text) (char :: text) := by
  intro scan otherScan same outside
  refine ⟨run_outline same, ?_⟩
  rw [run_cons, run_ground (step_delimiter outside delimiter)]
  exact closed

/-! ## Parts that may differ -/

/-- The text does not end the literal that it stands in. -/
def StaysInside (backslash : Bool) : List Char → Prop
  | [] => True
  | '\'' :: '\'' :: text => StaysInside backslash text
  | '\'' :: _ => False
  | '\\' :: [] => backslash = false
  | '\\' :: char :: text =>
      if backslash then StaysInside backslash text
      else StaysInside backslash (char :: text)
  | _ :: text => StaysInside backslash text

theorem run_staysInside
    (stays : StaysInside backslash rest)
    (tokens : List Token) (text : List Char) :
    ∃ whole, run backslash ⟨tokens, .literal text⟩ rest =
      ⟨tokens, .literal whole⟩ := by
  fun_induction StaysInside backslash rest generalizing text
  case case1 => exact ⟨text, rfl⟩
  case case2 rest induction =>
    rcases induction stays (text ++ ['\'']) with ⟨whole, runs⟩
    exact ⟨whole, by simpa [step] using runs⟩
  case case3 => exact stays.elim
  case case4 =>
    rw [stays]
    exact ⟨text ++ ['\\'], by simp [step]⟩
  case case5 char rest escapes induction =>
    rcases induction stays (text ++ [char]) with ⟨whole, runs⟩
    exact ⟨whole, by simpa [step, escapes] using runs⟩
  case case6 char rest plain induction =>
    rcases induction stays (text ++ ['\\']) with ⟨whole, runs⟩
    refine ⟨whole, ?_⟩
    rw [run_cons]
    have read : step backslash ⟨tokens, .literal text⟩ '\\' =
        ⟨tokens, .literal (text ++ ['\\'])⟩ := by
      simp [step, plain]
    rw [read]
    exact runs
  case case7 char rest _ notQuote notLast notEscape induction =>
    have notBackslash : char ≠ '\\' := by
      intro same
      cases rest with
      | nil => exact notLast same rfl
      | cons next rest => exact notEscape next rest same rfl
    rcases induction stays (text ++ [char]) with ⟨whole, runs⟩
    refine ⟨whole, ?_⟩
    rw [run_cons]
    have read : step backslash ⟨tokens, .literal text⟩ char =
        ⟨tokens, .literal (text ++ [char])⟩ := by
      have other : char ≠ '\'' := notQuote
      simp [step, other, notBackslash]
    rw [read]
    exact runs

/-- A text without quotes and backslashes does not end a literal. -/
theorem staysInside_of_plain
    (plain : ∀ char ∈ text, char ≠ '\'' ∧ char ≠ '\\') :
    StaysInside backslash text := by
  induction text with
  | nil => trivial
  | cons char text induction =>
      simp only [List.mem_cons, forall_eq_or_imp] at plain
      have rest := induction plain.2
      rcases plain.1 with ⟨quote, escape⟩
      unfold StaysInside
      split
      case h_1 => exact trivial
      case h_2 same => exact (quote (List.cons.inj same).1).elim
      case h_3 same => exact (quote (List.cons.inj same).1).elim
      case h_4 same => exact (escape (List.cons.inj same).1).elim
      case h_5 same => exact (escape (List.cons.inj same).1).elim
      case h_6 same =>
        rw [← (List.cons.inj same).2]
        exact rest

theorem run_literal
    (plain : ∀ char ∈ rest, char ≠ '\'' ∧ char ≠ '\\') :
    run backslash ⟨tokens, .literal text⟩ rest =
      ⟨tokens, .literal (text ++ rest)⟩ := by
  induction rest generalizing text with
  | nil => simp
  | cons char rest induction =>
      simp only [List.mem_cons, forall_eq_or_imp] at plain
      have read : step backslash ⟨tokens, .literal text⟩ char =
          ⟨tokens, .literal (text ++ [char])⟩ := by
        simp [step, plain.1.1, plain.1.2]
      rw [run_cons, read, induction plain.2, List.append_assoc]
      rfl

theorem run_quoted
    (plain : ∀ char ∈ rest, char ≠ '"') :
    run backslash ⟨tokens, .quoted text⟩ rest =
      ⟨tokens, .quoted (text ++ rest)⟩ := by
  induction rest generalizing text with
  | nil => simp
  | cons char rest induction =>
      simp only [List.mem_cons, forall_eq_or_imp] at plain
      have read : step backslash ⟨tokens, .quoted text⟩ char =
          ⟨tokens, .quoted (text ++ [char])⟩ := by
        simp [step, plain.1]
      rw [run_cons, read, induction plain.2, List.append_assoc]
      rfl

theorem run_number
    (digits : ∀ char ∈ rest, char.isDigit = true) :
    run backslash ⟨tokens, .number text⟩ rest =
      ⟨tokens, .number (text ++ rest)⟩ := by
  induction rest generalizing text with
  | nil => simp
  | cons char rest induction =>
      simp only [List.mem_cons, forall_eq_or_imp] at digits
      have read : step backslash ⟨tokens, .number text⟩ char =
          ⟨tokens, .number (text ++ [char])⟩ := by
        simp [step, isNumberChar, digits.1]
      rw [run_cons, read, induction digits.2, List.append_assoc]
      rfl

theorem run_enter :
    (run backslash (enter tokens char) text).mode =
      (run backslash start (char :: text)).mode := by
  have shifted : enter (tokens ++ []) char =
      ⟨tokens ++ (enter [] char).tokens, (enter [] char).mode⟩ :=
    enter_tokens tokens
  rw [List.append_nil] at shifted
  rw [shifted, run_tokens]
  rfl

/-- After the quote that ends a literal. -/
theorem run_literalEnd
    {next : Char}
    (other : next ≠ '\'') :
    (run backslash ⟨tokens, .literal text⟩ ('\'' :: next :: rest)).mode =
      (run backslash start (next :: rest)).mode := by
  have read : step backslash ⟨tokens, .literalEnd text⟩ next =
      enter (tokens ++ [.literal text]) next := by
    simp [step, other]
  rw [run_cons, run_cons]
  show (run backslash (step backslash ⟨tokens, .literalEnd text⟩ next)
    rest).mode = _
  rw [read, run_enter]

theorem run_quotedEnd
    {next : Char}
    (other : next ≠ '"') :
    (run backslash ⟨tokens, .quoted text⟩ ('"' :: next :: rest)).mode =
      (run backslash start (next :: rest)).mode := by
  have read : step backslash ⟨tokens, .quotedEnd text⟩ next =
      enter (tokens ++ [.quoted text]) next := by
    simp [step, other]
  rw [run_cons, run_cons]
  show (run backslash (step backslash ⟨tokens, .quotedEnd text⟩ next)
    rest).mode = _
  rw [read, run_enter]

/-- Two literals that each end where they should. -/
theorem alike_literal
    {front data otherData : List Char} {next : Char}
    (delimiter : isDelimiter char = true)
    (opens : (run backslash start front).mode = .literal [])
    (inside : StaysInside backslash data)
    (otherInside : StaysInside backslash otherData)
    (other : next ≠ '\'')
    (closes : (run backslash start (next :: rest)).mode.outside = true) :
    Alike backslash (char :: front ++ (data ++ '\'' :: next :: rest))
      (char :: front ++ (otherData ++ '\'' :: next :: rest)) := by
  intro scan otherScan same outside
  have grounded : (step backslash scan char).mode = .ground :=
    step_delimiter outside delimiter
  have otherGrounded : (step backslash otherScan char).mode = .ground :=
    step_delimiter (outside_of_outline same outside) delimiter
  have opened : (run backslash scan (char :: front)).mode = .literal [] := by
    rw [run_cons, run_ground grounded, opens]
  have otherOpened :
      (run backslash otherScan (char :: front)).mode = .literal [] := by
    rw [run_cons, run_ground otherGrounded, opens]
  have middle : (run backslash scan (char :: front)).outline =
      (run backslash otherScan (char :: front)).outline := run_outline same
  simp only [run_append]
  generalize run backslash scan (char :: front) = left at opened middle
  generalize run backslash otherScan (char :: front) = right
    at otherOpened middle
  rcases left with ⟨tokens, mode⟩
  rcases right with ⟨otherTokens, otherMode⟩
  rcases opened with rfl
  rcases otherOpened with rfl
  rcases run_staysInside inside tokens [] with ⟨whole, runs⟩
  rcases run_staysInside otherInside otherTokens [] with
    ⟨otherWhole, otherRuns⟩
  rw [runs, otherRuns]
  constructor
  · apply run_outline
    have sameTokens := congrArg Scan.tokens middle
    exact congrArg (fun tokens => (⟨tokens, .literal []⟩ : Scan)) sameTokens
  · rw [run_literalEnd other]
    exact closes

theorem enter_digit
    (digit : char.isDigit = true) :
    enter tokens char = ⟨tokens, .number [char]⟩ := by
  have range : 48 ≤ char.toNat ∧ char.toNat ≤ 57 :=
    Char.isDigit_iff_toNat.mp digit
  have different : ∀ other : Char, (other.toNat < 48 ∨ 57 < other.toNat) →
      char ≠ other := by
    rintro other outside rfl
    omega
  have notBlank : isBlank char = false := by
    simp [isBlank, different ' ' (by decide), different '\t' (by decide),
      different '\n' (by decide), different '\r' (by decide)]
  have notAlpha : char.isAlpha = false := by
    have upper : ¬ 65 ≤ char.toNat := by omega
    have lower : ¬ 97 ≤ char.toNat := by omega
    rw [Bool.eq_false_iff]
    intro alpha
    rcases Bool.or_eq_true_iff.mp alpha with isUpper | isLower
    · have range : 'A'.val ≤ char.val ∧ char.val ≤ 'Z'.val :=
        of_decide_eq_true isUpper
      exact upper (UInt32.le_iff_toNat_le.mp range.1)
    · have range : decide ('a'.val ≤ char.val) = true ∧
          decide (char.val ≤ 'z'.val) = true :=
        Bool.and_eq_true_iff.mp isLower
      exact lower (UInt32.le_iff_toNat_le.mp (of_decide_eq_true range.1))
  have notWord : isWordStart char = false := by
    have small : ¬ 128 ≤ char.toNat := by omega
    simp [isWordStart, notAlpha, small, different '_' (by decide)]
  unfold enter
  rw [if_neg (by simp [notBlank]), if_neg (different '\'' (by decide)),
    if_neg (different '"' (by decide)), if_neg (by simp [notWord]),
    if_pos digit]

/-- The digits of a number. -/
def IsNumeral (text : List Char) : Prop :=
  text ≠ [] ∧ ∀ char ∈ text, char.isDigit = true

theorem run_numeral
    (numeral : IsNumeral text)
    (grounded : mode = .ground) :
    run backslash ⟨tokens, mode⟩ text = ⟨tokens, .number text⟩ := by
  rcases grounded with rfl
  rcases numeral with ⟨nonempty, digits⟩
  cases text with
  | nil => exact (nonempty rfl).elim
  | cons char text =>
      simp only [List.mem_cons, forall_eq_or_imp] at digits
      rw [run_cons]
      show run backslash (enter tokens char) text = _
      rw [enter_digit digits.1, run_number digits.2]
      rfl

theorem isNumeral_toDigits (number : Nat) :
    IsNumeral (Nat.toDigits 10 number) := by
  refine ⟨?_, fun char member => ?_⟩
  · exact List.ne_nil_of_length_pos Nat.length_toDigits_pos
  · exact SqlText.isDigit_of_mem_toDigits member

/-- A digit ends an operator. -/
theorem step_operator_digit
    {operator : List Char}
    (digit : char.isDigit = true) :
    step backslash ⟨tokens, .operator operator⟩ char =
      enter (tokens ++ [.operator operator]) char := by
  have other : ∀ char ∈ ['+', '-', '*', '/', '<', '>', '=', '~', '!', '@',
      '#', '%', '^', '&', '|', '`', '?', ':'], char.isDigit = false :=
    SqlText.forall_mem_of_all (by decide)
  have notOperator : isOperator char = false := by
    apply Bool.eq_false_iff.mpr
    intro isOperator
    rw [other char (of_decide_eq_true isOperator)] at digit
    cases digit
  have minus : char ≠ '-' := by
    rintro rfl
    cases digit
  have star : char ≠ '*' := by
    rintro rfl
    cases digit
  simp [step, minus, star, notOperator]

theorem run_operator_numeral
    {operator : List Char}
    (numeral : IsNumeral text) :
    run backslash ⟨tokens, .operator operator⟩ text =
      ⟨tokens ++ [.operator operator], .number text⟩ := by
  rcases numeral with ⟨nonempty, digits⟩
  cases text with
  | nil => exact (nonempty rfl).elim
  | cons digit text =>
      rw [List.forall_mem_cons] at digits
      rw [run_cons, step_operator_digit digits.1, enter_digit digits.1,
        run_number digits.2]
      rfl

/-- A number after an operator: its sign belongs to the operator. -/
theorem run_operator_int
    {operator : List Char}
    (noComment : operator.getLast? ≠ some '-') (value : Int) :
    ∃ signed digits, run backslash ⟨tokens, .operator operator⟩
        (toString value).toList =
      ⟨tokens ++ [.operator signed], .number digits⟩ := by
  rcases SqlText.toString_cases value with ⟨number, _, text⟩ | ⟨number, _, text⟩
  · rw [text]
    exact ⟨_, _, run_operator_numeral (isNumeral_toDigits number)⟩
  · have read : step backslash ⟨tokens, .operator operator⟩ '-' =
        ⟨tokens, .operator (operator ++ ['-'])⟩ := by
      simp [step, noComment, isOperator]
    rw [text, run_cons, read]
    exact ⟨_, _, run_operator_numeral (isNumeral_toDigits (number + 1))⟩

/-- Two numbers that each end where they should. -/
theorem alike_number
    {data otherData : List Char}
    (delimiter : isDelimiter char = true)
    (numeral : IsNumeral data)
    (otherNumeral : IsNumeral otherData)
    (ends : ∀ next ∈ rest.head?, isNumberChar next = false)
    (closes : (run backslash start rest).mode.outside = true) :
    Alike backslash (char :: (data ++ rest)) (char :: (otherData ++ rest)) := by
  intro scan otherScan same outside
  have grounded : (step backslash scan char).mode = .ground :=
    step_delimiter outside delimiter
  have otherGrounded : (step backslash otherScan char).mode = .ground :=
    step_delimiter (outside_of_outline same outside) delimiter
  have middle : (step backslash scan char).outline =
      (step backslash otherScan char).outline := step_outline same
  rw [run_cons, run_cons]
  generalize step backslash scan char = left at grounded middle
  generalize step backslash otherScan char = right at otherGrounded middle
  rcases left with ⟨tokens, mode⟩
  rcases right with ⟨otherTokens, otherMode⟩
  rw [run_append, run_append, run_numeral numeral grounded,
    run_numeral otherNumeral otherGrounded]
  constructor
  · apply run_outline
    have sameTokens := congrArg Scan.tokens middle
    exact congrArg (fun tokens => (⟨tokens, .number []⟩ : Scan)) sameTokens
  · cases rest with
    | nil => rfl
    | cons next rest =>
        have read : step backslash ⟨tokens, .number data⟩ next =
            enter (tokens ++ [.number data]) next := by
          simp [step, ends next rfl]
        rw [run_cons, read, run_enter]
        exact closes

/-- Two numbers at the end of a part. -/
theorem alike_numeral
    {data otherData : List Char}
    (delimiter : isDelimiter char = true)
    (numeral : IsNumeral data)
    (otherNumeral : IsNumeral otherData) :
    Alike backslash (char :: data) (char :: otherData) := by
  have ended : Alike backslash (char :: (data ++ []))
      (char :: (otherData ++ [])) :=
    alike_number delimiter numeral otherNumeral nofun rfl
  rw [List.append_nil, List.append_nil] at ended
  exact ended

/-! ## Texts before a blank -/

/-- Texts that are alike once a blank follows them. -/
def AlikeEnded (backslash : Bool) (text other : List Char) : Prop :=
  Alike backslash (text ++ [' ']) (other ++ [' '])

theorem Alike.ended (alike : Alike backslash text rest) :
    AlikeEnded backslash text rest :=
  alike.append (alike_same rfl rfl)

/-- A blank that leads outside literals and comments ends every token. -/
theorem step_blank
    (outside : (step backslash scan ' ').mode.outside = true) :
    step backslash (step backslash scan ' ') ' ' =
      step backslash scan ' ' := by
  rcases scan with ⟨tokens, mode⟩
  cases mode with
  | ground => rfl
  | word text => rfl
  | number text => rfl
  | operator text => rfl
  | literalEnd text => rfl
  | quotedEnd text => rfl
  | literal text => simp [step, Mode.outside] at outside
  | escape text => simp [step, Mode.outside] at outside
  | quoted text => simp [step, Mode.outside] at outside
  | lineComment => simp [step, Mode.outside] at outside
  | blockComment depth last => simp [step, Mode.outside] at outside

theorem AlikeEnded.append
    {otherText otherRest : List Char}
    (first : AlikeEnded backslash text otherText)
    (second : Alike backslash (' ' :: rest) (' ' :: otherRest)) :
    Alike backslash (text ++ ' ' :: rest) (otherText ++ ' ' :: otherRest) := by
  intro scan otherScan same outside
  rcases first scan otherScan same outside with ⟨middle, stillOutside⟩
  have whole := second _ _ middle stillOutside
  have otherOutside := outside_of_outline middle stillOutside
  simp only [run_append, run_cons, run_nil] at whole stillOutside otherOutside
  rw [step_blank stillOutside, step_blank otherOutside] at whole
  rw [run_append, run_append, run_cons, run_cons]
  exact whole

/-! ## Texts that end outside -/

/-- From the ground on, the text ends outside literals, names and comments. -/
def EndsOutside (backslash : Bool) (text : List Char) : Prop :=
  (run backslash start text).mode.outside = true

/-- After a delimiter, what was read before it does not matter. -/
theorem mode_delimited
    (outside : scan.mode.outside = true)
    (delimiter : isDelimiter char = true) :
    (run backslash scan (char :: rest)).mode =
      (run backslash start rest).mode := by
  rw [run_cons, run_ground (step_delimiter outside delimiter)]

theorem EndsOutside.mode_append
    (ends : EndsOutside backslash text)
    (delimiter : isDelimiter char = true) :
    (run backslash start (text ++ char :: rest)).mode =
      (run backslash start rest).mode := by
  rw [run_append]
  exact mode_delimited ends delimiter

theorem EndsOutside.cons
    (delimiter : isDelimiter char = true)
    (ends : EndsOutside backslash text) :
    EndsOutside backslash (char :: text) := by
  rw [EndsOutside, mode_delimited rfl delimiter]
  exact ends

/-- A name in double quotes. -/
theorem endsOutside_quoted
    (plain : ∀ char ∈ text, char ≠ '"') :
    EndsOutside backslash ('"' :: text ++ ['"']) := by
  rw [EndsOutside, List.cons_append, run_cons]
  show (run backslash ⟨[], .quoted []⟩ _).mode.outside = true
  rw [run_append, run_quoted plain]
  rfl

/-- After a name in double quotes. -/
theorem mode_quoted
    {next : Char}
    (plain : ∀ char ∈ text, char ≠ '"')
    (other : next ≠ '"') :
    (run backslash start ('"' :: text ++ '"' :: next :: rest)).mode =
      (run backslash start (next :: rest)).mode := by
  have read : run backslash start ('"' :: text) = ⟨[], .quoted text⟩ := by
    rw [run_cons]
    show run backslash ⟨[], .quoted []⟩ text = _
    rw [run_quoted plain]
    rfl
  rw [run_append, read, run_quotedEnd other]

/-- After a literal and a delimiter. -/
theorem mode_literal
    (plain : ∀ char ∈ text, char ≠ '\'' ∧ char ≠ '\\')
    (delimiter : isDelimiter char = true) :
    (run backslash start ('\'' :: text ++ '\'' :: char :: rest)).mode =
      (run backslash start rest).mode := by
  have other : char ≠ '\'' := by
    rintro rfl
    cases delimiter
  have read : run backslash start ('\'' :: text) =
      ⟨[], .literal text⟩ := by
    rw [run_cons]
    show run backslash ⟨[], .literal []⟩ text = _
    rw [run_literal plain]
    rfl
  rw [run_append, read, run_literalEnd other]
  exact mode_delimited rfl delimiter

theorem endsOutside_numeral (numeral : IsNumeral text) :
    EndsOutside backslash text := by
  have read : run backslash start text = ⟨[], .number text⟩ :=
    run_numeral numeral rfl
  rw [EndsOutside, read]
  rfl

/-- A number with a sign. -/
theorem endsOutside_negative (numeral : IsNumeral text) :
    EndsOutside backslash ('-' :: text) := by
  rw [EndsOutside, run_cons]
  show (run backslash ⟨[], .operator ['-']⟩ text).mode.outside = true
  rw [run_operator_numeral numeral]
  rfl

/-- One text is read alike with itself if it ends outside. -/
theorem EndsOutside.alike
    (ends : EndsOutside backslash text)
    (delimiter : isDelimiter char = true) :
    Alike backslash (char :: text) (char :: text) :=
  alike_same delimiter ends

/-- A check for fixed texts: they begin with a delimiter and end outside. -/
def isClosed : List Char → Bool
  | [] => true
  | char :: text =>
      isDelimiter char && (run false start text).mode.outside &&
        (run true start text).mode.outside

theorem alike_of_isClosed (closed : isClosed text = true) :
    Alike backslash text text := by
  cases text with
  | nil => exact alike_nil
  | cons char text =>
      rw [isClosed, Bool.and_eq_true, Bool.and_eq_true] at closed
      rcases closed with ⟨⟨delimiter, plain⟩, escaped⟩
      cases backslash with
      | false => exact alike_same delimiter plain
      | true => exact alike_same delimiter escaped

/-- The check is made on the characters of a string. -/
theorem alike_string
    {chars : List Char}
    (closed : isClosed chars = true) :
    Alike backslash (String.ofList chars).toList
      (String.ofList chars).toList := by
  rw [String.toList_ofList]
  exact alike_of_isClosed closed

theorem alike_blank_string
    {chars : List Char}
    (closed : isClosed (' ' :: chars) = true) :
    Alike backslash (' ' :: (String.ofList chars).toList)
      (' ' :: (String.ofList chars).toList) := by
  rw [String.toList_ofList]
  exact alike_of_isClosed closed

/-- A blank at the front changes nothing. -/
theorem sameStructure_of_blank
    (alike : Alike backslash (' ' :: text) (' ' :: rest)) :
    SameStructure backslash text rest :=
  alike.sameStructure

/-! ## Parentheses -/

/-- The text has not as many closing parentheses as opening ones. -/
def IsUnbalanced (backslash : Bool) (text : List Char) : Prop :=
  ∃ found, tokenize backslash text = some found ∧
    found.count (.symbol '(') ≠ found.count (.symbol ')')

end Limestone.Library.SqlScan
