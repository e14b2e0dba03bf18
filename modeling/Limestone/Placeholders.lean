import Limestone.Library.SqlScan
import Limestone.StatementExecution

/-!
# Placeholders of a statement: `dbms_execute`

The length of the text to be sent is added up before the text is made.  Then
the template is copied to a buffer of this length, where each question mark is
overwritten by the next parameter.  What a parameter says is not looked at, and
neither is what the template has around the question mark.
-/

namespace Limestone.Placeholders

open Library
open DbmsDbd
open StatementExecution

/-! ## The copy -/

/-- `full_length`, an `int`: the question marks are not counted. -/
def fullLength (queryString : Text) (parameters : List Text) : Int :=
  parameters.foldl
    (fun length parameter => toInt (length + (parameter.length - 1)))
    (toInt queryString.length)

/-- `apr_pcalloc`; there is no memory of a negative size. -/
def aprPcalloc (size : Int) : Option Text :=
  if 0 ≤ size then some (List.replicate size.toNat '\x00') else none

/-- The assignment of a character; it may not be behind the memory. -/
def store (memory : Text) (index : Nat) (char : Char) : Option Text :=
  if index < memory.length then some (memory.set index char) else none

/-- `strcpy` to a place of the memory, with the terminator. -/
def strcpy (memory : Text) : Nat → Text → Option Text
  | index, [] => store memory index '\x00'
  | index, char :: text =>
      (store memory index char).bind fun memory =>
        strcpy memory (index + 1) text

/-- The variables of the loop; its first index counts the passes. -/
structure CopyLoop where
  j : Nat
  k : Nat
  escquery : Text
deriving DecidableEq, Repr

/-- The body of the loop; `none` is an access behind the end of an array. -/
def copyChar (parameters : List Text) (loop : CopyLoop) (char : Char) :
    Option CopyLoop :=
  if char = '?' then
    (parameters[loop.k]?).bind fun parameter =>
      (strcpy loop.escquery loop.j parameter).map fun escquery =>
        { j := loop.j + parameter.length
          k := loop.k + 1
          escquery := escquery }
  else
    (store loop.escquery loop.j char).map fun escquery =>
      { loop with
        j := loop.j + 1
        escquery := escquery }

/-- The loop, and the string that it leaves in the buffer. -/
def copyQuery (queryString : Text) (parameters : List Text) : Option Text :=
  let queryStringLength := toInt queryString.length
  (aprPcalloc (toInt (fullLength queryString parameters + 1))).bind
    fun memory =>
      ((queryString.take queryStringLength.toNat).foldlM (copyChar parameters)
        ⟨0, 0, memory⟩).bind fun loop =>
          (store loop.escquery loop.j '\x00').map fun escquery =>
            escquery.take loop.j

/-- What becomes of the text. -/
inductive SentText where
  /-- A parameter was never set, and nothing is sent. -/
  | unset
  /-- The buffer is too short for its contents. -/
  | overrun
  | sent (fullLength : Int) (text : Text)
deriving DecidableEq, Repr

/-- `dbms_execute` up to the call of the driver. -/
def executeText (query : DavReposQuery) : SentText :=
  match query.parameters.mapM id with
  | none => .unset
  | some parameters =>
      if parameters = [] then
        .sent (fullLength query.queryString []) query.queryString
      else
        match copyQuery query.queryString parameters with
        | none => .overrun
        | some text => .sent (fullLength query.queryString parameters) text

/-! ## What is copied -/

section Copying

variable {parameters : List Text} {memory text : Text} {index : Nat}
  {char : Char}

theorem store_eq (inside : index < memory.length) :
    store memory index char = some (memory.set index char) :=
  if_pos inside

/-- What was written to the memory before an index. -/
theorem take_set_succ (inside : index < memory.length) :
    (memory.set index char).take (index + 1) =
      memory.take index ++ [char] := by
  have here : (memory.set index char)[index]? = some char :=
    List.getElem?_set_self inside
  rw [List.take_add_one, here, List.take_set_of_le (Nat.le_refl index)]
  rfl

/-- A text is copied behind what was written before. -/
theorem strcpy_eq (fits : index + text.length < memory.length) :
    ∃ copied, strcpy memory index text = some copied ∧
      copied.length = memory.length ∧
      copied.take (index + text.length) = memory.take index ++ text := by
  induction text generalizing memory index with
  | nil =>
      refine ⟨memory.set index '\x00', store_eq fits, List.length_set, ?_⟩
      rw [List.length_nil, Nat.add_zero, List.append_nil]
      exact List.take_set_of_le (Nat.le_refl index)
  | cons char text induction =>
      rw [List.length_cons] at fits
      have inside : index < memory.length := by omega
      have later : index + 1 + text.length <
          (memory.set index char).length := by
        rw [List.length_set]
        omega
      rcases induction later with ⟨copied, same, length, front⟩
      refine ⟨copied, ?_, length.trans List.length_set, ?_⟩
      · rw [strcpy, store_eq inside]
        exact same
      · have size : index + (char :: text).length =
            index + 1 + text.length := by
          rw [List.length_cons]
          omega
        rw [size, front, take_set_succ inside, List.append_assoc]
        rfl

/-- The rest of the template is copied with its question marks replaced. -/
theorem foldlM_copyChar
    {rest : Text} {loop : CopyLoop}
    (enough : rest.count '?' ≤ (parameters.drop loop.k).length)
    (fits : loop.j + (substitute rest (parameters.drop loop.k)).length <
      loop.escquery.length) :
    ∃ final, rest.foldlM (copyChar parameters) loop = some final ∧
      final.j = loop.j + (substitute rest (parameters.drop loop.k)).length ∧
      final.escquery.length = loop.escquery.length ∧
      final.escquery.take final.j = loop.escquery.take loop.j ++
        substitute rest (parameters.drop loop.k) := by
  induction rest generalizing loop with
  | nil =>
      rw [substitute]
      exact ⟨loop, rfl, rfl, rfl, (List.append_nil _).symm⟩
  | cons char rest induction =>
      rw [List.foldlM_cons]
      by_cases mark : char = '?'
      · subst mark
        rw [List.count_cons_self] at enough
        cases left : parameters.drop loop.k with
        | nil =>
            rw [left] at enough
            cases enough
        | cons parameter later =>
            have here : parameters[loop.k]? = some parameter := by
              rw [← List.head?_drop, left]
              rfl
            have behind : parameters.drop (loop.k + 1) = later := by
              rw [← List.tail_drop, left]
              rfl
            rw [left, substitute, if_pos rfl, List.length_append] at fits
            have room : loop.j + parameter.length < loop.escquery.length := by
              omega
            rcases strcpy_eq room with ⟨copied, same, length, front⟩
            have step : copyChar parameters loop '?' =
                some ⟨loop.j + parameter.length, loop.k + 1, copied⟩ := by
              rw [copyChar, if_pos rfl, here, Option.bind_some, same]
              rfl
            have next := @induction
              ⟨loop.j + parameter.length, loop.k + 1, copied⟩
              (by
                show rest.count '?' ≤ (parameters.drop (loop.k + 1)).length
                rw [left, List.length_cons] at enough
                rw [behind]
                omega)
              (by
                show loop.j + parameter.length + (substitute rest
                  (parameters.drop (loop.k + 1))).length < copied.length
                rw [behind, length]
                omega)
            rcases next with ⟨final, copies, last, size, whole⟩
            dsimp only at copies last size whole
            rw [behind] at last whole
            rw [step, substitute, if_pos rfl]
            refine ⟨final, copies, ?_, size.trans length, ?_⟩
            · rw [last, List.length_append, Nat.add_assoc]
            · rw [whole, front, List.append_assoc]
      · have replaced : substitute (char :: rest) (parameters.drop loop.k) =
            char :: substitute rest (parameters.drop loop.k) := by
          cases parameters.drop loop.k with
          | nil => rw [substitute]
          | cons parameter later => rw [substitute, if_neg mark]
        rw [List.count_cons_of_ne mark] at enough
        rw [replaced, List.length_cons] at fits
        have inside : loop.j < loop.escquery.length := by omega
        have step : copyChar parameters loop char =
            some ⟨loop.j + 1, loop.k, loop.escquery.set loop.j char⟩ := by
          rw [copyChar, if_neg mark, store_eq inside]
          rfl
        have next := @induction
          ⟨loop.j + 1, loop.k, loop.escquery.set loop.j char⟩ enough
          (by
            show loop.j + 1 + (substitute rest
              (parameters.drop loop.k)).length <
                (loop.escquery.set loop.j char).length
            rw [List.length_set]
            omega)
        rcases next with ⟨final, copies, last, size, whole⟩
        dsimp only at copies last size whole
        rw [step, replaced]
        refine ⟨final, copies, ?_, size.trans List.length_set, ?_⟩
        · rw [last, List.length_cons]
          omega
        · rw [whole, take_set_succ inside, List.append_assoc]
          rfl

/-- What the parameters add to the length of the template. -/
def added : List Text → Int
  | [] => 0
  | parameter :: parameters => (parameter.length - 1) + added parameters

theorem foldl_fullLength (start : Int) :
    parameters.foldl
        (fun length parameter => toInt (length + (parameter.length - 1)))
        (toInt start) =
      toInt (start + added parameters) := by
  induction parameters generalizing start with
  | nil =>
      rw [added, Int.add_zero]
      rfl
  | cons parameter parameters induction =>
      have once : toInt (toInt start + (parameter.length - 1)) =
          toInt (start + (parameter.length - 1)) :=
        Int.bmod_add_bmod
      rw [List.foldl_cons, once, induction, added, Int.add_assoc]

/-- The computed length is that of the text, as an `int`. -/
theorem fullLength_eq
    {template : Text}
    (replaced : Replaced template parameters text) :
    fullLength template parameters = toInt text.length := by
  have sum : (template.length : Int) + added parameters = text.length := by
    induction replaced with
    | done => rfl
    | placeholder parameter rest induction =>
        rw [added, List.length_cons, List.length_append]
        push_cast
        omega
    | char plain rest induction =>
        rw [List.length_cons, List.length_cons]
        push_cast
        omega
  rw [fullLength, foldl_fullLength, sum]

theorem substitute_of_replaced
    {template : Text}
    (replaced : Replaced template parameters text) :
    substitute template parameters = text := by
  induction replaced with
  | done => rfl
  | placeholder parameter rest induction =>
      rw [substitute, if_pos rfl, induction]
  | @char template sent parameters char plain rest induction =>
      cases parameters with
      | nil => rw [substitute, induction]
      | cons parameter parameters =>
          rw [substitute, if_neg plain, induction]

theorem count_of_replaced
    {template : Text}
    (replaced : Replaced template parameters text) :
    parameters.length = template.count '?' := by
  induction replaced with
  | done => rfl
  | placeholder parameter rest induction =>
      rw [List.count_cons_self, List.length_cons, induction]
  | char plain rest induction =>
      rw [List.count_cons_of_ne plain, induction]

/-- A text that an `int` can count is copied as a whole. -/
theorem copyQuery_eq
    {template : Text}
    (replaced : Replaced template parameters text)
    (nonempty : ∀ parameter ∈ parameters, parameter ≠ [])
    (short : IsInteger (text.length + 1)) :
    copyQuery template parameters = some text := by
  have whole := substitute_of_replaced replaced
  have counted := count_of_replaced replaced
  have noLonger : template.length ≤ text.length := by
    clear whole counted short
    induction replaced with
    | done => exact Nat.le_refl _
    | placeholder parameter rest induction =>
        rw [List.forall_mem_cons] at nonempty
        have positive := List.length_pos_iff.mpr nonempty.1
        have shorter := induction nonempty.2
        rw [List.length_cons, List.length_append]
        omega
    | char plain rest induction =>
        exact Nat.succ_le_succ (induction nonempty)
  have textInteger : IsInteger text.length := by
    unfold IsInteger at *
    omega
  have templateInteger : IsInteger template.length := by
    unfold IsInteger at *
    omega
  have size : toInt (fullLength template parameters + 1) =
      text.length + 1 := by
    rw [fullLength_eq replaced, toInt_eq_self textInteger,
      toInt_eq_self short]
  have memory : aprPcalloc (text.length + 1) =
      some (List.replicate (text.length + 1) '\x00') :=
    if_pos (Int.natCast_nonneg (text.length + 1))
  have copies := @foldlM_copyChar parameters template
    ⟨0, 0, List.replicate (text.length + 1) '\x00'⟩
    (Nat.le_of_eq counted.symm)
    (by
      show 0 + (substitute template parameters).length < _
      rw [whole, List.length_replicate]
      omega)
  rcases copies with ⟨final, copied, last, length, front⟩
  have untouched : (substitute template (parameters.drop 0)) = text := whole
  dsimp only at last length front
  rw [untouched, Nat.zero_add] at last
  rw [List.length_replicate] at length
  rw [untouched, List.take_zero, List.nil_append, last] at front
  have inside : final.j < final.escquery.length := by omega
  unfold copyQuery
  dsimp only
  rw [size, memory, Option.bind_some, toInt_eq_self templateInteger,
    Int.toNat_natCast, List.take_length, copied, Option.bind_some,
    store_eq inside, Option.map_some, List.take_set_of_le (Nat.le_refl _),
    last, front]

end Copying

/-! ## Literals -/

section Literals

open SqlScan

/-- The texts of `%f`. -/
def IsFormatted (formatted : Text) : Prop :=
  ∃ sign number, formatted = sign ++ number ∧ (sign = [] ∨ sign = ['-']) ∧
    (number = "inf".toList ∨ number = "nan".toList ∨
      ∃ whole fraction, number = whole ++ '.' :: fraction ∧
        IsNumeral whole ∧ IsNumeral fraction)

/-- A quote begins a literal here. -/
def admits : Mode → Bool
  | .ground | .word _ | .number _ | .operator _ | .quotedEnd _ => true
  | _ => false

/-- Every literal and number may begin here. -/
def opens : Mode → Bool
  | .ground => true
  | .operator text => decide (text.getLast? ≠ some '-')
  | _ => false

/-- A character that belongs to none of the literals and numbers before it. -/
def separates (char : Char) : Bool :=
  !isWordChar char && !isNumberChar char &&
    decide (char ≠ quote ∧ char ≠ '?')

/--
The question marks stand outside quotes and comments, not right behind a word,
a number, a quote or a minus sign, and before a character that separates them
from what follows.  The flag tells that a question mark comes before the text.
-/
def placedFrom : Bool → Mode → Text → Bool
  | _, _, [] => true
  | true, _, char :: template =>
      separates char && placedFrom false (enter [] char).mode template
  | false, mode, char :: template =>
      if char = '?' then opens mode && placedFrom true .ground template
      else placedFrom false (step false ⟨[], mode⟩ char).mode template

/-- A question mark and those before it have their places. -/
structure PlacedAt (front back : Text) : Prop where
  placed : placedFrom false .ground (front ++ ['?']) = true
  ends : ∀ char ∈ back.head?, separates char = true

/--
The scanner reads the template as the server does: there are no escape strings,
no dollar quotes and no literals that go on behind a line break.
-/
def IsPlain (template : Text) : Prop :=
  ∀ char ∈ template, char ≠ '\\' ∧ char ≠ '$' ∧ char ≠ '\n' ∧ char ≠ '\r'

/-- The text ends with a prefix that makes a literal one of another kind. -/
def endsInPrefix (front : Text) : Bool :=
  match front.reverse with
  | '&' :: char :: rest =>
      decide (char ∈ ['u', 'U']) && !rest.head?.any isWordChar
  | char :: rest =>
      decide (char ∈ ['e', 'E', 'b', 'B', 'x', 'X', 'n', 'N']) &&
        !rest.head?.any isWordChar
  | [] => false

/-- The scanner is right behind what it read for a parameter. -/
def isBehind : Mode → Bool
  | .word _ | .number _ | .literalEnd _ => true
  | _ => false

/-- The literal is a token of its own that stands for the value. -/
structure ReadsLiteral (before literal after value : Text) : Prop where
  token : ∃ tokens, finish (run false start before) = some tokens ∧
    step false (run false start before) quote = ⟨tokens, .literal []⟩ ∧
    run false start (before ++ literal) = ⟨tokens, .literalEnd value⟩
  ends : after.head? ≠ some quote

variable {scan : Scan} {tokens : List Token} {text value : Text}

/-- An escaped text does not end the literal that it stands in. -/
theorem run_dbmsEscape (value : Text) :
    run false ⟨tokens, .literal text⟩ (dbmsEscape value) =
      ⟨tokens, .literal (text ++ value)⟩ := by
  induction value generalizing text with
  | nil =>
      rw [List.append_nil]
      rfl
  | cons char value induction =>
      rw [dbmsEscape_cons, run_append]
      by_cases quoted : char = quote
      · subst quoted
        rw [if_pos rfl]
        have read : run false ⟨tokens, .literal text⟩ [quote, quote] =
            ⟨tokens, .literal (text ++ [quote])⟩ := by
          simp [step, quote]
        rw [read, induction, List.append_assoc]
        rfl
      · rw [if_neg quoted]
        have other : char ≠ '\'' := quoted
        have read : run false ⟨tokens, .literal text⟩ [char] =
            ⟨tokens, .literal (text ++ [char])⟩ := by
          simp [step, other]
        rw [read, induction, List.append_assoc]
        rfl

/-- A quote begins a literal where one may begin, and only there. -/
theorem step_quote_iff :
    admits scan.mode = true ↔
      ∃ before, finish scan = some before ∧
        step false scan quote = ⟨before, .literal []⟩ := by
  rcases scan with ⟨tokens, mode⟩
  constructor
  · intro opened
    cases mode
    all_goals try exact (Bool.noConfusion opened : False).elim
    case ground => exact ⟨tokens, rfl, rfl⟩
    case word text => exact ⟨tokens ++ [.word text], rfl, rfl⟩
    case number text => exact ⟨tokens ++ [.number text], rfl, rfl⟩
    case operator text => exact ⟨tokens ++ [.operator text], rfl, rfl⟩
    case quotedEnd text => exact ⟨tokens ++ [.quoted text], rfl, rfl⟩
  · rintro ⟨before, finished, begun⟩
    cases mode
    all_goals try rfl
    case lineComment => cases congrArg Scan.mode begun
    case literalEnd text =>
      have other := Mode.literal.inj (congrArg Scan.mode begun)
      exact (List.append_ne_nil_of_right_ne_nil text (by decide) other).elim
    all_goals cases finished

/-- A literal is read where a quote begins one and none follows. -/
theorem readsLiteral_iff {before after : Text} (value : Text) :
    ReadsLiteral before (quote :: dbmsEscape value ++ [quote]) after value ↔
      admits (run false start before).mode = true ∧
        after.head? ≠ some quote := by
  constructor
  · rintro ⟨⟨tokens, finished, begun, -⟩, ends⟩
    exact ⟨step_quote_iff.mpr ⟨tokens, finished, begun⟩, ends⟩
  · rintro ⟨opened, ends⟩
    rcases step_quote_iff.mp opened with ⟨tokens, finished, begun⟩
    refine ⟨⟨tokens, finished, begun, ?_⟩, ends⟩
    rw [run_append, List.cons_append, run_cons, begun, run_append,
      run_dbmsEscape, List.nil_append]
    rfl

theorem admits_of_opens {mode : Mode} (opened : opens mode = true) :
    admits mode = true := by
  cases mode
  all_goals first
    | rfl
    | exact (Bool.noConfusion opened : False).elim

theorem run_opened_numeral
    (opened : opens scan.mode = true)
    (numeral : IsNumeral text) :
    ∃ before, run false scan text = ⟨before, .number text⟩ := by
  rcases scan with ⟨tokens, mode⟩
  cases mode
  all_goals try exact (Bool.noConfusion opened : False).elim
  case ground => exact ⟨tokens, run_numeral numeral rfl⟩
  case operator operator => exact ⟨_, run_operator_numeral numeral⟩

/-- A sign is part of the operator before it, or an operator. -/
theorem step_opened_minus
    (opened : opens scan.mode = true) :
    ∃ before operator,
      step false scan '-' = ⟨before, .operator operator⟩ := by
  rcases scan with ⟨tokens, mode⟩
  cases mode
  all_goals try exact (Bool.noConfusion opened : False).elim
  case ground => exact ⟨tokens, ['-'], rfl⟩
  case operator operator =>
    have noComment : operator.getLast? ≠ some '-' := of_decide_eq_true opened
    refine ⟨tokens, operator ++ ['-'], ?_⟩
    simp [step, noComment, isOperator]

/-- A name of the database system, behind an operator or not. -/
theorem run_opened_word
    (opened : opens scan.mode = true ∨
      ∃ operator, scan.mode = .operator operator) :
    isBehind (run false scan "null".toList).mode = true ∧
      isBehind (run false scan "inf".toList).mode = true ∧
      isBehind (run false scan "nan".toList).mode = true := by
  rcases scan with ⟨tokens, mode⟩
  rcases opened with opened | ⟨operator, rfl⟩
  · cases mode
    all_goals try exact (Bool.noConfusion opened : False).elim
    case ground => exact ⟨rfl, rfl, rfl⟩
    case operator operator => exact ⟨rfl, rfl, rfl⟩
  · exact ⟨rfl, rfl, rfl⟩

theorem run_point
    {whole fraction : Text}
    (numeral : IsNumeral fraction) :
    isBehind (run false ⟨tokens, .number whole⟩ ('.' :: fraction)).mode =
      true := by
  have read : step false ⟨tokens, .number whole⟩ '.' =
      ⟨tokens, .number (whole ++ ['.'])⟩ :=
    rfl
  rw [run_cons, read, run_number numeral.2]
  rfl

/-- Every parameter is read to its end. -/
theorem isBehind_literal
    {call : SetCall}
    (opened : opens scan.mode = true)
    (floats : ∀ num formatted, call = .float num formatted →
      IsFormatted formatted) :
    isBehind (run false scan call.literal).mode = true := by
  cases call with
  | int num value =>
      show isBehind (run false scan (toString value).toList).mode = true
      rcases SqlText.toString_cases value with
        ⟨number, _, digits⟩ | ⟨number, _, digits⟩
      · rcases run_opened_numeral opened (isNumeral_toDigits number) with
          ⟨before, runs⟩
        rw [digits, runs]
        rfl
      · rcases step_opened_minus opened with ⟨before, operator, sign⟩
        rw [digits, run_cons, sign,
          run_operator_numeral (isNumeral_toDigits (number + 1))]
        rfl
  | float num formatted =>
      show isBehind (run false scan formatted).mode = true
      rcases floats num formatted rfl with
        ⟨sign, number, rfl, signed, kinds⟩
      rcases signed with rfl | rfl
      · rcases kinds with rfl | rfl | ⟨whole, fraction, rfl, digits, later⟩
        · exact (run_opened_word (Or.inl opened)).2.1
        · exact (run_opened_word (Or.inl opened)).2.2
        · rcases run_opened_numeral opened digits with ⟨before, runs⟩
          rw [List.nil_append, run_append, runs]
          exact run_point later
      · rcases step_opened_minus opened with ⟨before, operator, minus⟩
        rw [run_append, run_cons, minus, run_nil]
        rcases kinds with rfl | rfl | ⟨whole, fraction, rfl, digits, later⟩
        · exact (run_opened_word (Or.inr ⟨operator, rfl⟩)).2.1
        · exact (run_opened_word (Or.inr ⟨operator, rfl⟩)).2.2
        · rw [run_append, run_operator_numeral digits]
          exact run_point later
  | string num value =>
      cases value with
      | none => exact (run_opened_word (Or.inl opened)).1
      | some value =>
          rcases step_quote_iff.mp (admits_of_opens opened) with
            ⟨before, -, begun⟩
          show isBehind (run false scan
            (quote :: dbmsEscape value ++ [quote])).mode = true
          rw [List.cons_append, run_cons, begun, run_append, run_dbmsEscape]
          rfl

/-- A character that separates begins something else. -/
theorem step_behind
    {char : Char}
    (behind : isBehind scan.mode = true)
    (separate : separates char = true) :
    (step false scan char).mode = (enter [] char).mode := by
  simp only [separates, Bool.and_eq_true, Bool.not_eq_true',
    decide_eq_true_eq] at separate
  rcases separate with ⟨⟨noWord, noNumber⟩, other, -⟩
  have enters : ∀ before : List Token,
      (enter before char).mode = (enter [] char).mode := by
    intro before
    have shifted : enter (before ++ []) char =
        ⟨before ++ (enter [] char).tokens, (enter [] char).mode⟩ :=
      enter_tokens before
    rw [List.append_nil] at shifted
    rw [shifted]
  rcases scan with ⟨tokens, mode⟩
  cases mode
  all_goals try exact (Bool.noConfusion behind : False).elim
  case word text =>
    simp only [step, noWord, Bool.false_eq_true, if_false]
    exact enters _
  case number text =>
    simp only [step, noNumber, Bool.false_eq_true, if_false]
    exact enters _
  case literalEnd text =>
    have noQuote : char ≠ '\'' := other
    simp only [step, noQuote, if_false]
    exact enters _

theorem mode_step {char : Char} :
    (step false scan char).mode = (step false ⟨[], scan.mode⟩ char).mode := by
  have shifted : step false ⟨scan.tokens ++ [], scan.mode⟩ char =
      ⟨scan.tokens ++ (step false ⟨[], scan.mode⟩ char).tokens,
        (step false ⟨[], scan.mode⟩ char).mode⟩ :=
    step_tokens scan.tokens
  rw [List.append_nil] at shifted
  have modes := congrArg Scan.mode shifted
  exact modes

/--
A question mark that has its place in the template has it in the text that is
made so far as well.
-/
theorem opens_of_placedFrom
    {behind : Bool} {mode : Mode} {front back before : Text}
    {parameters : List Text}
    (placed : placedFrom behind mode (front ++ '?' :: back) = true)
    (replaced : Replaced front parameters before)
    (readable : ∀ parameter ∈ parameters, ∀ scan, opens scan.mode = true →
      isBehind (run false scan parameter).mode = true)
    (agrees : if behind then isBehind scan.mode = true
      else scan.mode = mode) :
    opens (run false scan before).mode = true := by
  induction replaced generalizing scan behind mode with
  | done =>
      cases behind with
      | true =>
          rw [List.nil_append, placedFrom, Bool.and_eq_true] at placed
          cases placed.1
      | false =>
          rw [List.nil_append, placedFrom, if_pos rfl, Bool.and_eq_true]
            at placed
          rw [if_neg Bool.false_ne_true] at agrees
          rw [run_nil, agrees]
          exact placed.1
  | placeholder parameter rest induction =>
      rw [List.forall_mem_cons] at readable
      cases behind with
      | true =>
          rw [List.cons_append, placedFrom, Bool.and_eq_true] at placed
          cases placed.1
      | false =>
          rw [List.cons_append, placedFrom, if_pos rfl, Bool.and_eq_true]
            at placed
          rw [if_neg Bool.false_ne_true] at agrees
          rw [← agrees] at placed
          rw [run_append]
          apply induction placed.2 readable.2
          rw [if_pos rfl]
          exact readable.1 scan placed.1
  | @char template sent parameters char plain rest induction =>
      cases behind with
      | true =>
          rw [List.cons_append, placedFrom, Bool.and_eq_true] at placed
          rw [if_pos rfl] at agrees
          rw [run_cons]
          apply induction placed.2 readable
          rw [if_neg Bool.false_ne_true]
          exact step_behind agrees placed.1
      | false =>
          rw [List.cons_append, placedFrom, if_neg plain] at placed
          rw [if_neg Bool.false_ne_true] at agrees
          rw [run_cons]
          apply induction placed readable
          rw [if_neg Bool.false_ne_true, mode_step, agrees]

/-- The text before and behind one of the parameters. -/
theorem replaced_split
    {front back : Text} {parameters : List Text}
    (replaced : Replaced (front ++ '?' :: back) parameters text) :
    ∃ earlier parameter later before after,
      parameters = earlier ++ parameter :: later ∧
        Replaced front earlier before ∧ Replaced back later after ∧
        text = before ++ parameter ++ after := by
  induction front generalizing parameters text with
  | nil =>
      rw [List.nil_append] at replaced
      cases replaced with
      | placeholder parameter rest =>
          exact ⟨[], parameter, _, [], _, rfl, .done, rest, rfl⟩
      | char plain rest => exact (plain rfl).elim
  | cons char front induction =>
      rw [List.cons_append] at replaced
      cases replaced with
      | placeholder first rest =>
          rcases induction rest with
            ⟨earlier, parameter, later, before, after, rfl, ahead, behind,
              rfl⟩
          refine ⟨first :: earlier, parameter, later, first ++ before, after,
            rfl, .placeholder first ahead, behind, ?_⟩
          rw [List.append_assoc, List.append_assoc, List.append_assoc]
      | char plain rest =>
          rcases induction rest with
            ⟨earlier, parameter, later, before, after, rfl, ahead, behind,
              rfl⟩
          exact ⟨earlier, parameter, later, char :: before, after, rfl,
            .char plain ahead, behind, rfl⟩

end Literals

/-! ## The statement that is sent -/

section Sending

open SqlScan

variable {template : Text} {calls : List SetCall}

/-- The call that set a place last; places are counted from zero. -/
def lastCall (calls : List SetCall) (place : Nat) : Option SetCall :=
  (calls.filter fun call => call.num == (place : Int) + 1).getLast?

/-- The text for a template and the literals of its parameters. -/
structure Sends (template : Text) (calls : List SetCall)
    (parameters : List Text) (text : Text) : Prop where
  assigned : parameters.map some =
    (List.range (template.count '?')).map (lastSet calls)
  replaced : Replaced template parameters text
  /-- The buffer is long enough, and the text is sent with its length. -/
  sent : IsInteger (text.length + 1) →
    executeText (preparedQuery template calls) = .sent text.length text
  literals : IsPlain template → ∀ front back num value,
    template = front ++ '?' :: back → endsInPrefix front = false →
    lastCall calls (front.count '?') = some (.string num (some value)) →
    ∃ before after,
      text = before ++ (quote :: dbmsEscape value ++ [quote]) ++ after ∧
        Replaced front (parameters.take (front.count '?')) before ∧
        (ReadsLiteral before (quote :: dbmsEscape value ++ [quote]) after
            value ↔
          admits (run false start before).mode = true ∧
            after.head? ≠ some quote) ∧
        (PlacedAt front back →
          ReadsLiteral before (quote :: dbmsEscape value ++ [quote]) after
            value)

/-- The parameters are literals of calls. -/
theorem exists_call_of_lastSet
    {place : Nat} {parameter : Text}
    (found : lastSet calls place = some parameter) :
    ∃ call ∈ calls, lastCall calls place = some call ∧
      parameter = call.literal := by
  rcases Option.map_eq_some_iff.mp found with ⟨call, last, rfl⟩
  exact ⟨call, List.mem_of_mem_filter (List.mem_of_getLast? last), last, rfl⟩

theorem literal_ne_nil
    {call : SetCall}
    (floats : ∀ num formatted, call = .float num formatted →
      IsFormatted formatted) :
    call.literal ≠ [] := by
  cases call with
  | int num value => exact SqlText.toString_ne_nil value
  | float num formatted =>
      rcases floats num formatted rfl with ⟨sign, number, rfl, -, kinds⟩
      intro empty
      have noNumber := (List.append_eq_nil_iff.mp empty).2
      rcases kinds with rfl | rfl | ⟨whole, fraction, rfl, -⟩
      · cases noNumber
      · cases noNumber
      · have absurdity := (List.append_eq_nil_iff.mp noNumber).2
        cases absurdity
  | string num value =>
      cases value with
      | none => exact List.cons_ne_nil _ _
      | some value => exact List.cons_ne_nil _ _

/-- Every parameter is the literal of a call. -/
theorem exists_call_of_mem
    {parameters : List Text} {parameter : Text}
    (assigned : parameters.map some =
      (List.range (template.count '?')).map (lastSet calls))
    (member : parameter ∈ parameters) :
    ∃ call ∈ calls, parameter = call.literal := by
  have listed : some parameter ∈ parameters.map some :=
    List.mem_map_of_mem member
  rw [assigned] at listed
  rcases List.mem_map.mp listed with ⟨place, -, found⟩
  rcases exists_call_of_lastSet found with ⟨call, made, -, literal⟩
  exact ⟨call, made, literal⟩

/-- A parameter is what is set last for its place. -/
theorem lastSet_of_append
    {earlier later : List Text} {parameter : Text}
    (assigned : (earlier ++ parameter :: later).map some =
      (List.range (template.count '?')).map (lastSet calls))
    (inside : earlier.length < template.count '?') :
    lastSet calls earlier.length = some parameter := by
  have entry := congrArg (fun list => list[earlier.length]?) assigned
  rw [List.getElem?_map, List.getElem?_map,
    List.getElem?_append_right (Nat.le_refl _), Nat.sub_self,
    List.getElem?_range inside, Option.map_some, List.getElem?_cons_zero,
    Option.map_some] at entry
  exact (Option.some.inj entry).symm

/-- The buffer is long enough for the text, which is sent with its length. -/
theorem executeText_eq_sent
    {parameters : List Text}
    (assigned : parameters.map some =
      (List.range (template.count '?')).map (lastSet calls))
    (floats : ∀ num formatted, SetCall.float num formatted ∈ calls →
      IsFormatted formatted)
    (replaced : Replaced template parameters (substitute template parameters))
    (short : IsInteger ((substitute template parameters).length + 1)) :
    executeText (preparedQuery template calls) =
      .sent (substitute template parameters).length
        (substitute template parameters) := by
  have nonempty : ∀ parameter ∈ parameters, parameter ≠ [] := by
    intro parameter member
    rcases exists_call_of_mem assigned member with ⟨call, made, rfl⟩
    apply literal_ne_nil
    rintro num formatted rfl
    exact floats num formatted made
  have textInteger : IsInteger (substitute template parameters).length := by
    unfold IsInteger at *
    omega
  rw [executeText, parameters_preparedQuery,
    mapM_id_eq_some.mpr assigned.symm, queryString_preparedQuery]
  dsimp only
  by_cases none : parameters = []
  · subst none
    rw [if_pos rfl, substitute_nil, fullLength_eq replaced, substitute_nil]
    rw [substitute_nil] at textInteger
    rw [toInt_eq_self textInteger]
  · rw [if_neg none, copyQuery_eq replaced nonempty short]
    dsimp only
    rw [fullLength_eq replaced, toInt_eq_self textInteger]

/--
When every placeholder is set, the template is sent with its question marks
replaced by the literals.  A string is one literal that denotes it iff it is put
where one may begin and no quote follows; whatever the parameters say, it is put
there if the question marks up to its own have their places.
-/
theorem executeText_sends
    (allSet : ∀ place < template.count '?',
      ∃ call ∈ calls, call.num = (place : Int) + 1)
    (floats : ∀ num formatted, SetCall.float num formatted ∈ calls →
      IsFormatted formatted) :
    ∃ parameters text, Sends template calls parameters text := by
  have places : ∃ values : List Text, values.map some =
      (List.range (template.count '?')).map (lastSet calls) :=
    exists_values_iff.mpr fun place inside =>
      lastSet_isSome.mpr (allSet place inside)
  rcases places with ⟨parameters, assigned⟩
  have enough : parameters.length = template.count '?' := by
    have lengths := congrArg List.length assigned
    rwa [List.length_map, List.length_map, List.length_range] at lengths
  have replaced := replaced_substitute enough
  refine ⟨parameters, substitute template parameters, assigned, replaced,
    executeText_eq_sent assigned floats replaced, ?_⟩
  intro _ front back num value split _ last
  subst split
  rcases replaced_split replaced with
    ⟨earlier, parameter, later, before, after, parts, ahead, behind, whole⟩
  have index := count_of_replaced ahead
  have isLiteral : parameter = quote :: dbmsEscape value ++ [quote] := by
    have found : lastSet calls (front.count '?') =
        some (SetCall.string num (some value)).literal :=
      congrArg (Option.map SetCall.literal) last
    rw [parts] at assigned
    have here := lastSet_of_append assigned (by
      rw [index, List.count_append, List.count_cons_self]
      omega)
    rw [index, found] at here
    exact (Option.some.inj here).symm
  have readable : ∀ parameter ∈ earlier, ∀ scan, opens scan.mode = true →
      isBehind (run false scan parameter).mode = true := by
    intro other member scan opened
    have listed : other ∈ parameters := by
      rw [parts]
      exact List.mem_append_left _ member
    rcases exists_call_of_mem assigned listed with ⟨call, made, rfl⟩
    apply isBehind_literal opened
    rintro num formatted rfl
    exact floats num formatted made
  refine ⟨before, after, ?_, ?_, readsLiteral_iff value, ?_⟩
  · rw [whole, isLiteral]
  · rw [parts, ← index, List.take_left]
    exact ahead
  · intro placedAt
    have opened := @opens_of_placedFrom start false .ground front [] before
      earlier placedAt.placed ahead readable rfl
    refine (readsLiteral_iff value).mpr ⟨admits_of_opens opened, ?_⟩
    cases behind with
    | done => exact (Option.some_ne_none _).symm
    | placeholder parameter rest => cases placedAt.ends '?' rfl
    | char plain rest =>
        have separate := placedAt.ends _ rfl
        intro quoted
        rw [Option.some.inj quoted] at separate
        cases separate

end Sending

/-- The statement of `dbms_notify_resource_updated` up to its second value. -/
def notifyTemplate : Text :=
  "UPDATE resources SET lastmodified = ? WHERE id IN (VALUES(?::bigint)".toList

theorem executeText_sends_example :
    IsPlain notifyTemplate ∧
      PlacedAt "UPDATE resources SET lastmodified = ".toList
        " WHERE id IN (VALUES(?::bigint)".toList ∧
      ∃ parameters text, Sends notifyTemplate
        [.string 1 (some "it's?".toList), .int 2 (-7)] parameters text := by
  refine ⟨SqlText.forall_mem_of_all (by decide), ⟨by decide, ?_⟩, ?_⟩
  · rintro char ⟨⟩
    rfl
  apply executeText_sends
  · intro place inside
    have two : notifyTemplate.count '?' = 2 := by decide
    rw [two] at inside
    have cases : place = 0 ∨ place = 1 := by omega
    rcases cases with rfl | rfl
    · exact ⟨_, List.mem_cons_self, rfl⟩
    · exact ⟨_, List.mem_cons_of_mem _ List.mem_cons_self, rfl⟩
  · intro num formatted member
    rcases List.mem_cons.mp member with same | member
    · cases same
    · rcases List.mem_singleton.mp member with same
      cases same

/-- In quotes of the template a string is not a literal of its own. -/
theorem not_forall_readsLiteral :
    ¬ ∀ (template : Text) (calls : List SetCall),
      (∀ place < template.count '?',
        ∃ call ∈ calls, call.num = (place : Int) + 1) →
      (∀ num formatted, SetCall.float num formatted ∈ calls →
        IsFormatted formatted) →
      ∃ parameters text, Sends template calls parameters text ∧
        ∀ front back num value, template = front ++ '?' :: back →
          lastCall calls (front.count '?') = some (.string num (some value)) →
          ∃ before after,
            text = before ++ (quote :: dbmsEscape value ++ [quote]) ++ after ∧
              Replaced front (parameters.take (front.count '?')) before ∧
              ReadsLiteral before (quote :: dbmsEscape value ++ [quote]) after
                value := by
  intro readsLiteral
  have claimed := readsLiteral "SELECT '?'".toList
    [.string 1 (some "x".toList)]
    (by
      intro place inside
      have one : "SELECT '?'".toList.count '?' = 1 := by decide
      rw [one] at inside
      have first : place = 0 := by omega
      exact ⟨_, List.mem_cons_self, by rw [first]; rfl⟩)
    (by
      intro num formatted member
      rcases List.mem_singleton.mp member with same
      cases same)
  rcases claimed with ⟨parameters, text, -, literals⟩
  rcases literals "SELECT '".toList "'".toList 1 "x".toList rfl rfl with
    ⟨before, after, -, replaced, reads⟩
  have none : "SELECT '".toList.count '?' = 0 := by decide
  rw [none, List.take_zero] at replaced
  have same := substitute_of_replaced replaced
  rw [substitute_nil] at same
  rcases reads.token with ⟨tokens, finished, -, -⟩
  rw [← same] at finished
  cases finished

end Limestone.Placeholders
