import Mathlib.Data.List.Infix

/-!
# Functions of SQL on texts

`replace` substitutes every occurrence of a text, from the left and without
overlaps.  `LIKE` matches a text with a pattern in which `%` stands for any
text, `_` for any character and a backslash for the character after it.
-/

namespace Limestone.Library.SqlText

/-- Texts are compared by their characters. -/
instance lawfulBEqText : LawfulBEq (List Char) := inferInstance

/--
What every character of a list has can be decided without looking at all
characters there are.
-/
theorem forall_mem_of_all
    {p : Char → Prop} [DecidablePred p] {text : List Char}
    (all : (text.all fun char => decide (p char)) = true) :
    ∀ char ∈ text, p char :=
  fun char member => of_decide_eq_true (List.all_eq_true.mp all char member)

variable {α : Type*} [DecidableEq α]

/-! ## `replace` -/

/-- `replace` behind the characters of an occurrence that are left to skip. -/
def replaceFrom (old new : List α) : Nat → List α → List α
  | _, [] => []
  | skip + 1, _ :: tail => replaceFrom old new skip tail
  | 0, head :: tail =>
      if old <+: head :: tail then
        new ++ replaceFrom old new (old.length - 1) tail
      else head :: replaceFrom old new 0 tail

/-- `replace(text, old, new)`. -/
def replace (old new text : List α) : List α :=
  if old = [] then text else replaceFrom old new 0 text

variable {old new text : List α}

theorem replaceFrom_skip (skipped : List α) :
    replaceFrom old new skipped.length (skipped ++ text) =
      replaceFrom old new 0 text := by
  induction skipped with
  | nil => rfl
  | cons head tail induction => exact induction

/-- An occurrence at the front is replaced, and the search goes on behind. -/
theorem replaceFrom_append (nonempty : old ≠ []) :
    replaceFrom old new 0 (old ++ text) =
      new ++ replaceFrom old new 0 text := by
  cases old with
  | nil => exact (nonempty rfl).elim
  | cons head tail =>
      have occurs : head :: tail <+: head :: (tail ++ text) :=
        List.prefix_append (head :: tail) text
      show replaceFrom (head :: tail) new 0 (head :: (tail ++ text)) = _
      rw [replaceFrom, if_pos occurs]
      show new ++ replaceFrom (head :: tail) new tail.length _ = _
      rw [replaceFrom_skip]

/-- A text without an occurrence stays. -/
theorem replaceFrom_of_not_infix (absent : ¬ old <:+: text) :
    replaceFrom old new 0 text = text := by
  induction text with
  | nil => rfl
  | cons head tail induction =>
      have notFirst : ¬ old <+: head :: tail :=
        fun first => absent first.isInfix
      have notLater : ¬ old <:+: tail :=
        fun later => absent (later.trans (List.suffix_cons head tail).isInfix)
      rw [replaceFrom, if_neg notFirst, induction notLater]

theorem replaceFrom_self (nonempty : old ≠ []) (text : List α) :
    replaceFrom old old 0 text = text := by
  induction length : text.length using Nat.strong_induction_on
    generalizing text with
  | _ size induction =>
      cases text with
      | nil => rfl
      | cons head tail =>
          by_cases first : old <+: head :: tail
          · rcases first with ⟨rest, equation⟩
            rw [← equation, replaceFrom_append nonempty]
            have positive := List.length_pos_iff.mpr nonempty
            have shorter : rest.length < size := by
              rw [← length, ← equation, List.length_append]
              omega
            rw [induction rest.length shorter rest rfl]
          · have shorter : tail.length < size := by
              rw [← length]
              exact Nat.lt_succ_self _
            rw [replaceFrom, if_neg first,
              induction tail.length shorter tail rfl]

/-- Every replacement changes the length by the same amount. -/
theorem length_replaceFrom (nonempty : old ≠ []) (text : List α) :
    ∃ count, (replaceFrom old new 0 text).length + count * old.length =
      text.length + count * new.length := by
  induction length : text.length using Nat.strong_induction_on
    generalizing text with
  | _ size induction =>
      cases text with
      | nil => exact ⟨0, by simp [← length, replaceFrom]⟩
      | cons head tail =>
          by_cases first : old <+: head :: tail
          · rcases first with ⟨rest, equation⟩
            rw [← equation, List.length_append] at length
            have positive := List.length_pos_iff.mpr nonempty
            have shorter : rest.length < size := by omega
            rcases induction rest.length shorter rest rfl with ⟨count, counted⟩
            refine ⟨count + 1, ?_⟩
            rw [← equation, replaceFrom_append nonempty, List.length_append,
              Nat.succ_mul, Nat.succ_mul]
            omega
          · have shorter : tail.length < size := by
              rw [← length]
              exact Nat.lt_succ_self _
            rcases induction tail.length shorter tail rfl with ⟨count, counted⟩
            refine ⟨count, ?_⟩
            rw [replaceFrom, if_neg first, List.length_cons]
            rw [List.length_cons] at length
            omega

/-- A replacement of an occurrence by another text is seen in the result. -/
theorem eq_of_replaceFrom_eq
    (nonempty : old ≠ [])
    (occurs : old <:+: text)
    (same : replaceFrom old new 0 text = text) :
    new = old := by
  induction text with
  | nil => exact (nonempty (List.infix_nil.mp occurs)).elim
  | cons head tail induction =>
      by_cases first : old <+: head :: tail
      · rcases first with ⟨rest, equation⟩
        rw [← equation, replaceFrom_append nonempty] at same
        have changed : ∃ count,
            (replaceFrom old new 0 rest).length + count * old.length =
              rest.length + count * new.length :=
          length_replaceFrom nonempty rest
        rcases changed with ⟨count, counted⟩
        have lengths := congrArg List.length same
        rw [List.length_append, List.length_append] at lengths
        have sameLength : new.length = old.length := by
          rcases Nat.lt_trichotomy new.length old.length with
            less | equal | more
          · have := Nat.mul_le_mul_left count less.le
            omega
          · exact equal
          · have := Nat.mul_le_mul_left count more.le
            omega
        exact (List.append_inj same sameLength).1
      · rw [replaceFrom, if_neg first] at same
        apply induction _ (List.cons.inj same).2
        rcases List.infix_cons_iff.mp occurs with front | later
        · exact absurd front first
        · exact later

/-! ## Numbers as texts -/

/-- The text of a number has a sign if it is negative. -/
theorem toString_cases (value : Int) :
    (∃ number, value = Int.ofNat number ∧
      (toString value).toList = Nat.toDigits 10 number) ∨
    ∃ number, value = Int.negSucc number ∧
      (toString value).toList = '-' :: Nat.toDigits 10 (number + 1) := by
  cases value with
  | ofNat number =>
      refine Or.inl ⟨number, rfl, ?_⟩
      show (Nat.repr number).toList = _
      exact Nat.toList_repr
  | negSucc number =>
      refine Or.inr ⟨number, rfl, ?_⟩
      show ("-" ++ Nat.repr (number + 1)).toList = _
      simp

theorem isDigit_of_mem_toDigits {char : Char} {number : Nat}
    (member : char ∈ Nat.toDigits 10 number) :
    char.isDigit = true :=
  Nat.isDigit_of_mem_toDigits (by decide) (Nat.le_refl 10) member

theorem all_isDigit_toDigits (number : Nat) :
    (Nat.toDigits 10 number).all Char.isDigit = true :=
  List.all_eq_true.mpr fun _ => isDigit_of_mem_toDigits

theorem minus_notMem_toDigits (number : Nat) :
    '-' ∉ Nat.toDigits 10 number := by
  intro member
  cases isDigit_of_mem_toDigits member

theorem toDigits_injective : Function.Injective (Nat.toDigits 10) := by
  intro number other same
  rw [← Nat.ofDigitChars_ten_toDigits (n := number), same,
    Nat.ofDigitChars_ten_toDigits]

/-- The characters of a number. -/
theorem mem_toString {char : Char} {value : Int}
    (member : char ∈ (toString value).toList) :
    char.isDigit = true ∨ char = '-' := by
  rcases toString_cases value with ⟨number, _, text⟩ | ⟨number, _, text⟩
  · rw [text] at member
    exact Or.inl (isDigit_of_mem_toDigits member)
  · rw [text, List.mem_cons] at member
    rcases member with rfl | member
    · exact Or.inr rfl
    · exact Or.inl (isDigit_of_mem_toDigits member)

/-- Different numbers have different texts. -/
theorem toString_injective :
    Function.Injective fun value : Int => (toString value).toList := by
  intro value other same
  have same : (toString value).toList = (toString other).toList := same
  rcases toString_cases value with
    ⟨number, rfl, text⟩ | ⟨number, rfl, text⟩
  · rcases toString_cases other with
      ⟨next, rfl, otherText⟩ | ⟨next, rfl, otherText⟩
    · rw [text, otherText] at same
      rw [toDigits_injective same]
    · rw [text, otherText] at same
      exact absurd (same ▸ List.mem_cons_self ..)
        (minus_notMem_toDigits number)
  · rcases toString_cases other with
      ⟨next, rfl, otherText⟩ | ⟨next, rfl, otherText⟩
    · rw [text, otherText] at same
      exact absurd (same ▸ List.mem_cons_self ..) (minus_notMem_toDigits next)
    · rw [text, otherText] at same
      have digits := toDigits_injective (List.cons.inj same).2
      rw [Nat.succ.inj digits]

theorem toString_ne_nil (value : Int) : (toString value).toList ≠ [] := by
  rcases toString_cases value with ⟨number, _, text⟩ | ⟨number, _, text⟩
  · rw [text]
    exact Nat.toDigits_ne_nil
  · rw [text]
    exact List.cons_ne_nil _ _

/-! ## `LIKE` -/

/-- `LIKE`, behind a backslash or not. -/
def likeFrom : Bool → List Char → List Char → Bool
  | _, [], text => text.isEmpty
  | escaped, char :: pattern, text =>
      if !escaped && char == '%' then
        text.tails.any fun rest => likeFrom false pattern rest
      else if !escaped && char == '\\' then likeFrom true pattern text
      else
        match text with
        | [] => false
        | head :: rest =>
            (!escaped && char == '_' || head == char) &&
              likeFrom false pattern rest

/-- `text LIKE pattern`. -/
def like (text pattern : List Char) : Bool :=
  likeFrom false pattern text

/-- A character that stands for itself in a pattern. -/
def IsLiteral (char : Char) : Prop :=
  char ≠ '%' ∧ char ≠ '_' ∧ char ≠ '\\'

theorem like_any (text : List Char) : like text ['%'] = true := by
  show text.tails.any (fun rest => rest.isEmpty) = true
  rw [List.any_eq_true]
  exact ⟨[], (List.mem_tails [] text).mpr (List.nil_suffix), rfl⟩

/-- A pattern of literals and a last `%` matches by the front. -/
theorem like_prefix
    {literals text : List Char}
    (isLiteral : ∀ char ∈ literals, IsLiteral char) :
    like text (literals ++ ['%']) = true ↔ literals <+: text := by
  induction literals generalizing text with
  | nil => exact iff_of_true (like_any text) List.nil_prefix
  | cons char literals induction =>
      rcases isLiteral char (List.mem_cons_self ..) with
        ⟨notAny, notOne, notEscape⟩
      have later : ∀ other ∈ literals, IsLiteral other :=
        fun other member => isLiteral other (List.mem_cons_of_mem _ member)
      cases text with
      | nil =>
          have noMatch : like [] (char :: literals ++ ['%']) = false := by
            simp [like, likeFrom, notAny, notEscape]
          rw [noMatch]
          simp
      | cons head rest =>
          have unfolded : like (head :: rest) (char :: literals ++ ['%']) =
              (head == char && like rest (literals ++ ['%'])) := by
            have notOneEq : (char == '_') = false := by simpa using notOne
            simp [like, likeFrom, notAny, notOneEq, notEscape]
          rw [unfolded, Bool.and_eq_true, beq_iff_eq, induction later,
            List.cons_prefix_cons]
          exact and_congr_left' eq_comm

/-- Without a backslash the front of a text matches as a pattern. -/
theorem like_of_front
    {front text : List Char}
    (noEscape : '\\' ∉ front)
    (isPrefix : front <+: text) :
    like text (front ++ ['%']) = true := by
  induction front generalizing text with
  | nil => exact like_any text
  | cons char front induction =>
      rw [List.mem_cons, not_or] at noEscape
      rcases isPrefix with ⟨rest, rfl⟩
      have later := @induction (front ++ rest) noEscape.2
        (List.prefix_append front rest)
      have literal : (char == '\\') = false :=
        beq_eq_false_iff_ne.mpr (Ne.symm noEscape.1)
      by_cases any : char = '%'
      · subst any
        -- the wildcard takes the character itself
        show ('%' :: (front ++ rest)).tails.any
          (fun text => like text (front ++ ['%'])) = true
        rw [List.any_eq_true]
        exact ⟨front ++ rest, (List.mem_tails _ _).mpr
          (List.suffix_cons '%' (front ++ rest)), later⟩
      · have notAny : (char == '%') = false := beq_eq_false_iff_ne.mpr any
        simp [like, likeFrom, notAny, literal]
        exact later

/--
A text can be gone through along the characters of a front: a character that
means nothing is met by itself, `_` by any character, `%` by any number of
them, and a character behind a backslash by itself.  Anything may follow, but
a last backslash leaves a percent sign and the end.
-/
inductive GoesAlong : List Char → List Char → Prop
  | done (rest : List Char) : GoesAlong [] rest
  | any {front rest : List Char} (passed : List Char) :
      GoesAlong front rest → GoesAlong ('%' :: front) (passed ++ rest)
  | one {front rest : List Char} (char : Char) :
      GoesAlong front rest → GoesAlong ('_' :: front) (char :: rest)
  | escaped {front rest : List Char} (char : Char) :
      GoesAlong front rest →
        GoesAlong ('\\' :: char :: front) (char :: rest)
  | last : GoesAlong ['\\'] ['%']
  | itself {front rest : List Char} {char : Char} :
      IsLiteral char → GoesAlong front rest →
        GoesAlong (char :: front) (char :: rest)

section Fronts

variable {front text : List Char} {char : Char}

theorem like_anyFront :
    like text ('%' :: front) = true ↔
      ∃ rest, rest <:+ text ∧ like rest front = true := by
  show text.tails.any (fun rest => like rest front) = true ↔ _
  rw [List.any_eq_true]
  simp only [List.mem_tails]

theorem like_oneFront :
    like text ('_' :: front) = true ↔
      ∃ char rest, text = char :: rest ∧ like rest front = true := by
  cases text with
  | nil => simp [like, likeFrom]
  | cons head rest => simp [like, likeFrom]

theorem like_escapedFront :
    like text ('\\' :: char :: front) = true ↔
      ∃ rest, text = char :: rest ∧ like rest front = true := by
  cases text with
  | nil => simp [like, likeFrom]
  | cons head rest =>
      simp only [like, likeFrom]
      simp

theorem like_literalFront (isLiteral : IsLiteral char) :
    like text (char :: front) = true ↔
      ∃ rest, text = char :: rest ∧ like rest front = true := by
  rcases isLiteral with ⟨notAny, notOne, notEscape⟩
  cases text with
  | nil => simp [like, likeFrom, notAny, notEscape]
  | cons head rest => simp [like, likeFrom, notAny, notOne, notEscape]

/-- The pattern made of a front and a percent sign, character by character. -/
theorem like_front_iff (front text : List Char) :
    like text (front ++ ['%']) = true ↔ GoesAlong front text := by
  induction length : front.length using Nat.strong_induction_on
    generalizing front text with
  | _ size induction =>
      rcases front with _ | ⟨char, front⟩
      · exact iff_of_true (like_any text) (GoesAlong.done text)
      have later (rest : List Char) :
          like rest (front ++ ['%']) = true ↔ GoesAlong front rest :=
        induction front.length (by rw [← length]; exact Nat.lt_succ_self _)
          front rest rfl
      by_cases any : char = '%'
      · subst any
        rw [List.cons_append, like_anyFront]
        constructor
        · rintro ⟨rest, ⟨passed, rfl⟩, matched⟩
          exact GoesAlong.any passed ((later rest).mp matched)
        · intro along
          cases along with
          | any passed along =>
              exact ⟨_, List.suffix_append passed _, (later _).mpr along⟩
          | itself isLiteral along => exact (isLiteral.1 rfl).elim
      by_cases one : char = '_'
      · subst one
        rw [List.cons_append, like_oneFront]
        constructor
        · rintro ⟨head, rest, rfl, matched⟩
          exact GoesAlong.one head ((later rest).mp matched)
        · intro along
          cases along with
          | one head along => exact ⟨head, _, rfl, (later _).mpr along⟩
          | itself isLiteral along => exact (isLiteral.2.1 rfl).elim
      by_cases escape : char = '\\'
      · subst escape
        rcases front with _ | ⟨char, front⟩
        · show like text ['\\', '%'] = true ↔ _
          rw [like_escapedFront]
          constructor
          · rintro ⟨rest, rfl, ended⟩
            rcases List.isEmpty_iff.mp ended with rfl
            exact GoesAlong.last
          · intro along
            cases along with
            | last => exact ⟨[], rfl, rfl⟩
            | itself isLiteral along => exact (isLiteral.2.2 rfl).elim
        · have behind (rest : List Char) :
              like rest (front ++ ['%']) = true ↔ GoesAlong front rest :=
            induction front.length
              (by rw [← length, List.length_cons, List.length_cons]; omega)
              front rest rfl
          rw [List.cons_append, List.cons_append, like_escapedFront]
          constructor
          · rintro ⟨rest, rfl, matched⟩
            exact GoesAlong.escaped char ((behind rest).mp matched)
          · intro along
            cases along with
            | escaped _ along => exact ⟨_, rfl, (behind _).mpr along⟩
            | itself isLiteral along => exact (isLiteral.2.2 rfl).elim
      · have isLiteral : IsLiteral char := ⟨any, one, escape⟩
        rw [List.cons_append, like_literalFront isLiteral]
        constructor
        · rintro ⟨rest, rfl, matched⟩
          exact GoesAlong.itself isLiteral ((later rest).mp matched)
        · intro along
          cases along with
          | any => exact (any rfl).elim
          | one => exact (one rfl).elim
          | escaped => exact (escape rfl).elim
          | last => exact (escape rfl).elim
          | itself _ along => exact ⟨_, rfl, (later _).mpr along⟩

end Fronts

/-- A front of characters that mean nothing is gone along by what begins so. -/
theorem goesAlong_of_literals
    {front text : List Char}
    (isLiteral : ∀ char ∈ front, IsLiteral char) :
    GoesAlong front text ↔ front <+: text := by
  rw [← like_front_iff, like_prefix isLiteral]

end Limestone.Library.SqlText
