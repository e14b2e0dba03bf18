import Limestone.Library.Loop
import Limestone.Library.Segments
import Limestone.Schema

/-!
# Language tags: `validate_language_tag`

The tags between the hyphens are taken one by one, and hyphens that follow one
another are taken as one.  The length of a tag is compared before the index is
raised, so that a ninth letter is let through.
-/

namespace Limestone.LanguageTag

open Library
open Library.Segments

/-! ## The function -/

/-- The loop over the characters of a tag from the index `i`. -/
def isRejected (i : Nat) : Text → Bool
  | [] => false
  | char :: tag => i > 8 || !char.isAlpha || isRejected (i + 1) tag

/-- The variables of the loop over the tags. -/
structure TagLoop where
  tag : Text
  last : Text
deriving DecidableEq, Repr

/-- The body of the loop, and its condition. -/
def tagStep (loop : TagLoop) : Int ⊕ TagLoop :=
  if isRejected 0 loop.tag then .inl (-1)
  else
    match strtok '-' loop.last with
    | (none, _) => .inl 0
    | (some tag, last) => .inr ⟨tag, last⟩

/-- `validate_language_tag`; `none` would be a loop that goes on. -/
def validateLanguageTag (langTag : Text) : Option Int :=
  match strtok '-' langTag with
  | (none, _) => some (-1)
  | (some tag, last) => Loop.run tagStep langTag.length ⟨tag, last⟩

/-! ## The grammar -/

/-- `1*8ALPHA`. -/
def IsTag (tag : Text) : Prop :=
  1 ≤ tag.length ∧ tag.length ≤ 8 ∧ ∀ char ∈ tag, char.isAlpha

/-- `primary-tag *( "-" subtag )`. -/
def IsLanguageTag (langTag : Text) : Prop :=
  ∃ primaryTag subtags, IsTag primaryTag ∧ (∀ subtag ∈ subtags, IsTag subtag) ∧
    langTag = primaryTag ++ slashed '-' subtags

section Grammar

variable {tag langTag : Text}

theorem IsTag.hyphen_notMem (isTag : IsTag tag) : '-' ∉ tag := by
  intro member
  have letter := isTag.2.2 '-' member
  exact Bool.false_ne_true letter

/-- The grammar, piece by piece. -/
theorem isLanguageTag_iff :
    IsLanguageTag langTag ↔ ∀ tag ∈ langTag.splitOn '-', IsTag tag := by
  constructor
  · rintro ⟨primaryTag, subtags, primary, others, rfl⟩
    rw [splitOn_append_slashed primary.hyphen_notMem
      fun subtag member => (others subtag member).hyphen_notMem,
      List.forall_mem_cons]
    exact ⟨primary, others⟩
  · intro tags
    have spelled := slashed_splitOn '-' langTag
    cases split : langTag.splitOn '-' with
    | nil => exact (List.splitOn_ne_nil '-' langTag split).elim
    | cons primaryTag subtags =>
        rw [split, List.forall_mem_cons] at tags
        rw [split, slashed_cons, List.cons_append, List.cons.injEq] at spelled
        exact ⟨primaryTag, subtags, tags.1, tags.2, spelled.2.symm⟩

end Grammar

/-! ## What is let through -/

/-- Letters, one more than the grammar allows. -/
def IsPassed (tag : Text) : Prop :=
  tag.length ≤ 9 ∧ ∀ char ∈ tag, char.isAlpha

theorem isRejected_iff
    {i : Nat} {tag : Text} :
    isRejected i tag = false ↔
      (tag = [] ∨ i + tag.length ≤ 9) ∧ ∀ char ∈ tag, char.isAlpha := by
  induction tag generalizing i with
  | nil => simp [isRejected]
  | cons char tag induction =>
      rw [isRejected, Bool.or_eq_false_iff, Bool.or_eq_false_iff, induction,
        decide_eq_false_iff_not, Bool.not_eq_false', List.forall_mem_cons,
        List.length_cons]
      constructor
      · rintro ⟨⟨short, letter⟩, fits, letters⟩
        refine ⟨Or.inr ?_, letter, letters⟩
        rcases fits with rfl | fits
        · rw [List.length_nil]
          omega
        · omega
      · rintro ⟨fits, letter, letters⟩
        have bound : i + (tag.length + 1) ≤ 9 :=
          fits.resolve_left (List.cons_ne_nil _ _)
        refine ⟨⟨by omega, letter⟩, Or.inr (by omega), letters⟩

theorem isRejected_zero_iff
    {tag : Text} :
    isRejected 0 tag = false ↔ IsPassed tag := by
  rw [isRejected_iff, IsPassed, Nat.zero_add]
  constructor
  · rintro ⟨rfl | short, letters⟩
    · exact ⟨Nat.zero_le 9, letters⟩
    · exact ⟨short, letters⟩
  · rintro ⟨short, letters⟩
    exact ⟨Or.inr short, letters⟩

/-- The loop looks at all tags, until one is not let through. -/
theorem run_tagStep
    {tag last : Text} {fuel : Nat}
    (enough : (tokens '-' last).length < fuel) :
    ∃ status, Loop.run tagStep fuel ⟨tag, last⟩ = some status ∧
      (status = 0 ↔ ∀ name ∈ tag :: tokens '-' last, IsPassed name) := by
  rcases Nat.exists_eq_add_one_of_ne_zero (Nat.ne_zero_of_lt enough) with
    ⟨fuel, rfl⟩
  generalize read : tokens '-' last = names at enough ⊢
  induction names generalizing tag last fuel with
  | nil =>
      rw [Loop.run, tagStep, strtok_of_no_tokens read]
      cases rejected : isRejected 0 tag with
      | false =>
          refine ⟨0, rfl, iff_of_true rfl ?_⟩
          rw [List.forall_mem_singleton]
          exact isRejected_zero_iff.mp rejected
      | true =>
          refine ⟨-1, rfl, iff_of_false (by decide) ?_⟩
          intro passed
          have kept := isRejected_zero_iff.mpr
            (passed tag List.mem_cons_self)
          exact Bool.false_ne_true (kept.symm.trans rejected)
  | cons name names induction =>
      rw [List.length_cons, Nat.add_lt_add_iff_right] at enough
      rcases Nat.exists_eq_add_one_of_ne_zero (Nat.ne_zero_of_lt enough) with
        ⟨fuel, rfl⟩
      rcases strtok_of_tokens read with ⟨later, found, rest⟩
      rw [Loop.run, tagStep, found, List.forall_mem_cons]
      cases rejected : isRejected 0 tag with
      | false =>
          rcases induction fuel rest enough with ⟨status, stopped, zero⟩
          refine ⟨status, stopped, ?_⟩
          rw [zero, and_iff_right (isRejected_zero_iff.mp rejected)]
      | true =>
          refine ⟨-1, rfl, iff_of_false (by decide) ?_⟩
          intro passed
          have kept := isRejected_zero_iff.mpr passed.1
          exact Bool.false_ne_true (kept.symm.trans rejected)

/-- A text is let through if it has tags and all of them are. -/
theorem validateLanguageTag_spec (langTag : Text) :
    ∃ status, validateLanguageTag langTag = some status ∧
      (status = 0 ↔ tokens '-' langTag ≠ [] ∧
        ∀ tag ∈ tokens '-' langTag, IsPassed tag) := by
  cases read : tokens '-' langTag with
  | nil =>
      refine ⟨-1, ?_, iff_of_false (by decide) fun passed => passed.1 rfl⟩
      rw [validateLanguageTag, strtok_of_no_tokens read]
  | cons tag tags =>
      rcases strtok_of_tokens read with ⟨last, found, rest⟩
      have enough : (tokens '-' last).length < langTag.length := by
        have fewer : (tokens '-' langTag).length ≤ langTag.length :=
          length_tokens_le
        rw [read, List.length_cons] at fewer
        rw [rest]
        exact fewer
      rcases @run_tagStep tag last langTag.length enough with
        ⟨status, stopped, zero⟩
      refine ⟨status, ?_, ?_⟩
      · rw [validateLanguageTag, found]
        exact stopped
      · rw [zero, rest]
        exact (and_iff_right (List.cons_ne_nil _ _)).symm

/-! ## Where the grammar is kept -/

/--
A text that is rejected by the grammar for another reason than an empty tag or
a ninth letter, or in which there are none of these.
-/
def IsToldApart (langTag : Text) : Prop :=
  (∃ char ∈ langTag, char ≠ '-' ∧ ¬ char.isAlpha) ∨
    (∃ tag ∈ tokens '-' langTag, 9 < tag.length) ∨
    (∀ char ∈ langTag, char = '-') ∨
    ∀ piece ∈ langTag.splitOn '-', piece ≠ [] ∧ piece.length ≠ 9

/-- The function returns, and with success just for a language tag. -/
def Validates (langTag : Text) : Prop :=
  ∃ status, validateLanguageTag langTag = some status ∧
    (status = 0 ↔ IsLanguageTag langTag)

section Validates

variable {langTag : Text}

theorem tokens_eq_nil_iff :
    tokens '-' langTag = [] ↔ ∀ char ∈ langTag, char = '-' := by
  constructor
  · intro nothing char member
    by_contra other
    rcases (mem_tokens_iff other).mp member with ⟨tag, found, -⟩
    rw [nothing] at found
    cases found
  · intro hyphens
    rw [List.eq_nil_iff_forall_not_mem]
    intro tag member
    have segment := isSegment_of_mem_tokens member
    rcases List.exists_mem_of_ne_nil tag segment.1 with ⟨char, within⟩
    have other : char ≠ '-' := by
      rintro rfl
      exact segment.2 within
    exact other
      (hyphens char ((mem_tokens_iff other).mpr ⟨tag, member, within⟩))

/-- What a tag of the text is rejected for. -/
theorem exists_not_isPassed_iff :
    (∃ tag ∈ tokens '-' langTag, ¬ IsPassed tag) ↔
      (∃ char ∈ langTag, char ≠ '-' ∧ ¬ char.isAlpha) ∨
        ∃ tag ∈ tokens '-' langTag, 9 < tag.length := by
  constructor
  · rintro ⟨tag, member, rejected⟩
    by_cases short : tag.length ≤ 9
    · left
      have found : ∃ char ∈ tag, ¬ char.isAlpha := by
        by_contra letters
        push Not at letters
        exact rejected ⟨short, letters⟩
      rcases found with ⟨char, within, notLetter⟩
      have other : char ≠ '-' := by
        rintro rfl
        exact (isSegment_of_mem_tokens member).2 within
      exact ⟨char, (mem_tokens_iff other).mpr ⟨tag, member, within⟩, other,
        notLetter⟩
    · right
      exact ⟨tag, member, Nat.lt_of_not_le short⟩
  · rintro (⟨char, within, other, notLetter⟩ | ⟨tag, member, long⟩)
    · rcases (mem_tokens_iff other).mp within with ⟨tag, member, found⟩
      exact ⟨tag, member, fun passed => notLetter (passed.2 char found)⟩
    · exact ⟨tag, member, fun passed => Nat.not_lt_of_le passed.1 long⟩

/-- A language tag is let through, and its pieces are as the grammar wants. -/
theorem IsLanguageTag.passed (isLanguageTag : IsLanguageTag langTag) :
    (tokens '-' langTag ≠ [] ∧ ∀ tag ∈ tokens '-' langTag, IsPassed tag) ∧
      ∀ piece ∈ langTag.splitOn '-', piece ≠ [] ∧ piece.length ≠ 9 := by
  have tags := isLanguageTag_iff.mp isLanguageTag
  have filled : ∀ piece ∈ langTag.splitOn '-', piece ≠ [] := by
    intro piece member
    exact List.ne_nil_of_length_pos (tags piece member).1
  have same : tokens '-' langTag = langTag.splitOn '-' := by
    rw [tokens, List.filter_eq_self]
    intro piece member
    simpa using filled piece member
  constructor
  · rw [same]
    refine ⟨List.splitOn_ne_nil '-' langTag, ?_⟩
    intro piece member
    exact ⟨Nat.le_succ_of_le (tags piece member).2.1, (tags piece member).2.2⟩
  · intro piece member
    refine ⟨filled piece member, ?_⟩
    have short := (tags piece member).2.1
    omega

theorem isLanguageTag_of_pieces
    (passed : ∀ tag ∈ tokens '-' langTag, IsPassed tag)
    (pieces : ∀ piece ∈ langTag.splitOn '-', piece ≠ [] ∧ piece.length ≠ 9) :
    IsLanguageTag langTag := by
  rw [isLanguageTag_iff]
  intro piece member
  rcases pieces piece member with ⟨filled, notNine⟩
  have isToken : piece ∈ tokens '-' langTag :=
    List.mem_filter.mpr ⟨member, by simpa using filled⟩
  rcases passed piece isToken with ⟨short, letters⟩
  exact ⟨List.length_pos_of_ne_nil filled, by omega, letters⟩

theorem validates_iff (langTag : Text) :
    Validates langTag ↔ IsToldApart langTag := by
  rcases validateLanguageTag_spec langTag with ⟨status, returned, zero⟩
  have agreement : Validates langTag ↔
      ((tokens '-' langTag ≠ [] ∧ ∀ tag ∈ tokens '-' langTag, IsPassed tag) ↔
        IsLanguageTag langTag) := by
    rw [Validates, ← zero]
    constructor
    · rintro ⟨other, same, agrees⟩
      rw [returned] at same
      rcases Option.some.inj same with rfl
      exact agrees
    · intro agrees
      exact ⟨status, returned, agrees⟩
  rw [agreement]
  constructor
  · intro agrees
    by_cases passed : tokens '-' langTag ≠ [] ∧
        ∀ tag ∈ tokens '-' langTag, IsPassed tag
    · exact Or.inr (Or.inr (Or.inr (agrees.mp passed).passed.2))
    · rw [not_and_or, not_not, tokens_eq_nil_iff] at passed
      rcases passed with hyphens | rejected
      · exact Or.inr (Or.inr (Or.inl hyphens))
      · push Not at rejected
        rcases exists_not_isPassed_iff.mp rejected with other | long
        · exact Or.inl other
        · exact Or.inr (Or.inl long)
  · have grammatical : IsLanguageTag langTag →
        tokens '-' langTag ≠ [] ∧ ∀ tag ∈ tokens '-' langTag, IsPassed tag :=
      fun isLanguageTag => isLanguageTag.passed.1
    have refused :
        ((∃ char ∈ langTag, char ≠ '-' ∧ ¬ char.isAlpha) ∨
          ∃ tag ∈ tokens '-' langTag, 9 < tag.length) →
        ¬ ∀ tag ∈ tokens '-' langTag, IsPassed tag := by
      intro reason passed
      rcases exists_not_isPassed_iff.mpr reason with ⟨tag, member, rejected⟩
      exact rejected (passed tag member)
    rintro (other | long | hyphens | pieces)
    · exact ⟨fun passed => (refused (Or.inl other) passed.2).elim, grammatical⟩
    · exact ⟨fun passed => (refused (Or.inr long) passed.2).elim, grammatical⟩
    · exact ⟨fun passed => (passed.1 (tokens_eq_nil_iff.mpr hyphens)).elim,
        grammatical⟩
    · exact ⟨fun passed => isLanguageTag_of_pieces passed.2 pieces,
        grammatical⟩

end Validates

/-- Nine letters are let through. -/
theorem not_validates : ¬ ∀ langTag, Validates langTag := by
  intro validates
  rcases validates "germanics".toList with ⟨status, returned, agrees⟩
  have accepted : validateLanguageTag "germanics".toList = some 0 := by
    decide
  rw [accepted] at returned
  rcases Option.some.inj returned with rfl
  have isTag : IsTag "germanics".toList :=
    isLanguageTag_iff.mp (agrees.mp rfl) _ (by decide)
  exact absurd isTag.2.1 (by decide)

end Limestone.LanguageTag
