import Mathlib.Data.List.Basic
import Mathlib.Data.List.TakeWhile

/-!
# Texts cut at a separator

The tokens of a text are the non-empty pieces between separators.  Squeezing
runs of separators to one gives a text with the same tokens whose shape is
known, so that a prefix that spells the first tokens can be found by counting
separators.
-/

namespace Limestone.Library.Segments

variable {α : Type*}

/-- Every name with a separator before it. -/
def slashed (sep : α) (names : List (List α)) : List α :=
  names.flatMap fun name => sep :: name

/-- The names with separators between them. -/
def joined (sep : α) : List (List α) → List α
  | [] => []
  | name :: names => name ++ slashed sep names

/-- A name that is a token of its own: non-empty and free of separators. -/
def IsSegment (sep : α) (name : List α) : Prop :=
  name ≠ [] ∧ sep ∉ name

/-- What may be left of a separator at the end. -/
def IsTrail (sep : α) (trail : List α) : Prop :=
  trail = [] ∨ trail = [sep]

/-- A text is empty or begins with a separator. -/
def IsCut (sep : α) (text : List α) : Prop :=
  text = [] ∨ ∃ later, text = sep :: later

variable {sep : α} {text other name trail : List α}
  {names rest : List (List α)}

theorem IsCut.of_isPrefix (isCut : IsCut sep text) (isPrefix : other <+: text) :
    IsCut sep other := by
  cases other with
  | nil => exact Or.inl rfl
  | cons head tail =>
      rcases isCut with rfl | ⟨later, rfl⟩
      · cases List.prefix_nil.mp isPrefix
      · right
        rw [(List.cons_prefix_cons.mp isPrefix).1]
        exact ⟨tail, rfl⟩

@[simp]
theorem slashed_nil : slashed sep [] = [] :=
  rfl

@[simp]
theorem slashed_cons :
    slashed sep (name :: names) = sep :: name ++ slashed sep names :=
  rfl

theorem slashed_append :
    slashed sep (names ++ rest) = slashed sep names ++ slashed sep rest := by
  simp [slashed]

theorem sep_cons_joined (nonempty : names ≠ []) :
    sep :: joined sep names = slashed sep names := by
  cases names with
  | nil => exact (nonempty rfl).elim
  | cons name names => rfl

theorem getLast?_slashed
    (segments : ∀ name ∈ names, IsSegment sep name)
    (nonempty : names ≠ []) :
    (slashed sep names).getLast? ≠ some sep := by
  rcases List.eq_nil_or_concat names with rfl | ⟨front, last, rfl⟩
  · exact (nonempty rfl).elim
  · have segment := segments last (by simp)
    rw [List.concat_eq_append, slashed_append, slashed_cons, slashed_nil,
      List.append_nil, ← List.singleton_append, ← List.append_assoc,
      List.getLast?_append_of_ne_nil _ segment.1]
    intro found
    exact segment.2 (List.mem_of_getLast? found)

/-- One name more makes a joined text longer by it and a separator. -/
theorem length_joined_take
    {count : Nat} {next : List α}
    (positive : 0 < count)
    (isNext : names[count]? = some next) :
    (joined sep (names.take (count + 1))).length =
      (joined sep (names.take count)).length + 1 + next.length := by
  cases names with
  | nil => cases isNext
  | cons name names =>
      cases count with
      | zero => cases positive
      | succ count =>
          rw [List.getElem?_cons_succ] at isNext
          rw [List.take_succ_cons, List.take_succ_cons, joined, joined,
            List.take_add_one, isNext, slashed_append]
          simp only [Option.toList_some, slashed_cons, slashed_nil,
            List.length_append, List.length_cons, List.length_nil]
          omega

/-! ## Tokens -/

variable [DecidableEq α]

/-- The non-empty pieces of a text. -/
def tokens (sep : α) (text : List α) : List (List α) :=
  (text.splitOn sep).filter fun piece => !piece.isEmpty

@[simp]
theorem tokens_nil : tokens sep [] = [] :=
  rfl

theorem tokens_append_sep :
    tokens sep (text ++ sep :: other) =
      tokens sep text ++ tokens sep other := by
  rw [tokens, List.splitOn_append_cons_self, List.filter_append]
  rfl

@[simp]
theorem tokens_sep_cons : tokens sep (sep :: text) = tokens sep text := by
  have split : tokens sep ([] ++ sep :: text) =
      tokens sep [] ++ tokens sep text :=
    tokens_append_sep
  exact split

theorem tokens_segment (segment : IsSegment sep name) :
    tokens sep name = [name] := by
  rw [tokens, List.splitOn_eq_singleton segment.2]
  simp [segment.1]

theorem splitOn_pieces :
    ∀ piece ∈ text.splitOn sep, sep ∉ piece := by
  induction text with
  | nil =>
      intro piece member
      rcases List.mem_singleton.mp member with rfl
      exact List.not_mem_nil
  | cons head tail induction =>
      intro piece member
      rw [List.splitOn_cons_eq_if_modifyHead] at member
      split at member
      next =>
          rcases List.mem_cons.mp member with rfl | member
          · exact List.not_mem_nil
          · exact induction piece member
      next other =>
          cases split : tail.splitOn sep with
          | nil => exact (List.splitOn_ne_nil sep tail split).elim
          | cons first pieces =>
              rw [split, List.modifyHead_cons] at member
              rw [split] at induction
              rcases List.mem_cons.mp member with rfl | member
              · rw [List.mem_cons, not_or]
                constructor
                · rintro rfl
                  rw [beq_self_eq_true] at other
                  exact other rfl
                · exact induction first (by simp)
              · exact induction piece (by simp [member])

theorem isSegment_of_mem_tokens (member : name ∈ tokens sep text) :
    IsSegment sep name := by
  rw [tokens, List.mem_filter] at member
  refine ⟨?_, splitOn_pieces name member.1⟩
  rintro rfl
  cases member.2

/-- The pieces of a text spell it. -/
theorem slashed_splitOn (sep : α) (text : List α) :
    slashed sep (text.splitOn sep) = sep :: text := by
  induction text with
  | nil => rfl
  | cons head tail induction =>
      rw [List.splitOn_cons_eq_if_modifyHead]
      cases split : tail.splitOn sep with
      | nil => exact (List.splitOn_ne_nil sep tail split).elim
      | cons first pieces =>
          rw [split, slashed_cons, List.cons_append, List.cons.injEq]
            at induction
          by_cases separator : head = sep
          · rw [if_pos (beq_iff_eq.mpr separator), slashed_cons, slashed_cons,
              List.cons_append, List.nil_append, List.cons_append,
              induction.2, separator]
          · rw [if_neg (by simpa using separator), List.modifyHead_cons,
              slashed_cons, List.cons_append, List.cons_append, induction.2]

/-- Names without separators are the pieces of their text. -/
theorem splitOn_append_slashed
    (free : sep ∉ name)
    (others : ∀ name ∈ names, sep ∉ name) :
    (name ++ slashed sep names).splitOn sep = name :: names := by
  induction names generalizing name with
  | nil =>
      rw [slashed_nil, List.append_nil]
      exact List.splitOn_eq_singleton free
  | cons next names induction =>
      rw [List.forall_mem_cons] at others
      rw [slashed_cons, List.cons_append, List.splitOn_append_cons_self,
        List.splitOn_eq_singleton free, induction others.1 others.2]
      rfl

omit [DecidableEq α] in
theorem length_filter_slashed (sep : α) (names : List (List α)) :
    (names.filter fun name => !name.isEmpty).length + names.length ≤
      (slashed sep names).length := by
  induction names with
  | nil => exact Nat.le_refl 0
  | cons name names induction =>
      rw [slashed_cons, List.length_append, List.length_cons,
        List.length_cons, List.filter_cons]
      cases name with
      | nil =>
          rw [if_neg (by simp), List.length_nil]
          omega
      | cons head tail =>
          rw [if_pos (by simp), List.length_cons, List.length_cons]
          omega

theorem length_tokens_le : (tokens sep text).length ≤ text.length := by
  have bound := length_filter_slashed sep (text.splitOn sep)
  have filled : 0 < (text.splitOn sep).length :=
    List.length_pos_of_ne_nil (List.splitOn_ne_nil sep text)
  rw [slashed_splitOn, List.length_cons] at bound
  rw [tokens]
  omega

/-- Everything but the separator is in some token. -/
theorem mem_tokens_iff {char : α} (separator : char ≠ sep) :
    char ∈ text ↔ ∃ name ∈ tokens sep text, char ∈ name := by
  have pieces : char ∈ text ↔ ∃ piece ∈ text.splitOn sep, char ∈ piece := by
    induction text with
    | nil => simp
    | cons head tail induction =>
        rw [List.splitOn_cons_eq_if_modifyHead, List.mem_cons, induction]
        by_cases here : head = sep
        · simp [here, separator]
        · cases split : tail.splitOn sep with
          | nil => exact (List.splitOn_ne_nil sep tail split).elim
          | cons first pieces => simp [here, or_assoc]
  rw [pieces]
  constructor
  · rintro ⟨piece, member, found⟩
    have nonempty : piece ≠ [] := List.ne_nil_of_mem found
    exact ⟨piece, List.mem_filter.mpr ⟨member, by simp [nonempty]⟩, found⟩
  · rintro ⟨name, member, found⟩
    exact ⟨name, (List.mem_filter.mp member).1, found⟩

/-- The tokens of a text that is put together from segments. -/
theorem tokens_slashed
    (segments : ∀ name ∈ names, IsSegment sep name)
    (isTrail : IsTrail sep trail) :
    tokens sep (slashed sep names ++ trail) = names := by
  have trailTokens : tokens sep trail = [] := by
    rcases isTrail with rfl | rfl
    · rfl
    · exact tokens_sep_cons
  induction names with
  | nil => exact trailTokens
  | cons name names induction =>
      simp only [List.mem_cons, forall_eq_or_imp] at segments
      have later := induction segments.2
      rw [slashed_cons, List.append_assoc, List.cons_append, tokens_sep_cons]
      cases names with
      | nil =>
          rcases isTrail with rfl | rfl
          · rw [slashed_nil, List.append_nil, List.append_nil]
            exact tokens_segment segments.1
          · rw [slashed_nil, List.nil_append, tokens_append_sep,
              tokens_segment segments.1]
            rfl
      | cons next names =>
          rw [slashed_cons, List.append_assoc, List.cons_append,
            tokens_sep_cons] at later
          rw [slashed_cons, List.append_assoc, List.cons_append,
            tokens_append_sep, tokens_segment segments.1, later]
          rfl

theorem tokens_joined
    (segments : ∀ name ∈ names, IsSegment sep name)
    (nonempty : names ≠ [])
    (isTrail : IsTrail sep trail) :
    tokens sep (joined sep names ++ trail) = names := by
  have whole := tokens_slashed segments isTrail
  rw [← sep_cons_joined nonempty, List.cons_append, tokens_sep_cons] at whole
  exact whole

/-! ## Squeezing runs of separators -/

/-- Drop a separator that follows a separator; `last` is the previous item. -/
def squeezeAfter (sep last : α) : List α → List α
  | [] => []
  | head :: tail =>
      if last ≠ sep ∨ head ≠ sep then head :: squeezeAfter sep head tail
      else squeezeAfter sep last tail

/-- Every run of separators becomes one separator. -/
def squeeze (sep : α) : List α → List α
  | [] => []
  | head :: tail => head :: squeezeAfter sep head tail

/-- A squeezed text from behind a separator on, and from inside a piece on. -/
theorem squeezeAfter_spec (sep : α) (text : List α) :
    ∃ first pieces, text.splitOn sep = first :: pieces ∧
      (∃ trail, IsTrail sep trail ∧
        squeezeAfter sep sep text = joined sep (tokens sep text) ++ trail ∧
        (tokens sep text = [] → trail = [])) ∧
      ∃ trail, IsTrail sep trail ∧
        ∀ last, last ≠ sep →
          squeezeAfter sep last text =
            first ++
              slashed sep (pieces.filter fun piece => !piece.isEmpty) ++
                trail := by
  induction text with
  | nil =>
      refine ⟨[], [], rfl, ⟨[], Or.inl rfl, rfl, fun _ => rfl⟩,
        [], Or.inl rfl, fun _ _ => rfl⟩
  | cons head tail induction =>
      rcases induction with
        ⟨first, pieces, split, ⟨trail, isTrail, behind, empty⟩,
          insideTrail, insideIsTrail, inside⟩
      by_cases separator : head = sep
      · subst separator
        refine ⟨[], first :: pieces, ?_, ⟨trail, isTrail, ?_, ?_⟩, ?_⟩
        · rw [List.splitOn_cons_eq_if_modifyHead, if_pos (beq_self_eq_true head),
            split]
        · rw [squeezeAfter, if_neg (by simp), behind, tokens_sep_cons]
        · rw [tokens_sep_cons]
          exact empty
        · have found : (first :: pieces).filter (fun piece =>
              !piece.isEmpty) = tokens head tail := by
            rw [tokens, split]
          rw [found]
          by_cases none : tokens head tail = []
          · refine ⟨[head], Or.inr rfl, fun last other => ?_⟩
            rw [squeezeAfter, if_pos (Or.inl other), behind, empty none, none]
            rfl
          · refine ⟨trail, isTrail, fun last other => ?_⟩
            rw [squeezeAfter, if_pos (Or.inl other), behind,
              ← sep_cons_joined none]
            rfl
      · have pieceSplit : (head :: tail).splitOn sep =
            (head :: first) :: pieces := by
          rw [List.splitOn_cons_eq_if_modifyHead,
            if_neg (by simpa using separator), split, List.modifyHead_cons]
        have kept : ∀ last, squeezeAfter sep last (head :: tail) =
            head :: squeezeAfter sep head tail := by
          intro last
          rw [squeezeAfter, if_pos (Or.inr separator)]
        have found : tokens sep (head :: tail) =
            (head :: first) :: pieces.filter fun piece => !piece.isEmpty := by
          rw [tokens, pieceSplit]
          rfl
        refine ⟨head :: first, pieces, pieceSplit,
          ⟨insideTrail, insideIsTrail, ?_, ?_⟩,
          insideTrail, insideIsTrail, fun last _ => ?_⟩
        · rw [kept, inside head separator, found]
          rfl
        · rw [found]
          exact nofun
        · rw [kept, inside head separator]
          rfl

/-- A squeezed text that begins with a separator. -/
theorem squeeze_sep (nonempty : tokens sep text ≠ []) :
    ∃ trail, IsTrail sep trail ∧
      squeeze sep (sep :: text) = slashed sep (tokens sep text) ++ trail := by
  rcases squeezeAfter_spec sep text with
    ⟨-, -, -, ⟨trail, isTrail, behind, -⟩, -⟩
  refine ⟨trail, isTrail, ?_⟩
  rw [squeeze, behind, ← sep_cons_joined nonempty]
  rfl

/-- A squeezed text that begins with a piece. -/
theorem squeeze_other {head : α} (separator : head ≠ sep) :
    tokens sep (head :: text) ≠ [] ∧
      ∃ trail, IsTrail sep trail ∧
        squeeze sep (head :: text) =
          joined sep (tokens sep (head :: text)) ++ trail := by
  rcases squeezeAfter_spec sep text with
    ⟨first, pieces, split, -, trail, isTrail, inside⟩
  have found : tokens sep (head :: text) =
      (head :: first) :: pieces.filter fun piece => !piece.isEmpty := by
    rw [tokens, List.splitOn_cons_eq_if_modifyHead,
      if_neg (by simpa using separator), split, List.modifyHead_cons]
    rfl
  rw [found]
  refine ⟨nofun, trail, isTrail, ?_⟩
  rw [squeeze, inside head separator]
  rfl

/-- Squeezing keeps the tokens. -/
theorem tokens_squeeze : tokens sep (squeeze sep text) = tokens sep text := by
  cases text with
  | nil => rfl
  | cons head tail =>
      have segments : ∀ name ∈ tokens sep (head :: tail), IsSegment sep name :=
        fun _ => isSegment_of_mem_tokens
      by_cases separator : head = sep
      · subst separator
        rw [tokens_sep_cons] at segments ⊢
        by_cases none : tokens head tail = []
        · rcases squeezeAfter_spec head tail with
            ⟨-, -, -, ⟨trail, -, behind, empty⟩, -⟩
          rw [squeeze, tokens_sep_cons, behind, none, empty none]
          rfl
        · rcases squeeze_sep none with ⟨trail, isTrail, shape⟩
          rw [shape]
          exact tokens_slashed segments isTrail
      · rcases squeeze_other separator with ⟨some, trail, isTrail, shape⟩
        rw [shape]
        exact tokens_joined segments some isTrail

/-- A squeezed text drops separators only. -/
theorem squeezeAfter_sublist (last : α) (text : List α) :
    List.Sublist (squeezeAfter sep last text) text := by
  induction text generalizing last with
  | nil => exact List.Sublist.slnil
  | cons head tail induction =>
      rw [squeezeAfter]
      split
      · exact (induction head).cons_cons head
      · exact (induction last).cons head

theorem squeeze_sublist (text : List α) :
    List.Sublist (squeeze sep text) text := by
  cases text with
  | nil => exact List.Sublist.slnil
  | cons head tail => exact (squeezeAfter_sublist head tail).cons_cons head

/-- A text is as long as its squeezed text iff nothing is squeezed. -/
theorem length_squeeze_eq_iff :
    (squeeze sep text).length = text.length ↔ squeeze sep text = text :=
  ⟨(squeeze_sublist text).eq_of_length, congrArg List.length⟩

theorem getLast?_squeezeAfter (last : α) (text : List α) :
    (squeezeAfter sep last text).getLast?.getD last =
      text.getLast?.getD last := by
  induction text generalizing last with
  | nil => rfl
  | cons head tail induction =>
      rw [squeezeAfter, List.getLast?_cons]
      split
      next =>
          rw [List.getLast?_cons, induction head, Option.getD_some]
      next repeated =>
          rw [not_or, not_not, not_not] at repeated
          rw [induction last, repeated.1, repeated.2]
          rfl

/-- Squeezing keeps the last item. -/
theorem getLast?_squeeze :
    (squeeze sep text).getLast? = text.getLast? := by
  cases text with
  | nil => rfl
  | cons head tail =>
      rw [squeeze, List.getLast?_cons, List.getLast?_cons,
        getLast?_squeezeAfter]

/-- A text that ends inside a piece has no trail when it is squeezed. -/
theorem trail_eq_nil
    {shape : List α}
    (isTrail : IsTrail sep trail)
    (squeezed : squeeze sep text = shape ++ trail)
    (ends : text.getLast? ≠ some sep) : trail = [] := by
  rcases isTrail with none | one
  · exact none
  · rw [← getLast?_squeeze, squeezed, one, List.getLast?_concat] at ends
    exact (ends rfl).elim

theorem squeeze_eq_slashed
    (nonempty : tokens sep text ≠ [])
    (ends : (sep :: text).getLast? ≠ some sep) :
    squeeze sep (sep :: text) = slashed sep (tokens sep text) := by
  rcases squeeze_sep nonempty with ⟨trail, isTrail, shape⟩
  rw [shape, trail_eq_nil isTrail shape ends, List.append_nil]

theorem squeeze_eq_joined
    {head : α}
    (separator : head ≠ sep)
    (ends : (head :: text).getLast? ≠ some sep) :
    squeeze sep (head :: text) = joined sep (tokens sep (head :: text)) := by
  rcases squeeze_other separator with ⟨-, trail, isTrail, shape⟩
  rw [shape, trail_eq_nil isTrail shape ends, List.append_nil]

/-! ## Prefixes found by counting separators -/

/-- The prefix before the separator that follows `count` other ones. -/
def beforeSep (sep : α) : Nat → List α → List α
  | _, [] => []
  | 0, head :: tail =>
      if head = sep then [] else head :: beforeSep sep 0 tail
  | count + 1, head :: tail =>
      head :: beforeSep sep (if head = sep then count else count + 1) tail

theorem beforeSep_cons_ne {head : α} (separator : head ≠ sep) (count : Nat) :
    beforeSep sep count (head :: text) =
      head :: beforeSep sep count text := by
  cases count with
  | zero => rw [beforeSep, if_neg separator]
  | succ count => rw [beforeSep, if_neg separator]

theorem beforeSep_prefix (count : Nat) (text : List α) :
    beforeSep sep count text <+: text := by
  induction text generalizing count with
  | nil =>
      cases count with
      | zero => exact List.prefix_refl []
      | succ count => exact List.prefix_refl []
  | cons head tail induction =>
      by_cases separator : head = sep
      · cases count with
        | zero =>
            rw [beforeSep, if_pos separator]
            exact List.nil_prefix
        | succ count =>
            rw [beforeSep, if_pos separator, List.cons_prefix_cons]
            exact ⟨rfl, induction count⟩
      · rw [beforeSep_cons_ne separator, List.cons_prefix_cons]
        exact ⟨rfl, induction count⟩

theorem beforeSep_append (free : sep ∉ name) (count : Nat) :
    beforeSep sep count (name ++ text) =
      name ++ beforeSep sep count text := by
  induction name with
  | nil => rfl
  | cons head tail induction =>
      rw [List.mem_cons, not_or] at free
      rw [List.cons_append, beforeSep_cons_ne (Ne.symm free.1),
        induction free.2]
      rfl

/-- Counting finds the text of the first names. -/
theorem beforeSep_slashed
    (segments : ∀ name ∈ names, IsSegment sep name)
    (isTrail : IsTrail sep trail)
    {count : Nat} (short : count ≤ names.length) :
    beforeSep sep count (slashed sep names ++ trail) =
      slashed sep (names.take count) := by
  induction names generalizing count with
  | nil =>
      rw [List.length_nil, Nat.le_zero] at short
      subst short
      rcases isTrail with rfl | rfl
      · rfl
      · rw [slashed_nil, List.nil_append, beforeSep, if_pos rfl]
        rfl
  | cons name names induction =>
      simp only [List.mem_cons, forall_eq_or_imp] at segments
      rw [slashed_cons, List.append_assoc, List.cons_append]
      cases count with
      | zero =>
          rw [beforeSep, if_pos rfl]
          rfl
      | succ count =>
          rw [List.length_cons, Nat.add_le_add_iff_right] at short
          rw [beforeSep, if_pos rfl, beforeSep_append segments.1.2,
            induction segments.2 short]
          rfl

/-- Without a separator in front counting finds one name more. -/
theorem beforeSep_joined
    (segments : ∀ name ∈ names, IsSegment sep name)
    (isTrail : IsTrail sep trail)
    {count : Nat} (short : count < names.length) :
    beforeSep sep count (joined sep names ++ trail) =
      joined sep (names.take (count + 1)) := by
  cases names with
  | nil => cases short
  | cons name names =>
      simp only [List.mem_cons, forall_eq_or_imp] at segments
      rw [joined, List.append_assoc, beforeSep_append segments.1.2,
        beforeSep_slashed segments.2 isTrail (Nat.le_of_lt_succ short),
        List.take_succ_cons, joined]

/-- The prefix of a text that spells its first `count` tokens and no more. -/
structure SpellsFirst (sep : α) (text : List α) (count : Nat)
    (part : List α) : Prop where
  isPrefix : part <+: text
  spells : tokens sep part = (tokens sep text).take count
  ends : part.getLast? ≠ some sep

/-- The first tokens of a squeezed text that begins with a separator. -/
theorem spellsFirst_slashed
    (segments : ∀ name ∈ names, IsSegment sep name)
    (isTrail : IsTrail sep trail)
    {count : Nat} (some : 0 < count) (short : count ≤ names.length) :
    SpellsFirst sep (slashed sep names ++ trail) count
      (slashed sep (names.take count)) where
  isPrefix := by
    nth_rewrite 2 [← List.take_append_drop count names]
    rw [slashed_append, List.append_assoc]
    exact List.prefix_append _ _
  spells := by
    have firstSegments : ∀ name ∈ names.take count, IsSegment sep name :=
      fun name member => segments name (List.mem_of_mem_take member)
    have first := tokens_slashed firstSegments
      (Or.inl rfl : IsTrail sep [])
    rw [List.append_nil] at first
    rw [first, tokens_slashed segments isTrail]
  ends := by
    apply getLast?_slashed
      (fun name member => segments name (List.mem_of_mem_take member))
    intro empty
    have length := congrArg List.length empty
    rw [List.length_take, List.length_nil] at length
    omega

/-! ## The text of the first tokens -/

/-- The text through the end of its token number `count`. -/
def through (sep : α) : Nat → List α → List α
  | 0, _ => []
  | count + 1, text =>
      let body := text.dropWhile (· == sep)
      text.takeWhile (· == sep) ++ body.takeWhile (· != sep) ++
        through sep count (body.dropWhile (· != sep))

/-- The text behind its token number `count`. -/
def behind (sep : α) (count : Nat) (text : List α) : List α :=
  text.drop (through sep count text).length

theorem takeWhile_append_append (sep : α) (text : List α) :
    text.takeWhile (· == sep) ++
        (text.dropWhile (· == sep)).takeWhile (· != sep) ++
      (text.dropWhile (· == sep)).dropWhile (· != sep) = text := by
  rw [List.append_assoc, List.takeWhile_append_dropWhile,
    List.takeWhile_append_dropWhile]

theorem through_isPrefix (sep : α) (count : Nat) (text : List α) :
    through sep count text <+: text := by
  induction count generalizing text with
  | zero => exact List.nil_prefix
  | succ count induction =>
      have whole := takeWhile_append_append sep text
      rw [through]
      nth_rewrite 4 [← whole]
      rw [List.prefix_append_right_inj]
      exact induction _

theorem through_append_behind (sep : α) (count : Nat) (text : List α) :
    through sep count text ++ behind sep count text = text := by
  rw [behind]
  exact List.prefix_iff_eq_append.mp (through_isPrefix sep count text)

/-- Separators in front make no token. -/
theorem tokens_dropWhile (text : List α) :
    tokens sep (text.dropWhile (· == sep)) = tokens sep text := by
  induction text with
  | nil => rfl
  | cons head tail induction =>
      by_cases separator : head = sep
      · rw [separator, List.dropWhile_cons_of_pos (by simp), induction,
          tokens_sep_cons]
      · rw [List.dropWhile_cons_of_neg (by simpa using separator)]

theorem notMem_takeWhile_ne (text : List α) :
    sep ∉ text.takeWhile (· != sep) := by
  intro member
  have other := List.mem_takeWhile_imp member
  simp at other

theorem isCut_dropWhile (text : List α) :
    IsCut sep (text.dropWhile (· != sep)) := by
  induction text with
  | nil => exact Or.inl rfl
  | cons head tail induction =>
      by_cases separator : head = sep
      · right
        refine ⟨tail, ?_⟩
        rw [separator, List.dropWhile_cons_of_neg (by simp)]
      · rw [List.dropWhile_cons_of_pos (by simpa using separator)]
        exact induction

theorem tokens_append_cut (segment : IsSegment sep name)
    (isCut : IsCut sep text) :
    tokens sep (name ++ text) = name :: tokens sep text := by
  rcases isCut with rfl | ⟨later, rfl⟩
  · rw [List.append_nil, tokens_segment segment, tokens_nil]
  · rw [tokens_append_sep, tokens_segment segment, tokens_sep_cons]
    rfl

/-- A text is made of separators or begins with a token behind them. -/
theorem exists_first (sep : α) (text : List α) :
    (text.dropWhile (· == sep) = [] ∧ tokens sep text = []) ∨
      IsSegment sep ((text.dropWhile (· == sep)).takeWhile (· != sep)) ∧
        tokens sep text =
          (text.dropWhile (· == sep)).takeWhile (· != sep) ::
            tokens sep ((text.dropWhile (· == sep)).dropWhile (· != sep)) := by
  rw [← tokens_dropWhile]
  cases body : text.dropWhile (· == sep) with
  | nil => exact Or.inl ⟨rfl, rfl⟩
  | cons head tail =>
      right
      have separator : head ≠ sep := by
        have first := List.head?_dropWhile_not (· == sep) text
        rw [body] at first
        simpa using first
      have segment : IsSegment sep ((head :: tail).takeWhile (· != sep)) := by
        refine ⟨?_, notMem_takeWhile_ne (head :: tail)⟩
        rw [List.takeWhile_cons_of_pos (by simpa using separator)]
        exact nofun
      have whole : (head :: tail).takeWhile (· != sep) ++
          (head :: tail).dropWhile (· != sep) = head :: tail :=
        List.takeWhile_append_dropWhile
      refine ⟨segment, ?_⟩
      nth_rewrite 1 [← whole]
      exact tokens_append_cut segment (isCut_dropWhile (head :: tail))

theorem through_nil (count : Nat) : through sep count [] = [] :=
  List.prefix_nil.mp (through_isPrefix sep count [])

/-- Separators in front of a text make no token. -/
theorem tokens_append_takeWhile (text : List α) :
    tokens sep (other.takeWhile (· == sep) ++ text) = tokens sep text := by
  induction other with
  | nil => rfl
  | cons head tail induction =>
      by_cases separator : head = sep
      · rw [List.takeWhile_cons_of_pos (by simpa using separator), separator,
          List.cons_append, tokens_sep_cons, induction]
      · rw [List.takeWhile_cons_of_neg (by simpa using separator)]
        rfl

theorem tokens_through (sep : α) (count : Nat) (text : List α) :
    tokens sep (through sep count text) = (tokens sep text).take count := by
  induction count generalizing text with
  | zero => rfl
  | succ count induction =>
      rw [through, List.append_assoc, tokens_append_takeWhile]
      rcases exists_first sep text with
        ⟨nothing, none⟩ | ⟨segment, some⟩
      · rw [nothing, none]
        show tokens sep (through sep count []) = _
        rw [through_nil]
        rfl
      · have isCut : IsCut sep (through sep count
            ((text.dropWhile (· == sep)).dropWhile (· != sep))) :=
          (isCut_dropWhile _).of_isPrefix (through_isPrefix sep count _)
        rw [tokens_append_cut segment isCut, induction, some,
          List.take_succ_cons]

theorem getLast?_through
    {count : Nat}
    (positive : 0 < count)
    (short : count ≤ (tokens sep text).length) :
    (through sep count text).getLast? ≠ some sep := by
  induction count generalizing text with
  | zero => cases positive
  | succ count induction =>
      rcases exists_first sep text with
        ⟨-, none⟩ | ⟨segment, first⟩
      · rw [none] at short
        cases short
      · rw [first, List.length_cons, Nat.add_le_add_iff_right] at short
        rw [through]
        cases count with
        | zero =>
            rw [through, List.append_nil,
              List.getLast?_append_of_ne_nil _ segment.1]
            intro found
            exact segment.2 (List.mem_of_getLast? found)
        | succ count =>
            have later := tokens_through sep (count + 1)
              ((text.dropWhile (· == sep)).dropWhile (· != sep))
            have nonempty : through sep (count + 1)
                ((text.dropWhile (· == sep)).dropWhile (· != sep)) ≠ [] := by
              intro empty
              rw [empty] at later
              have length := congrArg List.length later
              rw [List.length_take, tokens_nil, List.length_nil] at length
              omega
            rw [List.getLast?_append_of_ne_nil _ nonempty]
            exact induction (Nat.succ_pos count) short

/-- The text of the first tokens spells them and ends with the last one. -/
theorem spellsFirst_through
    {count : Nat}
    (positive : 0 < count)
    (short : count ≤ (tokens sep text).length) :
    SpellsFirst sep text count (through sep count text) where
  isPrefix := through_isPrefix sep count text
  spells := tokens_through sep count text
  ends := getLast?_through positive short

/-! ## Token by token -/

/-- The first token, and what is to be searched for the next one. -/
def strtok (sep : α) (text : List α) : Option (List α) × List α :=
  let body := text.dropWhile (· == sep)
  if body = [] then (none, [])
  else
    (some (body.takeWhile (· != sep)), (body.dropWhile (· != sep)).tail)

theorem strtok_of_no_tokens
    (nothing : tokens sep text = []) :
    strtok sep text = (none, []) := by
  rw [strtok]
  rcases exists_first sep text with ⟨empty, -⟩ | ⟨-, first⟩
  · exact if_pos empty
  · rw [nothing] at first
    cases first

theorem strtok_of_tokens
    (first : tokens sep text = name :: names) :
    ∃ later, strtok sep text = (some name, later) ∧
      tokens sep later = names := by
  rcases exists_first sep text with ⟨-, nothing⟩ | ⟨segment, found⟩
  · rw [nothing] at first
    cases first
  · rw [found] at first
    rcases List.cons.inj first with ⟨here, rest⟩
    have nonempty : text.dropWhile (· == sep) ≠ [] := by
      intro empty
      rw [empty] at segment
      exact segment.1 rfl
    refine ⟨((text.dropWhile (· == sep)).dropWhile (· != sep)).tail, ?_, ?_⟩
    · rw [strtok, if_neg nonempty, here]
    · rw [← rest]
      have isCut : IsCut sep
          ((text.dropWhile (· == sep)).dropWhile (· != sep)) :=
        isCut_dropWhile _
      rcases isCut with ended | ⟨later, cut⟩
      · rw [ended, List.tail_nil]
      · rw [cut, List.tail_cons, tokens_sep_cons]

end Limestone.Library.Segments
