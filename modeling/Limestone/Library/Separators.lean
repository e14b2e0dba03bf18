import Mathlib.Data.List.Basic

/-!
# Separators between the items of a list

A text that is shown in groups is written item by item, with a separator before
each item that begins a group.  The groups are given by the indices of the items
alone.
-/

namespace Limestone.Library.Separators

variable {Item : Type*}

/--
The items, the first of which has the index `i`, with a separator before each
whose index is marked.
-/
def separate (marked : Nat → Bool) (separator : Item) :
    Nat → List Item → List Item
  | _, [] => []
  | i, item :: items =>
      (if marked i then [separator] else []) ++
        item :: separate marked separator (i + 1) items

variable {marked : Nat → Bool} {separator : Item} {i : Nat}

@[simp]
theorem separate_nil : separate marked separator i [] = [] := rfl

theorem separate_cons (item : Item) (items : List Item) :
    separate marked separator i (item :: items) =
      (if marked i then [separator] else []) ++
        item :: separate marked separator (i + 1) items :=
  rfl

theorem separate_append (items more : List Item) :
    separate marked separator i (items ++ more) =
      separate marked separator i items ++
        separate marked separator (i + items.length) more := by
  induction items generalizing i with
  | nil => rfl
  | cons item items induction =>
      have next : i + 1 + items.length = i + (item :: items).length := by
        rw [List.length_cons]
        omega
      rw [List.cons_append, separate_cons, separate_cons, induction, next,
        List.append_assoc, List.cons_append]

/-- Items are kept as they are where no index is marked. -/
theorem separate_of_unmarked
    {items : List Item}
    (unmarked : ∀ index, i ≤ index → index < i + items.length →
      marked index = false) :
    separate marked separator i items = items := by
  induction items generalizing i with
  | nil => rfl
  | cons item items induction =>
      rw [List.length_cons] at unmarked
      have first : marked i = false := unmarked i (Nat.le_refl i) (by omega)
      have others : separate marked separator (i + 1) items = items := by
        apply induction
        intro index lower upper
        exact unmarked index (by omega) (by omega)
      rw [separate_cons, first, others]
      rfl

/-- A group has one separator, before its first item. -/
theorem separate_group
    {items : List Item}
    (inhabited : items ≠ [])
    (begins : marked i = true)
    (unmarked : ∀ index, i < index → index < i + items.length →
      marked index = false) :
    separate marked separator i items = separator :: items := by
  cases items with
  | nil => exact (inhabited rfl).elim
  | cons item items =>
      have others : separate marked separator (i + 1) items = items := by
        apply separate_of_unmarked
        intro index lower upper
        rw [List.length_cons] at unmarked
        exact unmarked index (by omega) (by omega)
      rw [separate_cons, begins, others]
      rfl

/-- Items that are no separators are what is left without the separators. -/
theorem filter_separate
    [DecidableEq Item]
    {items : List Item}
    (absent : separator ∉ items) :
    (separate marked separator i items).filter (fun item => item != separator) =
      items := by
  induction items generalizing i with
  | nil => rfl
  | cons item items induction =>
      rw [List.mem_cons, not_or] at absent
      have kept : (item != separator) = true :=
        bne_iff_ne.mpr (Ne.symm absent.1)
      have dropped : (separator != separator) = false :=
        bne_self_eq_false separator
      rw [separate_cons, List.filter_append, List.filter_cons, if_pos kept,
        induction absent.2]
      cases marked i with
      | false => rfl
      | true =>
          rw [if_pos rfl, List.filter_singleton, dropped]
          rfl

/-- The number of separators is that of the marked indices. -/
theorem length_separate (items : List Item) :
    (separate marked separator i items).length =
      items.length + (List.range' i items.length).countP marked := by
  induction items generalizing i with
  | nil => rfl
  | cons item items induction =>
      rw [separate_cons, List.length_append, List.length_cons, induction,
        List.length_cons, List.range'_succ, List.countP_cons]
      cases marked i with
      | false =>
          rw [if_neg Bool.false_ne_true, if_neg Bool.false_ne_true,
            List.length_nil]
          omega
      | true =>
          rw [if_pos rfl, if_pos rfl, List.length_singleton]
          omega

/-- Only the separator and the items are written. -/
theorem mem_separate
    {items : List Item} {item : Item}
    (member : item ∈ separate marked separator i items) :
    item = separator ∨ item ∈ items := by
  induction items generalizing i with
  | nil => cases member
  | cons first items induction =>
      rw [separate_cons, List.mem_append, List.mem_cons] at member
      rcases member with inserted | rfl | later
      · left
        split at inserted
        · exact List.mem_singleton.mp inserted
        · cases inserted
      · exact Or.inr List.mem_cons_self
      · rcases induction later with isSeparator | listed
        · exact Or.inl isSeparator
        · exact Or.inr (List.mem_cons_of_mem _ listed)

/-! ## Groups of given lengths -/

/-- Groups of these lengths begin at the marked indices, from `i` on. -/
def beginsGroups (marked : Nat → Bool) : Nat → List Nat → Bool
  | _, [] => true
  | i, length :: lengths =>
      marked i && length != 0 &&
        (List.range' (i + 1) (length - 1)).all (fun index => !marked index) &&
          beginsGroups marked (i + length) lengths

theorem separate_flatten
    {groups : List (List Item)}
    (begins : beginsGroups marked i (groups.map List.length) = true) :
    separate marked separator i groups.flatten =
      groups.flatMap (separator :: ·) := by
  induction groups generalizing i with
  | nil => rfl
  | cons group groups induction =>
      rw [List.map_cons, beginsGroups, Bool.and_eq_true, Bool.and_eq_true,
        Bool.and_eq_true, bne_iff_ne, List.all_eq_true] at begins
      rcases begins with ⟨⟨⟨isMarked, notZero⟩, inside⟩, others⟩
      have inhabited : group ≠ [] := by
        rintro rfl
        exact notZero rfl
      have unmarked : ∀ index, i < index → index < i + group.length →
          marked index = false := by
        intro index lower upper
        have listed : index ∈ List.range' (i + 1) (group.length - 1) := by
          rw [List.mem_range'_1]
          omega
        have absent := inside index listed
        rw [Bool.not_eq_true'] at absent
        exact absent
      rw [List.flatten_cons, separate_append,
        separate_group inhabited isMarked unmarked, induction others]
      rfl

theorem intercalate_eq_append_flatMap
    (separator : Item) (first : List Item) (groups : List (List Item)) :
    [separator].intercalate (first :: groups) =
      first ++ groups.flatMap (separator :: ·) := by
  induction groups generalizing first with
  | nil => rw [List.intercalate_singleton, List.flatMap_nil, List.append_nil]
  | cons group groups induction =>
      rw [List.intercalate_cons_cons, induction, List.append_assoc]
      rfl

/-- Groups that are put one behind the other are separated again. -/
theorem separate_eq_intercalate
    {first : List Item} {groups : List (List Item)}
    (unmarked : ∀ index, i ≤ index → index < i + first.length →
      marked index = false)
    (begins : beginsGroups marked (i + first.length)
      (groups.map List.length) = true) :
    separate marked separator i (first :: groups).flatten =
      [separator].intercalate (first :: groups) := by
  rw [List.flatten_cons, separate_append, separate_of_unmarked unmarked,
    separate_flatten begins, intercalate_eq_append_flatMap]

end Limestone.Library.Separators
