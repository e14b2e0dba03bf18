import Mathlib.Data.List.DropRight

/-!
# Items at the ends of a list

A list is trimmed by taking away the items with a property from its end and
then from its front; the items between are kept.
-/

namespace Limestone.Library.Trim

variable {Item : Type*} {p : Item → Bool}

/-- The list without such items at its ends. -/
def trim (p : Item → Bool) (items : List Item) : List Item :=
  (items.rdropWhile p).dropWhile p

/-- The last item is such an item. -/
def endsIn (p : Item → Bool) (items : List Item) : Bool :=
  items.getLast?.any p

theorem endsIn_concat (items : List Item) (item : Item) :
    endsIn p (items ++ [item]) = p item := by
  rw [endsIn, List.getLast?_concat]
  rfl

/-- Items are taken from the end iff the last is one to take. -/
theorem rtakeWhile_eq_nil_iff_endsIn (items : List Item) :
    items.rtakeWhile p = [] ↔ endsIn p items = false := by
  induction items using List.reverseRecOn with
  | nil => exact iff_of_true rfl rfl
  | append_singleton items item _ =>
      rw [endsIn_concat, List.rtakeWhile_concat]
      cases p item with
      | false => exact iff_of_true rfl rfl
      | true =>
          rw [if_pos rfl]
          exact iff_of_false (List.concat_ne_nil item _)
            fun same => Bool.false_ne_true same.symm

theorem rdropWhile_of_not_endsIn
    {items : List Item}
    (notEnding : endsIn p items = false) :
    items.rdropWhile p = items := by
  have split := List.rdropWhile_append_rtakeWhile (p := p) (l := items)
  rw [(rtakeWhile_eq_nil_iff_endsIn items).mpr notEnding,
    List.append_nil] at split
  exact split

theorem rdropWhile_append (items more : List Item) :
    (items ++ more).rdropWhile p =
      if more.all p then items.rdropWhile p
      else items ++ more.rdropWhile p := by
  have emptied : ((more.reverse.dropWhile p).isEmpty = true) =
      (more.all p = true) := by
    rw [List.isEmpty_iff, List.dropWhile_eq_nil_iff, List.all_eq_true]
    simp only [List.mem_reverse]
  rw [List.rdropWhile, List.reverse_append, List.dropWhile_append]
  simp only [emptied]
  split
  · rfl
  · rw [List.reverse_append, List.reverse_reverse]
    rfl

/-- What stands behind an item that is kept is kept. -/
theorem dropWhile_append_of_kept
    {items : List Item}
    (kept : ∃ item ∈ items, p item = false)
    (more : List Item) :
    (items ++ more).dropWhile p = items.dropWhile p ++ more := by
  rw [List.dropWhile_append, if_neg]
  rw [List.isEmpty_iff, List.dropWhile_eq_nil_iff]
  intro all
  rcases kept with ⟨item, member, isKept⟩
  exact Bool.false_ne_true (isKept.symm.trans (all item member))

/-- An item that is kept is not among those at the end. -/
theorem exists_mem_rdropWhile
    {items : List Item}
    (kept : ∃ item ∈ items, p item = false) :
    ∃ item ∈ items.rdropWhile p, p item = false := by
  rcases kept with ⟨item, member, isKept⟩
  rw [← List.rdropWhile_append_rtakeWhile (p := p) (l := items),
    List.mem_append] at member
  rcases member with before | behind
  · exact ⟨item, before, isKept⟩
  · have taken := List.mem_rtakeWhile_imp behind
    exact (Bool.false_ne_true (isKept.symm.trans taken)).elim

/-- Only the front is taken away iff the list does not end in such items. -/
theorem dropWhile_eq_trim_iff
    {items : List Item}
    (kept : ∃ item ∈ items, p item = false) :
    items.dropWhile p = trim p items ↔ endsIn p items = false := by
  have split : items.dropWhile p = trim p items ++ items.rtakeWhile p := by
    rw [trim, ← dropWhile_append_of_kept (exists_mem_rdropWhile kept),
      List.rdropWhile_append_rtakeWhile]
  rw [split, List.append_right_eq_self, rtakeWhile_eq_nil_iff_endsIn]

/--
A list that is cut behind its front, and its front has such items at its end:
it is trimmed so iff all behind the cut are such items.
-/
theorem dropWhile_rdropWhile_eq_trim_append_iff
    {items : List Item}
    (kept : ∃ item ∈ items, p item = false)
    (ends : endsIn p items = true)
    (more : List Item) :
    (items.rdropWhile p).dropWhile p = trim p (items ++ more) ↔
      more.all p = true := by
  rw [trim, rdropWhile_append]
  by_cases all : more.all p = true
  · rw [if_pos all]
    exact iff_of_true rfl all
  · rw [if_neg all]
    apply iff_of_false _ all
    intro same
    have taken : items.rtakeWhile p ≠ [] := by
      rw [ne_eq, rtakeWhile_eq_nil_iff_endsIn, ends]
      exact fun same => Bool.false_ne_true same.symm
    have split := dropWhile_append_of_kept (exists_mem_rdropWhile kept)
      (items.rtakeWhile p ++ more.rdropWhile p)
    rw [← List.append_assoc, List.rdropWhile_append_rtakeWhile, ← same,
      List.self_eq_append_right, List.append_eq_nil_iff] at split
    exact taken split.1

end Limestone.Library.Trim
