import Limestone.Library.Loop
import Mathlib.Data.List.Sort
import Mathlib.Logic.Relation

/-!
# Trees as nested sets

A row has a left and a right bound, and the rows that enclose a row are its
ancestors.  Sorted by their left bounds they are the line of the row, which is
the line of the innermost enclosing row with the row at its end.
-/

namespace Limestone.Library.NestedSet

variable {Row Bound : Type*} [LinearOrder Bound] {lft rgt : Row → Bound}
  {rows line other : List Row} {par chi first second : Row}

/-- The bounds of a row are within those of another, or it is the same. -/
def Encloses (lft rgt : Row → Bound) (par chi : Row) : Prop :=
  lft par ≤ lft chi ∧ rgt chi ≤ rgt par

instance (lft rgt : Row → Bound) :
    DecidableRel (Encloses lft rgt) :=
  fun _ _ => inferInstanceAs (Decidable (_ ∧ _))

theorem encloses_self (row : Row) : Encloses lft rgt row row :=
  ⟨le_rfl, le_rfl⟩

theorem Encloses.trans
    {middle : Row}
    (outer : Encloses lft rgt par middle)
    (inner : Encloses lft rgt middle chi) :
    Encloses lft rgt par chi :=
  ⟨outer.1.trans inner.1, inner.2.trans outer.2⟩

/-- The bounds are distinct, and two rows are nested or apart. -/
structure IsNested (lft rgt : Row → Bound) (rows : List Row) : Prop where
  distinct : (rows.flatMap fun row => [lft row, rgt row]).Nodup
  proper : ∀ row ∈ rows, lft row < rgt row
  nested : ∀ first ∈ rows, ∀ second ∈ rows,
    Encloses lft rgt first second ∨ Encloses lft rgt second first ∨
      rgt first < lft second ∨ rgt second < lft first

/-- The row is enclosed by no other one. -/
def IsOutermost (lft rgt : Row → Bound) (rows : List Row) (row : Row) :
    Prop :=
  ∀ par ∈ rows, Encloses lft rgt par row → par = row

/-- The row encloses another one with none between them. -/
structure IsInnermost (lft rgt : Row → Bound) (rows : List Row)
    (par chi : Row) : Prop where
  mem : par ∈ rows
  ne : par ≠ chi
  encloses : Encloses lft rgt par chi
  between : ∀ row ∈ rows, Encloses lft rgt par row →
    Encloses lft rgt row chi → row = par ∨ row = chi

instance [DecidableEq Row] (lft rgt : Row → Bound) (rows : List Row)
    (row : Row) : Decidable (IsOutermost lft rgt rows row) :=
  inferInstanceAs (Decidable
    (∀ par ∈ rows, Encloses lft rgt par row → par = row))

theorem isInnermost_iff :
    IsInnermost lft rgt rows par chi ↔
      par ∈ rows ∧ par ≠ chi ∧ Encloses lft rgt par chi ∧
        ∀ row ∈ rows, Encloses lft rgt par row →
          Encloses lft rgt row chi → row = par ∨ row = chi := by
  constructor
  · rintro ⟨mem, ne, encloses, between⟩
    exact ⟨mem, ne, encloses, between⟩
  · rintro ⟨mem, ne, encloses, between⟩
    exact ⟨mem, ne, encloses, between⟩

instance [DecidableEq Row] (lft rgt : Row → Bound) (rows : List Row)
    (par chi : Row) : Decidable (IsInnermost lft rgt rows par chi) :=
  decidable_of_iff _ isInnermost_iff.symm

namespace IsNested

theorem nodup_map_lft (isNested : IsNested lft rgt rows) :
    (rows.map lft).Nodup := by
  have apart := (List.nodup_flatMap.mp isNested.distinct).2
  rw [List.Nodup, List.pairwise_map]
  apply apart.imp
  intro first second disjoint same
  exact disjoint (List.mem_cons_self (a := lft first))
    (same ▸ List.mem_cons_self)

theorem eq_of_lft
    (isNested : IsNested lft rgt rows)
    (firstMem : first ∈ rows)
    (secondMem : second ∈ rows)
    (same : lft first = lft second) :
    first = second :=
  List.inj_on_of_nodup_map isNested.nodup_map_lft firstMem secondMem same

theorem antisymm
    (isNested : IsNested lft rgt rows)
    (firstMem : first ∈ rows)
    (secondMem : second ∈ rows)
    (encloses : Encloses lft rgt first second)
    (enclosed : Encloses lft rgt second first) :
    first = second :=
  isNested.eq_of_lft firstMem secondMem (encloses.1.antisymm enclosed.1)

/-- The rows that enclose one row are nested. -/
theorem encloses_total
    (isNested : IsNested lft rgt rows)
    (firstMem : first ∈ rows)
    (secondMem : second ∈ rows)
    (chiMem : chi ∈ rows)
    (firstEncloses : Encloses lft rgt first chi)
    (secondEncloses : Encloses lft rgt second chi) :
    Encloses lft rgt first second ∨ Encloses lft rgt second first := by
  have proper := isNested.proper chi chiMem
  rcases isNested.nested first firstMem second secondMem with
    outer | inner | before | behind
  · exact Or.inl outer
  · exact Or.inr inner
  · have crossed := firstEncloses.2.trans_lt (before.trans_le secondEncloses.1)
    exact (crossed.asymm proper).elim
  · have crossed := secondEncloses.2.trans_lt (behind.trans_le firstEncloses.1)
    exact (crossed.asymm proper).elim

/-- The other rows that enclose a row enclose the innermost of them. -/
theorem encloses_innermost
    (isNested : IsNested lft rgt rows)
    (innermost : IsInnermost lft rgt rows par chi)
    (chiMem : chi ∈ rows)
    {row : Row}
    (mem : row ∈ rows)
    (ne : row ≠ chi)
    (encloses : Encloses lft rgt row chi) :
    Encloses lft rgt row par := by
  rcases isNested.encloses_total mem innermost.mem chiMem encloses
    innermost.encloses with outer | inner
  · exact outer
  · rcases innermost.between row mem inner encloses with same | same
    · rw [same]
      exact encloses_self par
    · exact (ne same).elim

theorem lft_lt
    (isNested : IsNested lft rgt rows)
    (innermost : IsInnermost lft rgt rows par chi)
    (chiMem : chi ∈ rows) :
    lft par < lft chi := by
  apply lt_of_le_of_ne innermost.encloses.1
  intro same
  exact innermost.ne (isNested.eq_of_lft innermost.mem chiMem same)

/-- What passes from the innermost row around a row to it holds of all. -/
theorem induction_innermost
    {P : Row → Prop}
    (isNested : IsNested lft rgt rows)
    (step : ∀ chi ∈ rows,
      (∀ par, IsInnermost lft rgt rows par chi → P par) → P chi)
    (chiMem : chi ∈ rows) :
    P chi := by
  induction count : rows.countP (fun row => decide (lft row < lft chi))
    using Nat.strong_induction_on generalizing chi with
  | h count induction =>
      apply step chi chiMem
      intro par innermost
      have less := isNested.lft_lt innermost chiMem
      apply induction _ _ innermost.mem rfl
      rw [← count]
      apply Loop.countP_lt_countP _ innermost.mem
      · exact decide_eq_true less
      · exact decide_eq_false (lt_irrefl _)
      · intro row _ before
        exact decide_eq_true ((of_decide_eq_true before).trans less)

end IsNested

/-! ## The line of a row -/

/-- The rows that enclose a row, by their left bounds. -/
structure IsLine (lft rgt : Row → Bound) (rows : List Row) (chi : Row)
    (line : List Row) : Prop where
  sorted : line.Pairwise fun first second => lft first < lft second
  mem_iff : ∀ par, par ∈ line ↔ par ∈ rows ∧ Encloses lft rgt par chi

namespace IsLine

/-- There is one line of a row. -/
theorem unique
    (isLine : IsLine lft rgt rows chi line)
    (otherLine : IsLine lft rgt rows chi other) :
    line = other := by
  have irrefl : Std.Irrefl fun first second : Row => lft first < lft second :=
    ⟨fun row => lt_irrefl (lft row)⟩
  have antisymm : Std.Antisymm
      fun first second : Row => lft first < lft second :=
    ⟨fun _ _ less more => (less.asymm more).elim⟩
  apply isLine.sorted.eq_of_mem_iff otherLine.sorted
  intro par
  rw [isLine.mem_iff, otherLine.mem_iff]

theorem singleton
    (outermost : IsOutermost lft rgt rows chi)
    (chiMem : chi ∈ rows) :
    IsLine lft rgt rows chi [chi] where
  sorted := List.pairwise_singleton _ _
  mem_iff := by
    intro par
    rw [List.mem_singleton]
    constructor
    · rintro rfl
      exact ⟨chiMem, encloses_self par⟩
    · rintro ⟨mem, encloses⟩
      exact outermost par mem encloses

/-- The line of a row is that of the innermost one around it and the row. -/
theorem concat
    (isNested : IsNested lft rgt rows)
    (innermost : IsInnermost lft rgt rows par chi)
    (chiMem : chi ∈ rows)
    (isLine : IsLine lft rgt rows par line) :
    IsLine lft rgt rows chi (line ++ [chi]) where
  sorted := by
    rw [List.pairwise_append]
    refine ⟨isLine.sorted, List.pairwise_singleton _ _, ?_⟩
    intro row mem last isLast
    rw [List.mem_singleton.mp isLast]
    exact ((isLine.mem_iff row).mp mem).2.1.trans_lt
      (isNested.lft_lt innermost chiMem)
  mem_iff := by
    intro row
    rw [List.mem_append, List.mem_singleton, isLine.mem_iff]
    constructor
    · rintro (⟨mem, encloses⟩ | rfl)
      · exact ⟨mem, encloses.trans innermost.encloses⟩
      · exact ⟨chiMem, encloses_self row⟩
    · rintro ⟨mem, encloses⟩
      by_cases same : row = chi
      · exact Or.inr same
      · exact Or.inl ⟨mem, isNested.encloses_innermost innermost chiMem mem
          same encloses⟩

end IsLine

end Limestone.Library.NestedSet
