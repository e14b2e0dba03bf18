import Mathlib.Data.List.Count
import Mathlib.Data.List.Nodup
import Mathlib.Tactic.Common

/-!
# Files that rows share

Every row names a file, and rows with one key share it.  Before a row goes its
key is counted, and the file is removed if the count is one.  This is right
when the row that is counted is the row that goes.
-/

namespace Limestone.Library.SharedFiles

variable {Row Key : Type*}

/-- Every row has its file. -/
def Backed (key : Row → Key) (rows : List Row) (files : List Key) : Prop :=
  ∀ row ∈ rows, key row ∈ files

/-- Every file is one of a row. -/
def Used (key : Row → Key) (rows : List Row) (files : List Key) : Prop :=
  ∀ file ∈ files, ∃ row ∈ rows, key row = file

theorem Backed.mono
    {key : Row → Key} {rows fewer : List Row} {files : List Key}
    (backed : Backed key rows files)
    (among : fewer ⊆ rows) :
    Backed key fewer files :=
  fun row member => backed row (among member)

variable [BEq Key] [LawfulBEq Key]

/-- The rows with a key. -/
def count (key : Row → Key) (rows : List Row) (gone : Key) : Nat :=
  (rows.filter fun row => key row == gone).length

/-- The file of a key is removed if the key is counted once. -/
def reap (key : Row → Key) (rows : List Row) (files : List Key)
    (gone : Key) : List Key :=
  if count key rows gone = 1 then files.filter fun file => file != gone
  else files

variable {key : Row → Key} {rows fewer : List Row} {files : List Key}
  {gone : Key} {file : Key} {kept : Row → Bool}

theorem mem_reap :
    file ∈ reap key rows files gone ↔
      file ∈ files ∧ (count key rows gone = 1 → file ≠ gone) := by
  unfold reap
  split
  next single => simp [single]
  next other => simp [other]

theorem count_pos_iff :
    0 < count key rows gone ↔ ∃ row ∈ rows, key row = gone := by
  simp [count, List.length_pos_iff_exists_mem]

/-- A single row with a key is the one that there is. -/
theorem eq_of_count_eq_one
    {row other : Row}
    (single : count key rows gone = 1)
    (listed : row ∈ rows) (isKey : key row = gone)
    (otherListed : other ∈ rows) (otherKey : key other = gone) :
    row = other := by
  rcases List.length_eq_one_iff.mp single with ⟨only, isOnly⟩
  have isThat : ∀ some ∈ rows, key some = gone → some = only := by
    intro some member named
    have filtered : some ∈ rows.filter fun row => key row == gone := by
      simp [member, named]
    rw [isOnly] at filtered
    exact List.mem_singleton.mp filtered
  exact (isThat row listed isKey).trans (isThat other otherListed otherKey).symm

/-- Only the one row that is counted can lose its file. -/
theorem backed_reap_iff
    (backed : Backed key rows files)
    (among : fewer ⊆ rows) :
    Backed key fewer (reap key rows files gone) ↔
      ¬ (count key rows gone = 1 ∧ ∃ row ∈ fewer, key row = gone) := by
  constructor
  · rintro still ⟨single, row, listed, isKey⟩
    exact (mem_reap.mp (still row listed)).2 single isKey
  · intro spared row listed
    apply mem_reap.mpr
    refine ⟨backed row (among listed), fun single isKey => ?_⟩
    exact spared ⟨single, row, listed, isKey⟩

/--
No file is left behind, if the rows that go are at most one and have the key.
-/
theorem Used.reap
    (used : Used key rows files)
    (dropped : ∀ row ∈ rows, kept row = false → key row = gone)
    (fewest : (rows.filter fun row => !kept row).length ≤ 1) :
    Used key (rows.filter kept) (reap key rows files gone) := by
  intro file listed
  rcases mem_reap.mp listed with ⟨present, stays⟩
  rcases used file present with ⟨row, member, isFile⟩
  by_cases isGone : file = gone
  · -- The key is counted more than once, and one of its rows stays.
    have positive : 0 < count key rows gone :=
      count_pos_iff.mpr ⟨row, member, isFile.trans isGone⟩
    have several : count key rows gone ≠ 1 := fun single =>
      stays single isGone
    have split := List.length_eq_length_filter_add
      (l := rows.filter fun row => key row == gone) kept
    have less : ((rows.filter fun row => key row == gone).filter
        fun row => !kept row).length ≤ 1 :=
      Nat.le_trans ((List.filter_sublist.filter _).length_le) fewest
    have left : 0 < ((rows.filter fun row => key row == gone).filter
        kept).length := by
      unfold count at positive several
      omega
    rcases List.length_pos_iff_exists_mem.mp left with ⟨other, member⟩
    rcases List.mem_filter.mp member with ⟨keyed, isKept⟩
    rcases List.mem_filter.mp keyed with ⟨otherListed, otherKey⟩
    exact ⟨other, List.mem_filter.mpr ⟨otherListed, isKept⟩,
      (beq_iff_eq.mp otherKey).trans isGone.symm⟩
  · refine ⟨row, List.mem_filter.mpr ⟨member, ?_⟩, isFile⟩
    by_contra goes
    exact isGone (isFile ▸ dropped row member (by simpa using goes))

end Limestone.Library.SharedFiles
