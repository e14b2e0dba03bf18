import Mathlib.Algebra.Order.BigOperators.Group.List
import Mathlib.Algebra.Order.Group.Nat
import Mathlib.Tactic.Common

/-!
# Recursive queries with `UNION ALL`

The working table of a recursive query begins with the seeds.  In each round
every row of it is joined with other tables, and the rows that this gives are
the working table of the next round; the query ends when there are none.  The
rows of the query are those of all rounds.
-/

namespace Limestone.Library.RecursiveUnion

variable {Row : Type*}

/--
The rows of the query, unless the given number of rounds is too small; a row
is joined to the rows that `expand` gives for it.
-/
def evaluate (expand : Row → List Row) : Nat → List Row → Option (List Row)
  | 0, _ => none
  | rounds + 1, working =>
      if working.length = 0 then some []
      else
        (evaluate expand rounds (working.flatMap expand)).map (working ++ ·)

/-- The rows that some round yields. -/
inductive Derives (expand : Row → List Row) (seeds : List Row) : Row → Prop
  | seed {row : Row} (member : row ∈ seeds) : Derives expand seeds row
  | joined {row next : Row} (earlier : Derives expand seeds row)
      (member : next ∈ expand row) : Derives expand seeds next

variable {expand : Row → List Row} {seeds working rows : List Row}
  {row next : Row} {rounds : Nat}

theorem evaluate_of_empty : evaluate expand (rounds + 1) [] = some [] :=
  rfl

theorem evaluate_of_nonempty (nonempty : working ≠ []) :
    evaluate expand (rounds + 1) working =
      (evaluate expand rounds (working.flatMap expand)).map (working ++ ·) :=
  if_neg (mt List.length_eq_zero_iff.mp nonempty)

/-! ## The rows -/

/-- What follows from the rows of one round follows from the round before. -/
theorem Derives.of_flatMap
    (derives : Derives expand (working.flatMap expand) row) :
    Derives expand working row := by
  induction derives with
  | seed member =>
      rcases List.mem_flatMap.mp member with ⟨earlier, inWorking, joined⟩
      exact .joined (.seed inWorking) joined
  | joined _ member induction => exact .joined induction member

theorem derives_cases
    (derives : Derives expand working row) :
    row ∈ working ∨ Derives expand (working.flatMap expand) row := by
  induction derives with
  | seed member => exact Or.inl member
  | joined _ member induction =>
      rcases induction with inWorking | later
      · exact Or.inr (.seed (List.mem_flatMap.mpr ⟨_, inWorking, member⟩))
      · exact Or.inr (.joined later member)

theorem not_derives_nil : ¬ Derives expand [] row := by
  intro derives
  induction derives with
  | seed member => cases member
  | joined _ _ impossible => exact impossible

/-- A query that ends has exactly the rows that its rounds yield. -/
theorem mem_iff_derives
    (ended : evaluate expand rounds working = some rows) :
    row ∈ rows ↔ Derives expand working row := by
  induction rounds generalizing working rows with
  | zero => cases ended
  | succ rounds induction =>
      by_cases empty : working = []
      · rcases empty with rfl
        rw [evaluate_of_empty] at ended
        rcases Option.some.inj ended with rfl
        exact ⟨nofun, fun derives => (not_derives_nil derives).elim⟩
      · rw [evaluate_of_nonempty empty, Option.map_eq_some_iff] at ended
        rcases ended with ⟨later, laterEnded, rfl⟩
        rw [List.mem_append, induction laterEnded]
        constructor
        · rintro (inWorking | derives)
          · exact .seed inWorking
          · exact derives.of_flatMap
        · exact derives_cases

/-- More rounds than needed change nothing. -/
theorem evaluate_mono
    (ended : evaluate expand rounds working = some rows) {more : Nat}
    (enough : rounds ≤ more) :
    evaluate expand more working = some rows := by
  induction rounds generalizing working rows more with
  | zero => cases ended
  | succ rounds induction =>
      rcases Nat.exists_eq_add_of_lt enough with ⟨extra, rfl⟩
      by_cases empty : working = []
      · rcases empty with rfl
        exact ended
      · rw [evaluate_of_nonempty empty, Option.map_eq_some_iff] at ended ⊢
        rcases ended with ⟨later, laterEnded, same⟩
        exact ⟨later, induction laterEnded (by omega), same⟩

/-! ## Rules -/

/-- The rule for invariants: the seeds have it, and joins keep it. -/
theorem Derives.invariant
    {holds : Row → Prop}
    (start : ∀ row ∈ seeds, holds row)
    (keeps : ∀ row, holds row → ∀ next ∈ expand row, holds next)
    (derives : Derives expand seeds row) :
    holds row := by
  induction derives with
  | seed member => exact start _ member
  | joined _ member induction => exact keeps _ induction _ member

/-- The rule for termination: every join lowers the rank of a row. -/
theorem exists_evaluate
    (rank : Row → Nat)
    (lowers : ∀ row, ∀ next ∈ expand row, rank next < rank row)
    (seeds : List Row) :
    ∃ rounds rows, evaluate expand rounds seeds = some rows := by
  have bounded : ∀ bound (working : List Row),
      (∀ row ∈ working, rank row < bound) →
        ∃ rows, evaluate expand (bound + 1) working = some rows := by
    intro bound
    induction bound with
    | zero =>
        intro working below
        cases working with
        | nil => exact ⟨[], rfl⟩
        | cons row working =>
            exact absurd (below row List.mem_cons_self) (Nat.not_lt_zero _)
    | succ bound induction =>
        intro working below
        by_cases empty : working = []
        · rcases empty with rfl
          exact ⟨[], rfl⟩
        · have lower : ∀ next ∈ working.flatMap expand,
              rank next < bound := by
            intro next member
            rcases List.mem_flatMap.mp member with ⟨row, inWorking, joined⟩
            have least := lowers row next joined
            have most := below row inWorking
            omega
          rcases induction _ lower with ⟨rows, ended⟩
          exact ⟨working ++ rows, by
            rw [evaluate_of_nonempty empty, ended]
            rfl⟩
  have top : ∀ row ∈ seeds, rank row < (seeds.map rank).sum + 1 := by
    intro row member
    have least := List.single_le_sum (fun _ _ => Nat.zero_le _) (rank row)
      (List.mem_map_of_mem member)
    omega
  rcases bounded _ seeds top with ⟨rows, ended⟩
  exact ⟨_, rows, ended⟩

end Limestone.Library.RecursiveUnion
