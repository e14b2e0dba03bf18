import Limestone.ReverseLookup

/-!
# The path search with excluded binds

The excluded binds are left out of the first query only.  The search is right
about the chains that avoid them when every lightest chain, in which an
excluded bind of the resource counts two, is spelled by one that avoids them.
-/

namespace Limestone.ExcludedBinds

open Library
open DbmsBind
open PathSearch

/-- The bind graph without the excluded binds. -/
def avoiding (binds : List Bind) (exclBinds : List Id) :
    Multigraph Id Bind :=
  (bindGraph binds).restrict fun bind => bind.id ∉ exclBinds

/-- The search is about the chains that avoid the excluded binds. -/
def AvoidsExactly (order : Sql.RowOrder Bind) (binds : List Bind)
    (fromResId toResId : Id) (exclBinds : List Id) : Prop :=
  ∃ result, Returns order binds fromResId toResId exclBinds result ∧
    (result = none ↔ ¬ (avoiding binds exclBinds).Reaches fromResId toResId) ∧
    ∀ path, result = some path →
      ∃ chain, path = spell chain ∧
        (avoiding binds exclBinds).Trail fromResId chain toResId

/-- Every lightest chain is spelled by a chain that avoids the binds. -/
def LightestAvoid (binds : List Bind) (fromResId toResId : Id)
    (exclBinds : List Id) : Prop :=
  ∀ chain,
    (bindGraph binds).Lightest (bindWeight exclBinds toResId) fromResId chain
        toResId →
      ∃ other, spell other = spell chain ∧
        (avoiding binds exclBinds).Trail fromResId other toResId

section Search

variable {table : BindTable} {fromResId toResId : Id} {exclBinds : List Id}

theorem mem_excludedIds {bindId : Id} (positive : 0 < bindId) :
    bindId ∈ excludedIds exclBinds ↔ bindId ∈ exclBinds := by
  cases exclBinds with
  | nil => exact Iff.rfl
  | cons first rest => simp [excludedIds, positive]

theorem avoiding_reaches
    {binds : List Bind}
    (reaches : (avoiding binds exclBinds).Reaches fromResId toResId) :
    (bindGraph binds).Reaches fromResId toResId :=
  reaches.of_restrict

/-- The last step of an avoiding chain is found by the first query. -/
theorem firstRound_of_avoiding
    (table : BindTable)
    (distinct : fromResId ≠ toResId)
    (reaches :
      (avoiding table.rows exclBinds).Reaches fromResId toResId) :
    FirstRound table.rows exclBinds toResId := by
  by_contra none
  have closed : ∀ bind, (avoiding table.rows exclBinds).Arrow bind →
      bind.resourceId = toResId → bind.collectionId = toResId := by
    rintro bind ⟨present, avoided⟩ child
    by_contra new
    have positive := (table.positive bind present).1
    exact none ⟨bind, present, child, new,
      fun excluded => avoided ((mem_excludedIds positive).mp excluded)⟩
  exact distinct (reaches.mem_of_closed_back
    (S := fun collId => collId = toResId) rfl closed)

/-- Whether a path is found does not depend on the order of the rows. -/
theorem exists_returns_isSome
    (order : Sql.RowOrder Bind) (binds : List Bind)
    (distinct : fromResId ≠ toResId) :
    ∃ result, Returns order binds fromResId toResId exclBinds result ∧
      (result.isSome = true ↔
        FirstRound binds exclBinds toResId ∧
          (bindGraph binds).Reaches fromResId toResId) := by
  rcases exists_returns_lightest order exclBinds distinct with
    ⟨result, returns, missing, -⟩
  refine ⟨result, returns, ?_⟩
  rw [← not_iff_not, ← missing]
  cases result <;> simp

/-- The exact condition, for names of any kind. -/
theorem forall_avoidsExactly_iff
    (table : BindTable) (fromResId toResId : Id) (exclBinds : List Id) :
    (∀ order,
        AvoidsExactly order table.rows fromResId toResId exclBinds) ↔
      fromResId = toResId ∨ ¬ FirstRound table.rows exclBinds toResId ∨
        LightestAvoid table.rows fromResId toResId exclBinds := by
  by_cases same : fromResId = toResId
  · subst same
    refine iff_of_true (fun order => ?_) (Or.inl rfl)
    refine ⟨some [], returns_self order table.rows fromResId exclBinds, ?_, ?_⟩
    · exact iff_of_false (Option.some_ne_none _) fun unreached =>
        unreached (Multigraph.Reaches.refl _ _)
    · intro path found
      rw [← Option.some.inj found]
      exact ⟨[], rfl, rfl⟩
  rw [or_iff_right same]
  constructor
  · intro exact_
    by_cases first : FirstRound table.rows exclBinds toResId
    · refine Or.inr fun chain lightest => ?_
      rcases exists_returns_steered same first lightest with
        ⟨order, returns⟩
      rcases exact_ order with ⟨result, otherReturns, -, avoids⟩
      rw [← returns.unique otherReturns] at avoids
      rcases avoids _ rfl with ⟨other, spelled, trail⟩
      exact ⟨other, spelled.symm, trail⟩
    · exact Or.inl first
  · intro condition order
    rcases exists_returns_lightest order exclBinds same with
      ⟨result, returns, missing, spelled⟩
    refine ⟨result, returns, ?_⟩
    cases result with
    | none =>
        refine ⟨iff_of_true rfl fun reaches => ?_, fun _ never => ?_⟩
        case refine_2 => cases never
        exact missing.mp rfl
          ⟨firstRound_of_avoiding table same reaches, avoiding_reaches reaches⟩
    | some path =>
        have found := not_not.mp (mt missing.mpr (Option.some_ne_none _))
        have avoid := condition.resolve_left (not_not_intro found.1)
        rcases spelled path rfl with ⟨chain, lightest, rfl⟩
        rcases avoid chain lightest with ⟨other, equal, trail⟩
        refine ⟨iff_of_false (Option.some_ne_none _)
          (not_not_intro trail.reaches), ?_⟩
        intro path found
        rw [← Option.some.inj found]
        exact ⟨other, equal.symm, trail⟩

/-- Names that are segments spell one chain only. -/
theorem lightestAvoid_iff_of_segments
    (table : BindTable) (fromResId toResId : Id) (exclBinds : List Id)
    (segments : ∀ bind ∈ table.rows, Segments.IsSegment '/' bind.name) :
    LightestAvoid table.rows fromResId toResId exclBinds ↔
      ∀ chain,
        (bindGraph table.rows).Lightest (bindWeight exclBinds toResId)
            fromResId chain toResId →
          ∀ bind ∈ chain, bind.id ∉ exclBinds := by
  apply forall_congr'
  intro chain
  apply imp_congr_right
  intro lightest
  constructor
  · rintro ⟨other, spelled, trail⟩
    have wholeTrail := (Multigraph.trail_restrict.mp trail).1
    have equal : other = chain := by
      have names := congrArg (Segments.tokens '/') spelled
      rw [ReverseLookup.tokens_spell segments wholeTrail,
        ReverseLookup.tokens_spell segments lightest.trail] at names
      rw [← ReverseLookup.walkBinds_of_trail table wholeTrail, names,
        ReverseLookup.walkBinds_of_trail table lightest.trail]
    rw [← equal]
    exact (Multigraph.trail_restrict.mp trail).2
  · intro avoids
    exact ⟨chain, rfl,
      Multigraph.trail_restrict.mpr ⟨lightest.trail, avoids⟩⟩

end Search

end Limestone.ExcludedBinds
