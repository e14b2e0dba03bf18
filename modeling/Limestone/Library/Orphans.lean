import Limestone.Library.Multigraph

/-!
# Vertices that are no longer reached from a root

Arrows are taken from a graph, and the vertices that lose their last trail
from a root go with the arrows at them.  A worklist finds them when every
arrow that is missing leads to a vertex that is still reached, has gone or is
on the list.
-/

namespace Limestone.Library.Multigraph

variable {V E : Type*} {G : Multigraph V E} {keep fewer : E → Prop}
  {root vertex : V}

/-- More arrows reach more. -/
theorem Reaches.mono_restrict
    (reaches : (G.restrict fewer).Reaches root vertex)
    (kept : ∀ arrow, G.Arrow arrow → fewer arrow → keep arrow) :
    (G.restrict keep).Reaches root vertex :=
  reaches.transfer
    (fun arrow present => ⟨present.1, kept arrow present.1 present.2⟩) rfl rfl

/-- Arrows into vertices that are reached without them are not needed. -/
theorem Reaches.without
    (reaches : (G.restrict keep).Reaches root vertex)
    (covered : ∀ arrow, G.Arrow arrow → keep arrow → ¬ fewer arrow →
      (G.restrict fewer).Reaches root (G.target arrow)) :
    (G.restrict fewer).Reaches root vertex := by
  apply reaches.mem_of_closed (S := (G.restrict fewer).Reaches root)
  · exact Reaches.refl _ _
  · intro arrow present source
    by_cases kept : fewer arrow
    · exact Reaches.tail (G := G.restrict fewer) source ⟨present.1, kept⟩
    · exact covered arrow present.1 present.2 kept

/-- The arrows that leave a vertex are not needed to reach it. -/
theorem Reaches.without_leaving
    (reaches : G.Reaches root vertex) :
    (G.restrict fun arrow => G.source arrow ≠ vertex).Reaches root vertex := by
  rcases reaches.first_outside fun arrow => G.source arrow ≠ vertex with
    inside | ⟨arrow, -, leaves, inside⟩
  · exact inside
  · rw [not_not.mp leaves] at inside
    exact inside

/-- What is reached stays reached when only vertices that are not go. -/
theorem reaches_present
    {H : Multigraph V E} {P : V → Prop}
    (source : H.source = G.source)
    (target : H.target = G.target)
    (arrows : ∀ arrow, H.Arrow arrow ↔ G.Arrow arrow ∧ keep arrow ∧
      P (G.source arrow) ∧ P (G.target arrow))
    (stays : ∀ vertex, (G.restrict keep).Reaches root vertex →
      (∃ arrow, G.Arrow arrow ∧
        (G.source arrow = vertex ∨ G.target arrow = vertex)) →
          P vertex) :
    H.Reaches root vertex ↔ (G.restrict keep).Reaches root vertex := by
  constructor
  · intro reaches
    apply reaches.transfer
    · intro arrow here
      have kept := (arrows arrow).mp here
      exact ⟨kept.1, kept.2.1⟩
    · exact source.symm
    · exact target.symm
  · intro reaches
    have both : (G.restrict keep).Reaches root vertex ∧
        H.Reaches root vertex := by
      apply reaches.mem_of_closed (S := fun vertex =>
        (G.restrict keep).Reaches root vertex ∧ H.Reaches root vertex)
      · exact ⟨Reaches.refl _ _, Reaches.refl _ _⟩
      · intro arrow here before
        have after : (G.restrict keep).Reaches root (G.target arrow) :=
          Reaches.tail (G := G.restrict keep) before.1 here
        have kept : H.Arrow arrow :=
          (arrows arrow).mpr ⟨here.1, here.2,
            stays _ before.1 ⟨arrow, here.1, Or.inl rfl⟩,
            stays _ after ⟨arrow, here.1, Or.inr rfl⟩⟩
        have through : H.Reaches root (H.source arrow) := by
          rw [source]
          exact before.2
        refine ⟨after, ?_⟩
        show H.Reaches root (G.target arrow)
        rw [← target]
        exact through.tail kept
    exact both.2

/-- With nothing on the worklist every vertex is reached or deleted. -/
theorem Reaches.reached_or_gone
    {D : V → Prop}
    (reaches : G.Reaches root vertex)
    (covered : ∀ arrow, G.Arrow arrow →
      ¬ keep arrow ∨ D (G.source arrow) →
        (G.restrict keep).Reaches root (G.target arrow) ∨
          D (G.target arrow)) :
    (G.restrict keep).Reaches root vertex ∨ D vertex := by
  apply reaches.mem_of_closed (S := fun vertex =>
    (G.restrict keep).Reaches root vertex ∨ D vertex)
  · exact Or.inl (Reaches.refl _ _)
  · intro arrow present source
    by_cases kept : keep arrow
    · rcases source with reached | gone
      · exact Or.inl
          (Reaches.tail (G := G.restrict keep) reached ⟨present, kept⟩)
      · exact covered arrow present (Or.inr gone)
    · exact covered arrow present (Or.inl kept)

end Limestone.Library.Multigraph
