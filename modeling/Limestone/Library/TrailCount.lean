import Limestone.Library.Multigraph
import Mathlib.Data.Set.Card

/-!
# Counting trails while an arrow comes or goes

In an acyclic multigraph the number of trails between two vertices is finite
and changes by a product when one arrow is added: the trails that use the
arrow are the trails to its source followed by it and by a trail from its
target.  The same formula, read backwards, describes the removal of an arrow.

The counts are extended naturals, so that no finiteness has to be carried
along with them.
-/

namespace Limestone.Library.Multigraph

variable {V E : Type*} {G : Multigraph V E} {start finish : V} {arrow : E}

/-- The trails from `start` to `finish`, the empty one included. -/
def trails (G : Multigraph V E) (start finish : V) : Set (List E) :=
  {arrows | G.Trail start arrows finish}

/-- The trails from `start` to `finish` that follow at least one arrow. -/
def paths (G : Multigraph V E) (start finish : V) : Set (List E) :=
  {arrows | G.Trail start arrows finish ∧ arrows ≠ []}

/-- No vertex lies on a cycle. -/
def Acyclic (G : Multigraph V E) : Prop :=
  ∀ vertex, G.paths vertex vertex = ∅

/-- Number of trails with at least one arrow. -/
noncomputable def pathCount (G : Multigraph V E) (start finish : V) : ℕ∞ :=
  (G.paths start finish).encard

/-- Number of trails, the empty one included. -/
noncomputable def trailCount (G : Multigraph V E) (start finish : V) : ℕ∞ :=
  (G.trails start finish).encard

/-! ## Paths and trails -/

theorem trails_eq_paths (distinct : start ≠ finish) :
    G.trails start finish = G.paths start finish := by
  ext arrows
  refine ⟨fun trail => ⟨trail, ?_⟩, And.left⟩
  rintro rfl
  exact distinct trail

theorem trails_self :
    G.trails start start = insert [] (G.paths start start) := by
  ext arrows
  constructor
  · intro trail
    by_cases empty : arrows = []
    · exact Or.inl empty
    · exact Or.inr ⟨trail, empty⟩
  · rintro (rfl | path)
    · exact rfl
    · exact path.1

theorem trailCount_of_ne (distinct : start ≠ finish) :
    G.trailCount start finish = G.pathCount start finish := by
  rw [trailCount, pathCount, trails_eq_paths distinct]

theorem trailCount_self :
    G.trailCount start start = G.pathCount start start + 1 := by
  rw [trailCount, pathCount, trails_self,
    Set.encard_insert_of_notMem (fun path => path.2 rfl)]

theorem Acyclic.pathCount_self (acyclic : G.Acyclic) :
    G.pathCount start start = 0 := by
  rw [pathCount, acyclic start, Set.encard_empty]

theorem Acyclic.trailCount_self (acyclic : G.Acyclic) :
    G.trailCount start start = 1 := by
  rw [Multigraph.trailCount_self, acyclic.pathCount_self, zero_add]

theorem Acyclic.eq_nil_of_trail
    {arrows : List E}
    (acyclic : G.Acyclic) (trail : G.Trail start arrows start) :
    arrows = [] := by
  by_contra nonempty
  have cycle : arrows ∈ G.paths start start := ⟨trail, nonempty⟩
  rw [acyclic] at cycle
  exact cycle

theorem pathCount_eq_zero :
    G.pathCount start finish = 0 ↔ G.paths start finish = ∅ :=
  Set.encard_eq_zero

theorem trailCount_eq_zero :
    G.trailCount start finish = 0 ↔ ¬ G.Reaches start finish := by
  rw [trailCount, Set.encard_eq_zero, Set.eq_empty_iff_forall_notMem]
  exact not_exists.symm

/-- Vertices joined by one trail only. -/
theorem trailCount_eq_one
    {arrows : List E}
    (reaches : G.Reaches start finish)
    (only : ∀ others, G.Trail start others finish → others = arrows) :
    G.trailCount start finish = 1 := by
  rcases reaches with ⟨others, trail⟩
  have trails : G.trails start finish = {arrows} := by
    refine Set.eq_singleton_iff_unique_mem.mpr ⟨?_, only⟩
    rw [← only others trail]
    exact trail
  rw [trailCount, trails, Set.encard_singleton]

/-- A connected pair is a pair with a path. -/
theorem paths_nonempty_iff :
    (G.paths start finish).Nonempty ↔
      ∃ arrow, G.Arrow arrow ∧ G.source arrow = start ∧
        G.Reaches (G.target arrow) finish := by
  constructor
  · rintro ⟨arrows, trail, nonempty⟩
    cases arrows with
    | nil => exact (nonempty rfl).elim
    | cons head tail =>
        rcases trail with ⟨present, leaves, trail⟩
        exact ⟨head, present, leaves, trail.reaches⟩
  · rintro ⟨arrow, present, leaves, arrows, trail⟩
    exact ⟨arrow :: arrows, ⟨present, leaves, trail⟩, by simp⟩

theorem Reaches.eq_or_paths_nonempty
    (reaches : G.Reaches start finish) :
    start = finish ∨ (G.paths start finish).Nonempty := by
  rcases reaches with ⟨arrows, trail⟩
  cases arrows with
  | nil => exact Or.inl trail
  | cons head tail => exact Or.inr ⟨head :: tail, trail, by simp⟩

/-- In an acyclic graph an arrow leads to a vertex that does not come back. -/
theorem Acyclic.not_reaches_back
    (acyclic : G.Acyclic) (present : G.Arrow arrow) :
    ¬ G.Reaches (G.target arrow) (G.source arrow) := by
  intro back
  have cycle : (G.paths (G.source arrow) (G.source arrow)).Nonempty :=
    paths_nonempty_iff.mpr ⟨arrow, present, rfl, back⟩
  rw [acyclic] at cycle
  exact Set.not_nonempty_empty cycle

/-! ## One more arrow -/

/-- The graph with one more arrow. -/
def extend (G : Multigraph V E) (arrow : E) : Multigraph V E :=
  { G with Arrow := fun other => G.Arrow other ∨ other = arrow }

theorem Trail.extend
    {arrows : List E}
    (trail : G.Trail start arrows finish) :
    (G.extend arrow).Trail start arrows finish :=
  trail.transfer (fun _ _ => Or.inl) rfl rfl

theorem Trail.of_extend
    {arrows : List E}
    (trail : (G.extend arrow).Trail start arrows finish)
    (unused : arrow ∉ arrows) :
    G.Trail start arrows finish := by
  refine trail.transfer (fun other member present => ?_) rfl rfl
  rcases present with present | rfl
  · exact present
  · exact (unused member).elim

/-- A trail through the new arrow, cut at its first use. -/
theorem Trail.split_extend
    {arrows : List E}
    (trail : (G.extend arrow).Trail start arrows finish)
    (used : arrow ∈ arrows) :
    ∃ first rest, arrows = first ++ arrow :: rest ∧
      G.Trail start first (G.source arrow) ∧
      (G.extend arrow).Trail (G.target arrow) rest finish := by
  rcases List.eq_append_cons_of_mem used with ⟨first, rest, rfl, unused⟩
  rcases trail_append.mp trail with ⟨middle, before, -, leaves, after⟩
  subst leaves
  exact ⟨first, rest, rfl, before.of_extend unused, after⟩

/-- The new arrow is used once when its target does not lead back. -/
theorem Trail.split_extend_once
    {arrows : List E}
    (forward : ¬ G.Reaches (G.target arrow) (G.source arrow))
    (trail : (G.extend arrow).Trail start arrows finish)
    (used : arrow ∈ arrows) :
    ∃ first rest, arrows = first ++ arrow :: rest ∧
      G.Trail start first (G.source arrow) ∧
      G.Trail (G.target arrow) rest finish := by
  rcases trail.split_extend used with ⟨first, rest, rfl, before, after⟩
  have usedOnce : arrow ∉ rest := by
    intro again
    rcases after.split_extend again with ⟨_, _, _, loop, _⟩
    exact forward loop.reaches
  exact ⟨first, rest, rfl, before, after.of_extend usedOnce⟩

/--
The trails of the extended graph are the old ones and those that follow an
old trail to the new arrow, the arrow, and an old trail on.  No trail uses
the arrow twice because its target does not lead back to its source.
-/
theorem trails_extend
    (forward : ¬ G.Reaches (G.target arrow) (G.source arrow)) :
    (G.extend arrow).trails start finish =
      G.trails start finish ∪
        (fun halves : List E × List E =>
            halves.1 ++ arrow :: halves.2) ''
          (G.trails start (G.source arrow) ×ˢ
            G.trails (G.target arrow) finish) := by
  ext arrows
  constructor
  · intro trail
    by_cases used : arrow ∈ arrows
    · rcases trail.split_extend_once forward used with
        ⟨first, rest, rfl, before, after⟩
      exact Or.inr ⟨(first, rest), ⟨before, after⟩, rfl⟩
    · exact Or.inl (trail.of_extend used)
  · rintro (trail | ⟨⟨first, rest⟩, ⟨before, after⟩, rfl⟩)
    · exact Trail.extend trail
    · exact (Trail.extend before).append
        ⟨Or.inr rfl, rfl, Trail.extend after⟩

/-- The number of trails after one arrow has been added. -/
theorem trailCount_extend
    (fresh : ¬ G.Arrow arrow)
    (forward : ¬ G.Reaches (G.target arrow) (G.source arrow))
    (start finish : V) :
    (G.extend arrow).trailCount start finish =
      G.trailCount start finish +
        G.trailCount start (G.source arrow) *
          G.trailCount (G.target arrow) finish := by
  have unused : ∀ {first last : V} {arrows : List E},
      G.Trail first arrows last → arrow ∉ arrows :=
    fun trail used => fresh (trail.arrow_mem arrow used)
  have disjoint : Disjoint (G.trails start finish)
      ((fun halves : List E × List E => halves.1 ++ arrow :: halves.2) ''
        (G.trails start (G.source arrow) ×ˢ
          G.trails (G.target arrow) finish)) := by
    rw [Set.disjoint_left]
    rintro _ trail ⟨⟨first, rest⟩, -, rfl⟩
    exact unused trail (by simp)
  have injective : Set.InjOn
      (fun halves : List E × List E => halves.1 ++ arrow :: halves.2)
      (G.trails start (G.source arrow) ×ˢ
        G.trails (G.target arrow) finish) := by
    rintro ⟨first, rest⟩ ⟨before, after⟩ ⟨first', rest'⟩ ⟨before', after'⟩ equal
    rcases (List.append_cons_inj_of_notMem (unused before) (unused after)).mp equal with
      ⟨firstEqual, -, restEqual⟩
    exact Prod.ext firstEqual restEqual
  simp only [trailCount]
  rw [trails_extend forward, Set.encard_union_eq disjoint,
    injective.encard_image, Set.encard_prod]

/-- Adding an arrow that leads forward keeps a graph acyclic. -/
theorem Acyclic.extend
    (acyclic : G.Acyclic)
    (forward : ¬ G.Reaches (G.target arrow) (G.source arrow)) :
    (G.extend arrow).Acyclic := by
  intro vertex
  rw [Set.eq_empty_iff_forall_notMem]
  rintro arrows ⟨trail, nonempty⟩
  by_cases used : arrow ∈ arrows
  · rcases trail.split_extend_once forward used with
      ⟨first, rest, rfl, before, after⟩
    exact forward (after.reaches.trans before.reaches)
  · exact nonempty (acyclic.eq_nil_of_trail (trail.of_extend used))

/-- Taking an arrow away keeps a graph acyclic. -/
theorem Acyclic.of_extend
    (acyclic : (G.extend arrow).Acyclic) :
    G.Acyclic := by
  intro vertex
  rw [Set.eq_empty_iff_forall_notMem]
  rintro arrows ⟨trail, nonempty⟩
  exact nonempty (acyclic.eq_nil_of_trail trail.extend)

end Limestone.Library.Multigraph
