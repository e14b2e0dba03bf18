import Limestone.Library.Multigraph

/-!
# Worklists that go breadth first

The vertices of a worklist are met in the order in which they were put at its
end, the targets of the arrows out of a vertex when it is met.  Those before
the first vertex of the next level are at most as many arrows away from the
start as the current level says; everything nearer has been met.
-/

namespace Limestone.Library.Multigraph

variable {V E : Type*} {G : Multigraph V E} {start vertex : V}
  {bound more : Nat}

/-- A trail of at most `bound` arrows leads to the vertex. -/
def Near (G : Multigraph V E) (start : V) (bound : Nat) (vertex : V) : Prop :=
  ∃ arrows, G.Trail start arrows vertex ∧ arrows.length ≤ bound

theorem near_self (bound : Nat) : G.Near start bound start :=
  ⟨[], rfl, Nat.zero_le bound⟩

theorem Near.mono
    (near : G.Near start bound vertex)
    (le : bound ≤ more) :
    G.Near start more vertex := by
  rcases near with ⟨arrows, trail, short⟩
  exact ⟨arrows, trail, short.trans le⟩

theorem Near.reaches
    (near : G.Near start bound vertex) : G.Reaches start vertex := by
  rcases near with ⟨arrows, trail, -⟩
  exact trail.reaches

theorem Near.tail
    {arrow : E}
    (near : G.Near start bound (G.source arrow))
    (present : G.Arrow arrow) :
    G.Near start (bound + 1) (G.target arrow) := by
  rcases near with ⟨arrows, trail, short⟩
  refine ⟨arrows ++ [arrow], trail.append ⟨present, rfl, rfl⟩, ?_⟩
  rw [List.length_append]
  exact Nat.succ_le_succ short

theorem Near.cases_succ
    (near : G.Near start (bound + 1) vertex) :
    G.Near start bound vertex ∨
      ∃ arrow, G.Arrow arrow ∧ G.Near start bound (G.source arrow) ∧
        G.target arrow = vertex := by
  rcases near with ⟨arrows, trail, short⟩
  rcases List.eq_nil_or_concat arrows with rfl | ⟨before, last, rfl⟩
  · exact Or.inl ⟨[], trail, Nat.zero_le bound⟩
  · rw [List.concat_eq_append] at trail short
    rcases trail_append.mp trail with
      ⟨middle, front, present, leaves, arrives⟩
    rw [List.length_append] at short
    refine Or.inr ⟨last, present, ⟨before, ?_, Nat.le_of_succ_le_succ short⟩,
      arrives⟩
    rw [leaves]
    exact front

/--
What has been met, the rest of the current level and what there is of the
next one.
-/
structure Frontier (G : Multigraph V E) (start : V) (Met : V → Prop)
    (now later : List V) (level : Nat) : Prop where
  met : ∀ vertex, Met vertex → G.Near start level vertex
  current : ∀ vertex ∈ now, G.Near start level vertex
  next : ∀ vertex ∈ later, G.Near start (level + 1) vertex
  complete : ∀ vertex, G.Near start level vertex →
    Met vertex ∨ vertex ∈ now
  below : ∀ vertex bound, bound < level → G.Near start bound vertex →
    Met vertex
  follows : ∀ arrow, G.Arrow arrow → Met (G.source arrow) →
    Met (G.target arrow) ∨ G.target arrow ∈ now ∨ G.target arrow ∈ later

namespace Frontier

variable {Met After : V → Prop} {now later children : List V} {level : Nat}

theorem init
    (none : ∀ vertex, ¬ Met vertex) :
    G.Frontier start Met [start] [] 0 where
  met := fun vertex met => (none vertex met).elim
  current := by
    intro vertex member
    rw [List.mem_singleton.mp member]
    exact near_self 0
  next := nofun
  complete := by
    rintro vertex ⟨arrows, trail, short⟩
    rcases List.eq_nil_of_length_eq_zero (Nat.le_zero.mp short) with rfl
    rcases trail with rfl
    exact Or.inr List.mem_cons_self
  below := by
    intro vertex bound less
    exact (Nat.not_lt_zero bound less).elim
  follows := fun arrow _ met => (none _ met).elim

/-- The next level begins when the current one is done. -/
theorem shift
    (frontier : G.Frontier start Met [] later level) :
    G.Frontier start Met later [] (level + 1) where
  met := fun vertex met => (frontier.met vertex met).mono (Nat.le_succ level)
  current := frontier.next
  next := nofun
  complete := by
    intro vertex near
    have here : ∀ vertex, G.Near start level vertex → Met vertex := by
      intro vertex near
      rcases frontier.complete vertex near with met | pending
      · exact met
      · cases pending
    rcases near.cases_succ with nearer | ⟨arrow, present, before, rfl⟩
    · exact Or.inl (here vertex nearer)
    · rcases frontier.follows arrow present (here _ before) with
        met | pending | pending
      · exact Or.inl met
      · cases pending
      · exact Or.inr pending
  below := by
    intro vertex bound less near
    rcases frontier.complete vertex (near.mono (Nat.le_of_lt_succ less)) with
      met | pending
    · exact met
    · cases pending
  follows := by
    intro arrow present met
    rcases frontier.follows arrow present met with met | pending | pending
    · exact Or.inl met
    · cases pending
    · exact Or.inr (Or.inl pending)

/-- A vertex that has been met already. -/
theorem skip
    (frontier : G.Frontier start Met (vertex :: now) later level)
    (old : Met vertex) :
    G.Frontier start Met now later level where
  met := frontier.met
  current := fun other member =>
    frontier.current other (List.mem_cons_of_mem _ member)
  next := frontier.next
  complete := by
    intro other near
    rcases frontier.complete other near with met | pending
    · exact Or.inl met
    · rcases List.mem_cons.mp pending with rfl | pending
      · exact Or.inl old
      · exact Or.inr pending
  below := frontier.below
  follows := by
    intro arrow present met
    rcases frontier.follows arrow present met with met | pending | pending
    · exact Or.inl met
    · rcases List.mem_cons.mp pending with same | pending
      · rw [same]
        exact Or.inl old
      · exact Or.inr (Or.inl pending)
    · exact Or.inr (Or.inr pending)

/-- A vertex is met and the targets of its arrows are put at the end. -/
theorem visit
    (frontier : G.Frontier start Met (vertex :: now) later level)
    (after : ∀ other, After other ↔ other = vertex ∨ Met other)
    (targets : ∀ child ∈ children, ∃ arrow, G.Arrow arrow ∧
      G.source arrow = vertex ∧ G.target arrow = child)
    (all : ∀ arrow, G.Arrow arrow → G.source arrow = vertex →
      G.target arrow ∈ children) :
    G.Frontier start After now (later ++ children) level := by
  have here : G.Near start level vertex :=
    frontier.current vertex List.mem_cons_self
  constructor
  · intro other met
    rcases (after other).mp met with rfl | met
    · exact here
    · exact frontier.met other met
  · exact fun other member =>
      frontier.current other (List.mem_cons_of_mem _ member)
  · intro other member
    rcases List.mem_append.mp member with old | child
    · exact frontier.next other old
    · rcases targets other child with ⟨arrow, present, rfl, rfl⟩
      exact here.tail present
  · intro other near
    rcases frontier.complete other near with met | pending
    · exact Or.inl ((after other).mpr (Or.inr met))
    · rcases List.mem_cons.mp pending with same | pending
      · exact Or.inl ((after other).mpr (Or.inl same))
      · exact Or.inr pending
  · intro other bound less near
    exact (after other).mpr (Or.inr (frontier.below other bound less near))
  · intro arrow present met
    rcases (after _).mp met with same | met
    · exact Or.inr (Or.inr (List.mem_append_right _ (all arrow present same)))
    · rcases frontier.follows arrow present met with met | pending | pending
      · exact Or.inl ((after _).mpr (Or.inr met))
      · rcases List.mem_cons.mp pending with same | pending
        · exact Or.inl ((after _).mpr (Or.inl same))
        · exact Or.inr (Or.inl pending)
      · exact Or.inr (Or.inr (List.mem_append_left _ pending))

/-- At the end everything that is reached has been met. -/
theorem met_of_reaches
    (frontier : G.Frontier start Met [] [] level)
    (reaches : G.Reaches start vertex) :
    Met vertex := by
  apply reaches.mem_of_closed (S := Met)
  · rcases frontier.complete start (near_self level) with met | pending
    · exact met
    · cases pending
  · intro arrow present met
    rcases frontier.follows arrow present met with met | pending | pending
    · exact met
    · cases pending
    · cases pending

end Frontier

end Limestone.Library.Multigraph
