import Limestone.Library.Multigraph

/-!
# Lightest trails

Arrows with weights, the vertices within a given weight of a target, and the
trails of least weight.  A backward search that meets the arrows into its
target that are to be delayed one round late is described by giving them
weight two and all others weight one.
-/

namespace Limestone.Library.Multigraph

variable {V E : Type*} {G : Multigraph V E} {weight : E → Nat}
  {start finish : V} {arrow : E} {arrows rest : List E}

/-- The sum of the weights of some arrows. -/
def totalWeight (weight : E → Nat) (arrows : List E) : Nat :=
  (arrows.map weight).sum

@[simp]
theorem totalWeight_nil : totalWeight weight ([] : List E) = 0 :=
  rfl

@[simp]
theorem totalWeight_cons :
    totalWeight weight (arrow :: arrows) =
      weight arrow + totalWeight weight arrows := by
  simp [totalWeight]

theorem totalWeight_append :
    totalWeight weight (arrows ++ rest) =
      totalWeight weight arrows + totalWeight weight rest := by
  simp [totalWeight]

theorem totalWeight_one :
    totalWeight (fun _ => 1) arrows = arrows.length := by
  simp [totalWeight]

/-- A trail of weight at most `bound` leads from `start` to `finish`. -/
def Within (G : Multigraph V E) (weight : E → Nat) (finish : V)
    (bound : Nat) (start : V) : Prop :=
  ∃ arrows, G.Trail start arrows finish ∧ totalWeight weight arrows ≤ bound

/-- A trail of least weight between its ends. -/
structure Lightest (G : Multigraph V E) (weight : E → Nat)
    (start : V) (arrows : List E) (finish : V) : Prop where
  trail : G.Trail start arrows finish
  least : ∀ others, G.Trail start others finish →
    totalWeight weight arrows ≤ totalWeight weight others

theorem Within.mono
    {bound other : Nat}
    (within : G.Within weight finish bound start)
    (le : bound ≤ other) :
    G.Within weight finish other start := by
  rcases within with ⟨arrows, trail, light⟩
  exact ⟨arrows, trail, light.trans le⟩

theorem Within.reaches
    {bound : Nat}
    (within : G.Within weight finish bound start) :
    G.Reaches start finish := by
  rcases within with ⟨arrows, trail, -⟩
  exact trail.reaches

theorem within_self (bound : Nat) :
    G.Within weight finish bound finish :=
  ⟨[], rfl, Nat.zero_le bound⟩

theorem within_zero
    (positive : ∀ arrow, 0 < weight arrow) :
    G.Within weight finish 0 start ↔ start = finish := by
  constructor
  · rintro ⟨arrows, trail, light⟩
    cases arrows with
    | nil => exact trail
    | cons head tail =>
        have headPositive := positive head
        rw [totalWeight_cons] at light
        omega
  · rintro rfl
    exact within_self 0

/-- A lightest trail weighs no more than any bound its ends are within. -/
theorem Lightest.le_of_within
    {bound : Nat}
    (lightest : G.Lightest weight start arrows finish)
    (within : G.Within weight finish bound start) :
    totalWeight weight arrows ≤ bound := by
  rcases within with ⟨others, trail, light⟩
  exact (lightest.least others trail).trans light

/-- A vertex outside a bound has no trail within it. -/
theorem lightest_of_not_within
    {bound : Nat}
    (trail : G.Trail start arrows finish)
    (light : totalWeight weight arrows ≤ bound + 1)
    (outside : ¬ G.Within weight finish bound start) :
    G.Lightest weight start arrows finish where
  trail := trail
  least := by
    intro others other
    have heavy : ¬ totalWeight weight others ≤ bound :=
      fun light => outside ⟨others, other, light⟩
    omega

/-- What follows an arrow of a lightest trail is a lightest trail. -/
theorem Lightest.tail
    (lightest : G.Lightest weight start (arrow :: arrows) finish) :
    G.Lightest weight (G.target arrow) arrows finish where
  trail := lightest.trail.2.2
  least := by
    intro others other
    have whole := lightest.least (arrow :: others)
      ⟨lightest.trail.1, lightest.trail.2.1, other⟩
    rw [totalWeight_cons, totalWeight_cons] at whole
    omega

theorem Lightest.suffix
    (lightest : G.Lightest weight start (rest ++ arrow :: arrows) finish) :
    G.Lightest weight (G.source arrow) (arrow :: arrows) finish := by
  induction rest generalizing start with
  | nil =>
      rcases lightest.trail.2.1 with rfl
      exact lightest
  | cons head tail induction => exact induction lightest.tail

/-- A lightest trail leaves each of its vertices once. -/
theorem Lightest.source_injective
    {other : E}
    (positive : ∀ arrow, 0 < weight arrow)
    (lightest : G.Lightest weight start arrows finish)
    (member : arrow ∈ arrows)
    (otherMember : other ∈ arrows)
    (same : G.source arrow = G.source other) :
    arrow = other := by
  induction arrows generalizing start with
  | nil => cases member
  | cons head tail induction =>
      -- a second arrow out of the first vertex would be a shortcut
      have once : ∀ second ∈ tail, G.source head ≠ G.source second := by
        intro second secondMember equal
        rcases List.append_of_mem secondMember with ⟨before, after, rfl⟩
        rcases trail_append.mp lightest.trail.2.2 with
          ⟨_, -, present, leaves, shortcut⟩
        have least := lightest.least (second :: after)
          ⟨present, equal.symm.trans lightest.trail.2.1, shortcut⟩
        have headPositive := positive head
        rw [totalWeight_cons, totalWeight_append] at least
        omega
      rcases List.mem_cons.mp member with rfl | later
      · rcases List.mem_cons.mp otherMember with rfl | otherLater
        · rfl
        · exact (once other otherLater same).elim
      · rcases List.mem_cons.mp otherMember with rfl | otherLater
        · exact (once arrow later same.symm).elim
        · exact induction lightest.tail later otherLater

/-! ## Arrows into the target that are met one round late -/

variable {delayed : E → Prop} [DecidablePred delayed]

/-- Weight two for the delayed arrows, one for the others. -/
def delayedWeight (delayed : E → Prop) [DecidablePred delayed]
    (arrow : E) : Nat :=
  if delayed arrow then 2 else 1

theorem delayedWeight_pos (arrow : E) : 0 < delayedWeight delayed arrow := by
  unfold delayedWeight
  split
  · exact Nat.two_pos
  · exact Nat.one_pos

/--
One round of a backward search: the vertices within one more are those with
an arrow to a vertex within the bound, a delayed one excepted in round zero.
-/
theorem within_succ
    (late : ∀ arrow, delayed arrow → G.target arrow = finish)
    {bound : Nat} :
    G.Within (delayedWeight delayed) finish (bound + 1) start ↔
      G.Within (delayedWeight delayed) finish bound start ∨
        ∃ arrow, G.Arrow arrow ∧ G.source arrow = start ∧
          G.Within (delayedWeight delayed) finish bound (G.target arrow) ∧
          (bound = 0 → ¬ delayed arrow) := by
  constructor
  · rintro ⟨arrows, trail, light⟩
    cases arrows with
    | nil => exact Or.inl ⟨[], trail, Nat.zero_le bound⟩
    | cons head tail =>
        rcases trail with ⟨present, leaves, trail⟩
        have headPositive : 0 < delayedWeight delayed head :=
          delayedWeight_pos head
        rw [totalWeight_cons] at light
        refine Or.inr ⟨head, present, leaves, ⟨tail, trail, by omega⟩, ?_⟩
        rintro rfl isDelayed
        rw [delayedWeight, if_pos isDelayed] at light
        omega
  · rintro (within | ⟨arrow, present, leaves, ⟨arrows, trail, light⟩, first⟩)
    · exact within.mono (Nat.le_succ bound)
    · by_cases isDelayed : delayed arrow
      · have positive : bound ≠ 0 := fun zero => first zero isDelayed
        refine ⟨[arrow], ⟨present, leaves, late arrow isDelayed⟩, ?_⟩
        rw [totalWeight_cons, delayedWeight, if_pos isDelayed,
          totalWeight_nil]
        omega
      · refine ⟨arrow :: arrows, ⟨present, leaves, trail⟩, ?_⟩
        rw [totalWeight_cons, delayedWeight, if_neg isDelayed]
        omega

/-- An arrow that a round meets extends a lightest trail to a lightest one. -/
theorem Lightest.cons
    (late : ∀ arrow, delayed arrow → G.target arrow = finish)
    {bound : Nat}
    (lightest :
      G.Lightest (delayedWeight delayed) (G.target arrow) arrows finish)
    (within : G.Within (delayedWeight delayed) finish bound (G.target arrow))
    (present : G.Arrow arrow)
    (first : bound = 0 → ¬ delayed arrow)
    (new : ¬ G.Within (delayedWeight delayed) finish bound (G.source arrow)) :
    G.Lightest (delayedWeight delayed) (G.source arrow) (arrow :: arrows)
      finish := by
  refine lightest_of_not_within ⟨present, rfl, lightest.trail⟩ ?_ new
  by_cases isDelayed : delayed arrow
  · have positive : bound ≠ 0 := fun zero => first zero isDelayed
    have none : totalWeight (delayedWeight delayed) arrows ≤ 0 := by
      apply lightest.le_of_within
      rw [late arrow isDelayed]
      exact within_self 0
    rw [totalWeight_cons, delayedWeight, if_pos isDelayed]
    omega
  · have light := lightest.le_of_within within
    rw [totalWeight_cons, delayedWeight, if_neg isDelayed]
    omega

/-- A search that meets nothing new in a later round has met everything. -/
theorem within_of_reaches
    (late : ∀ arrow, delayed arrow → G.target arrow = finish)
    {bound : Nat}
    (positive : bound ≠ 0)
    (stable : ∀ vertex,
      G.Within (delayedWeight delayed) finish (bound + 1) vertex →
        G.Within (delayedWeight delayed) finish bound vertex)
    (reaches : G.Reaches start finish) :
    G.Within (delayedWeight delayed) finish bound start := by
  apply reaches.mem_of_closed_back (within_self bound)
  intro arrow present within
  apply stable
  rw [within_succ late]
  exact Or.inr ⟨arrow, present, rfl, within, fun zero => (positive zero).elim⟩

end Limestone.Library.Multigraph
