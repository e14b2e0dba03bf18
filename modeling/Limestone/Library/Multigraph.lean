import Mathlib.Algebra.BigOperators.Group.List.Basic
import Mathlib.Data.List.Basic
import Mathlib.Tactic.Linarith

/-!
# Directed multigraphs and their trails

A multigraph has arrows of a type `E` between vertices of a type `V`; several
arrows may join the same two vertices and an arrow may be a loop.  Which
arrows are present is a predicate, so that a subgraph is the same source and
target maps with a smaller predicate.

A trail is the list of the arrows it follows.  Reachability is the existence
of a trail, and the removal lemmas say how a trail of a graph meets the
arrows that a subgraph lacks.
-/

namespace Limestone.Library

/-- Arrows of type `E` between vertices of type `V`. -/
structure Multigraph (V E : Type*) where
  source : E → V
  target : E → V
  Arrow : E → Prop

namespace Multigraph

variable {V E : Type*}

/-! ## Trails -/

/-- `G.Trail start arrows finish`: the arrows lead from `start` to `finish`. -/
def Trail (G : Multigraph V E) : V → List E → V → Prop
  | start, [], finish => start = finish
  | start, arrow :: rest, finish =>
      G.Arrow arrow ∧ G.source arrow = start ∧
        G.Trail (G.target arrow) rest finish

variable {G : Multigraph V E} {start middle finish : V}
  {arrow : E} {arrows rest : List E}

@[simp]
theorem trail_nil : G.Trail start [] finish ↔ start = finish :=
  Iff.rfl

@[simp]
theorem trail_cons :
    G.Trail start (arrow :: rest) finish ↔
      G.Arrow arrow ∧ G.source arrow = start ∧
        G.Trail (G.target arrow) rest finish :=
  Iff.rfl

theorem trail_append :
    G.Trail start (arrows ++ rest) finish ↔
      ∃ middle, G.Trail start arrows middle ∧ G.Trail middle rest finish := by
  induction arrows generalizing start with
  | nil => simp
  | cons head tail induction =>
      simp only [List.cons_append, trail_cons, induction]
      constructor
      · rintro ⟨present, leaves, middle, first, second⟩
        exact ⟨middle, ⟨present, leaves, first⟩, second⟩
      · rintro ⟨middle, ⟨present, leaves, first⟩, second⟩
        exact ⟨present, leaves, middle, first, second⟩

theorem Trail.append
    (first : G.Trail start arrows middle)
    (second : G.Trail middle rest finish) :
    G.Trail start (arrows ++ rest) finish :=
  trail_append.mpr ⟨middle, first, second⟩

theorem Trail.arrow_mem
    (trail : G.Trail start arrows finish) :
    ∀ arrow ∈ arrows, G.Arrow arrow := by
  induction arrows generalizing start with
  | nil => simp
  | cons head tail induction =>
      rcases trail with ⟨present, -, trail⟩
      simp only [List.mem_cons, forall_eq_or_imp]
      exact ⟨present, induction trail⟩

/-- A trail determines where it ends. -/
theorem Trail.finish_unique
    {other : V}
    (first : G.Trail start arrows finish)
    (second : G.Trail start arrows other) :
    finish = other := by
  induction arrows generalizing start with
  | nil => exact first.symm.trans second
  | cons head tail induction => exact induction first.2.2 second.2.2

/-! ## Subgraphs -/

/-- Keep only the arrows that satisfy `keep`. -/
def restrict (G : Multigraph V E) (keep : E → Prop) : Multigraph V E :=
  { G with Arrow := fun arrow => G.Arrow arrow ∧ keep arrow }

theorem trail_restrict {keep : E → Prop} :
    (G.restrict keep).Trail start arrows finish ↔
      G.Trail start arrows finish ∧ ∀ arrow ∈ arrows, keep arrow := by
  induction arrows generalizing start with
  | nil => simp
  | cons head tail induction =>
      simp only [trail_cons, induction, List.mem_cons, forall_eq_or_imp]
      simp only [restrict]
      tauto

/-- A trail moves to any graph that has its arrows and agrees on their ends. -/
theorem Trail.transfer
    {H : Multigraph V E}
    (trail : G.Trail start arrows finish)
    (present : ∀ arrow ∈ arrows, G.Arrow arrow → H.Arrow arrow)
    (source : H.source = G.source)
    (target : H.target = G.target) :
    H.Trail start arrows finish := by
  induction arrows generalizing start with
  | nil => exact trail
  | cons head tail induction =>
      rcases trail with ⟨headPresent, leaves, trail⟩
      refine ⟨present head (by simp) headPresent, by rw [source, leaves], ?_⟩
      rw [target]
      exact induction trail
        (fun arrow member => present arrow (List.mem_cons_of_mem _ member))

/-! ## Reachability -/

/-- Some trail leads from `start` to `finish`. -/
def Reaches (G : Multigraph V E) (start finish : V) : Prop :=
  ∃ arrows, G.Trail start arrows finish

theorem Trail.reaches
    (trail : G.Trail start arrows finish) : G.Reaches start finish :=
  ⟨arrows, trail⟩

theorem Reaches.refl (G : Multigraph V E) (vertex : V) :
    G.Reaches vertex vertex :=
  ⟨[], rfl⟩

theorem Reaches.trans
    (first : G.Reaches start middle)
    (second : G.Reaches middle finish) :
    G.Reaches start finish := by
  rcases first with ⟨arrows, first⟩
  rcases second with ⟨rest, second⟩
  exact (first.append second).reaches

theorem reaches_of_arrow (present : G.Arrow arrow) :
    G.Reaches (G.source arrow) (G.target arrow) :=
  ⟨[arrow], present, rfl, rfl⟩

theorem Reaches.tail
    (reaches : G.Reaches start (G.source arrow))
    (present : G.Arrow arrow) :
    G.Reaches start (G.target arrow) :=
  reaches.trans (reaches_of_arrow present)

theorem Reaches.head
    (present : G.Arrow arrow)
    (reaches : G.Reaches (G.target arrow) finish) :
    G.Reaches (G.source arrow) finish :=
  (reaches_of_arrow present).trans reaches

/-- A set closed under the arrows holds everything reachable from it. -/
theorem Reaches.mem_of_closed
    {S : V → Prop}
    (reaches : G.Reaches start finish)
    (base : S start)
    (step : ∀ arrow, G.Arrow arrow →
      S (G.source arrow) → S (G.target arrow)) :
    S finish := by
  rcases reaches with ⟨arrows, trail⟩
  induction arrows generalizing start with
  | nil =>
      rcases trail with rfl
      exact base
  | cons head tail induction =>
      rcases trail with ⟨present, rfl, trail⟩
      exact induction (step head present base) trail

/-- A set closed under going back holds everything that reaches it. -/
theorem Reaches.mem_of_closed_back
    {S : V → Prop}
    (reaches : G.Reaches start finish)
    (base : S finish)
    (step : ∀ arrow, G.Arrow arrow →
      S (G.target arrow) → S (G.source arrow)) :
    S start := by
  by_contra outside
  exact (reaches.mem_of_closed (S := fun vertex => ¬ S vertex)
    outside (fun arrow present => mt (step arrow present))) base

theorem Reaches.transfer
    {H : Multigraph V E}
    (reaches : G.Reaches start finish)
    (present : ∀ arrow, G.Arrow arrow → H.Arrow arrow)
    (source : H.source = G.source)
    (target : H.target = G.target) :
    H.Reaches start finish := by
  rcases reaches with ⟨arrows, trail⟩
  exact (trail.transfer (fun arrow _ => present arrow) source target).reaches

/-- Arrows with the same ends lead to the same vertices. -/
theorem Reaches.of_ends
    {H : Multigraph V E}
    (reaches : G.Reaches start finish)
    (arrows : ∀ arrow, G.Arrow arrow → ∃ other, H.Arrow other ∧
      H.source other = G.source arrow ∧ H.target other = G.target arrow) :
    H.Reaches start finish := by
  refine reaches.mem_of_closed (Reaches.refl H start) ?_
  intro arrow present reached
  rcases arrows arrow present with ⟨other, isArrow, source, target⟩
  rw [← source] at reached
  rw [← target]
  exact reached.tail isArrow

theorem Reaches.of_restrict
    {keep : E → Prop}
    (reaches : (G.restrict keep).Reaches start finish) :
    G.Reaches start finish :=
  reaches.transfer (fun _ => And.left) rfl rfl

/--
A trail either keeps to a subgraph, or up to its first arrow outside the
subgraph it does.
-/
theorem Reaches.first_outside
    (keep : E → Prop)
    (reaches : G.Reaches start finish) :
    (G.restrict keep).Reaches start finish ∨
      ∃ arrow, G.Arrow arrow ∧ ¬ keep arrow ∧
        (G.restrict keep).Reaches start (G.source arrow) := by
  rcases reaches with ⟨arrows, trail⟩
  induction arrows generalizing start with
  | nil => exact Or.inl ⟨[], trail⟩
  | cons head tail induction =>
      rcases trail with ⟨present, rfl, trail⟩
      by_cases kept : keep head
      · have first : (G.restrict keep).Reaches (G.source head)
            (G.target head) :=
          reaches_of_arrow (G := G.restrict keep) ⟨present, kept⟩
        rcases induction trail with inside | ⟨arrow, arrowPresent, dropped, inside⟩
        · exact Or.inl (first.trans inside)
        · exact Or.inr ⟨arrow, arrowPresent, dropped, first.trans inside⟩
      · exact Or.inr ⟨head, present, kept, Reaches.refl _ _⟩

/-- What is reached is the start, or is at the end of a last arrow. -/
theorem reaches_iff_last :
    G.Reaches start finish ↔
      finish = start ∨ ∃ arrow, G.Arrow arrow ∧
        G.Reaches start (G.source arrow) ∧ G.target arrow = finish := by
  constructor
  · intro reaches
    apply reaches.mem_of_closed
    · exact Or.inl rfl
    · rintro arrow present (same | ⟨last, lastPresent, reaches, ends⟩)
      · refine Or.inr ⟨arrow, present, ?_, rfl⟩
        rw [same]
        exact Reaches.refl G start
      · refine Or.inr ⟨arrow, present, ?_, rfl⟩
        rw [← ends]
        exact reaches.tail lastPresent
  · rintro (rfl | ⟨arrow, present, reaches, rfl⟩)
    · exact Reaches.refl G finish
    · exact reaches.tail present

/-- Arrows into a set of vertices, and arrows out of it. -/
theorem reaches_restrict_target
    {S : V → Prop} (inside : S start) :
    (G.restrict fun arrow => S (G.target arrow)).Reaches start finish ↔
      (G.restrict fun arrow => S (G.source arrow)).Reaches start finish ∧
        S finish := by
  constructor
  · intro reaches
    apply reaches.mem_of_closed
    · exact ⟨Reaches.refl _ start, inside⟩
    · rintro arrow ⟨present, enters⟩ ⟨reached, leaves⟩
      exact ⟨reached.tail ⟨present, leaves⟩, enters⟩
  · rintro ⟨reaches, ends⟩
    apply reaches.mem_of_closed (S := fun vertex => S vertex →
      (G.restrict fun arrow => S (G.target arrow)).Reaches start vertex)
    · intro _
      exact Reaches.refl _ start
    · rintro arrow ⟨present, leaves⟩ reached enters
      exact (reached leaves).tail ⟨present, enters⟩
    · exact ends

end Multigraph

end Limestone.Library
