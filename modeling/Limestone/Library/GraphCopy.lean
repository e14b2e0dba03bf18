import Limestone.Library.Multigraph
import Mathlib.Data.Set.Function

/-!
# Copies of labelled multigraphs

A part of a graph is copied along an injective map of its vertices: the copy
of a vertex has the copies of the arrows that leave it, with their labels, and
no other arrow.  The label sequences that lead away from a vertex are then the
same on both sides.
-/

namespace Limestone.Library.Multigraph

variable {V E L : Type*}

/-! ## Walks along labels -/

/-- The labels spell a trail from `start` to `finish`. -/
def Spells (G : Multigraph V E) (label : E → L) (start : V) (labels : List L)
    (finish : V) : Prop :=
  ∃ arrows, G.Trail start arrows finish ∧ arrows.map label = labels

section Spelled

variable {G : Multigraph V E} {label : E → L} {start middle finish : V}
  {labels rest : List L} {value : L} {arrow : E}

@[simp]
theorem spells_nil : G.Spells label start [] finish ↔ start = finish := by
  constructor
  · rintro ⟨arrows, trail, empty⟩
    rcases List.map_eq_nil_iff.mp empty with rfl
    exact trail
  · rintro rfl
    exact ⟨[], rfl, rfl⟩

theorem spells_cons :
    G.Spells label start (value :: labels) finish ↔
      ∃ arrow, G.Arrow arrow ∧ G.source arrow = start ∧
        label arrow = value ∧
        G.Spells label (G.target arrow) labels finish := by
  constructor
  · rintro ⟨arrows, trail, same⟩
    rcases List.map_eq_cons_iff.mp same with ⟨arrow, others, rfl, rfl, rfl⟩
    exact ⟨arrow, trail.1, trail.2.1, rfl, others, trail.2.2, rfl⟩
  · rintro ⟨arrow, present, leaves, rfl, others, trail, rfl⟩
    exact ⟨arrow :: others, ⟨present, leaves, trail⟩, rfl⟩

theorem spells_append :
    G.Spells label start (labels ++ rest) finish ↔
      ∃ middle, G.Spells label start labels middle ∧
        G.Spells label middle rest finish := by
  constructor
  · rintro ⟨arrows, trail, same⟩
    rcases List.map_eq_append_iff.mp same with ⟨first, second, rfl, rfl, rfl⟩
    rcases trail_append.mp trail with ⟨middle, before, behind⟩
    exact ⟨middle, ⟨first, before, rfl⟩, ⟨second, behind, rfl⟩⟩
  · rintro ⟨middle, ⟨arrows, trail, rfl⟩, ⟨others, onward, rfl⟩⟩
    exact ⟨arrows ++ others, trail.append onward, List.map_append⟩

/-- More arrows spell more. -/
theorem Spells.mono
    {H : Multigraph V E}
    (spells : G.Spells label start labels finish)
    (present : ∀ arrow, G.Arrow arrow → H.Arrow arrow)
    (source : H.source = G.source)
    (target : H.target = G.target) :
    H.Spells label start labels finish := by
  rcases spells with ⟨arrows, trail, same⟩
  exact ⟨arrows, trail.transfer (fun arrow _ => present arrow) source target,
    same⟩

end Spelled

/-! ## Copies -/

/--
The vertices of `inside` are closed under the arrows of `G`, and `image` maps
them to vertices of `H` with the same labelled arrows.
-/
structure IsCopy (G H : Multigraph V E) (label : E → L) (inside : Set V)
    (image : V → V) : Prop where
  injective : Set.InjOn image inside
  closed : ∀ arrow, G.Arrow arrow → G.source arrow ∈ inside →
    G.target arrow ∈ inside
  complete : ∀ arrow, G.Arrow arrow → G.source arrow ∈ inside →
    ∃ copy, H.Arrow copy ∧ H.source copy = image (G.source arrow) ∧
      H.target copy = image (G.target arrow) ∧ label copy = label arrow
  sound : ∀ copy vertex, H.Arrow copy → vertex ∈ inside →
    H.source copy = image vertex →
      ∃ arrow, G.Arrow arrow ∧ G.source arrow = vertex ∧
        H.target copy = image (G.target arrow) ∧ label arrow = label copy

section Copied

variable {G H : Multigraph V E} {label : E → L} {inside : Set V}
  {image : V → V} {start finish : V} {labels : List L}

theorem IsCopy.spells
    (copy : IsCopy G H label inside image)
    (within : start ∈ inside)
    (spells : G.Spells label start labels finish) :
    H.Spells label (image start) labels (image finish) := by
  induction labels generalizing start with
  | nil =>
      rw [spells_nil] at spells ⊢
      rw [spells]
  | cons value labels induction =>
      rcases spells_cons.mp spells with ⟨arrow, present, rfl, rfl, onward⟩
      rcases copy.complete arrow present within with
        ⟨twin, isArrow, source, target, same⟩
      refine spells_cons.mpr ⟨twin, isArrow, source, same, ?_⟩
      rw [target]
      exact induction (copy.closed arrow present within) onward

/-- A walk from the copy of a vertex is the copy of a walk. -/
theorem IsCopy.exists_spells
    (copy : IsCopy G H label inside image)
    (within : start ∈ inside)
    (spells : H.Spells label (image start) labels finish) :
    ∃ vertex ∈ inside, image vertex = finish ∧
      G.Spells label start labels vertex := by
  induction labels generalizing start with
  | nil => exact ⟨start, within, spells_nil.mp spells, spells_nil.mpr rfl⟩
  | cons value labels induction =>
      rcases spells_cons.mp spells with ⟨twin, isArrow, leaves, rfl, onward⟩
      rcases copy.sound twin start isArrow within leaves with
        ⟨arrow, present, rfl, target, same⟩
      rw [target] at onward
      rcases induction (copy.closed arrow present within) onward with
        ⟨vertex, member, reached, walk⟩
      exact ⟨vertex, member, reached,
        spells_cons.mpr ⟨arrow, present, rfl, same, walk⟩⟩

/-- Below a copied vertex the labels lead to the copies. -/
theorem IsCopy.spells_iff
    (copy : IsCopy G H label inside image)
    (within : start ∈ inside) :
    H.Spells label (image start) labels finish ↔
      ∃ vertex ∈ inside, image vertex = finish ∧
        G.Spells label start labels vertex := by
  constructor
  · exact copy.exists_spells within
  · rintro ⟨vertex, -, rfl, walk⟩
    exact copy.spells within walk

end Copied

end Limestone.Library.Multigraph
