import Mathlib.Data.Int.Basic
import Mathlib.Data.List.TakeWhile

/-!
# Memory and the accesses to it

A program that works on a string by pointers reads and writes a memory that
goes on at both ends of the string.  Every access is noted by its address, so
that what is read and written can be compared with where the string is.  A
string ends at the first terminator.
-/

namespace Limestone.Library.TracedMemory

variable {Cell : Type*}

/-- A memory, and the addresses that were accessed so far. -/
structure Traced (Cell : Type*) where
  memory : Int → Cell
  accessed : List Int

/-- Read what is at an address. -/
def Traced.load (traced : Traced Cell) (address : Int) : Cell × Traced Cell :=
  (traced.memory address,
    { traced with accessed := traced.accessed ++ [address] })

/-- Write to an address. -/
def Traced.store (traced : Traced Cell) (address : Int) (cell : Cell) :
    Traced Cell where
  memory := Function.update traced.memory address cell
  accessed := traced.accessed ++ [address]

/-- Accesses are added, and all of them are to such addresses. -/
structure Adds (Allowed : Int → Prop) (before after : Traced Cell) :
    Prop where
  kept : ∀ address ∈ before.accessed, address ∈ after.accessed
  added : ∀ address ∈ after.accessed,
    address ∈ before.accessed ∨ Allowed address

section Accesses

variable {Allowed : Int → Prop} {before middle after : Traced Cell}

theorem Adds.trans
    (first : Adds Allowed before middle)
    (second : Adds Allowed middle after) :
    Adds Allowed before after where
  kept := fun address member =>
    second.kept address (first.kept address member)
  added := by
    intro address member
    rcases second.added address member with earlier | allowed
    · exact first.added address earlier
    · exact Or.inr allowed

theorem Adds.mono
    {More : Int → Prop}
    (adds : Adds Allowed before after)
    (more : ∀ address, Allowed address → More address) :
    Adds More before after where
  kept := adds.kept
  added := fun address member =>
    (adds.added address member).imp_right (more address)

/-- One access to an address. -/
theorem adds_of_accessed
    {address : Int}
    (accessed : after.accessed = before.accessed ++ [address])
    (allowed : Allowed address) :
    Adds Allowed before after where
  kept := fun _ member => accessed ▸ List.mem_append_left _ member
  added := by
    intro other member
    rw [accessed, List.mem_append, List.mem_singleton] at member
    rcases member with earlier | rfl
    · exact Or.inl earlier
    · exact Or.inr allowed

end Accesses

/-- A text stands at an address, and a terminator behind it. -/
structure HoldsText (nul : Cell) (memory : Int → Cell) (start : Int)
    (text : List Cell) : Prop where
  cells : ∀ (i : Nat) (inside : i < text.length),
    memory (start + i) = text[i]
  terminated : memory (start + text.length) = nul
  noNul : nul ∉ text

/-- The text with a terminator behind it, amid other cells. -/
def placed (nul : Cell) (outside : Int → Cell) (text : List Cell)
    (address : Int) : Cell :=
  if address < 0 then outside address
  else ((text ++ [nul])[address.toNat]?).getD (outside address)

section Texts

variable {nul : Cell} {memory : Int → Cell} {start : Int} {text : List Cell}

theorem holdsText_placed
    (outside : Int → Cell)
    (noNul : nul ∉ text) :
    HoldsText nul (placed nul outside text) 0 text := by
  have inside (i : Nat) (cell : Cell) (there : (text ++ [nul])[i]? = some cell) :
      placed nul outside text (0 + i) = cell := by
    rw [placed, if_neg (by omega), Int.zero_add, Int.toNat_natCast, there]
    rfl
  constructor
  · intro i within
    apply inside
    rw [List.getElem?_append_left within]
    exact List.getElem?_eq_getElem within
  · apply inside
    rw [List.getElem?_append_right (Nat.le_refl _), Nat.sub_self]
    rfl
  · exact noNul

/-- The first cell of a text, or the terminator behind an empty one. -/
theorem HoldsText.first (holds : HoldsText nul memory start text) :
    memory start = text.head?.getD nul := by
  cases text with
  | nil =>
      have terminated := holds.terminated
      rw [List.length_nil, Int.natCast_zero, Int.add_zero] at terminated
      exact terminated
  | cons cell text =>
      have first := holds.cells 0 (Nat.succ_pos _)
      rw [Int.natCast_zero, Int.add_zero] at first
      exact first

theorem HoldsText.tail
    {cell : Cell}
    (holds : HoldsText nul memory start (cell :: text)) :
    HoldsText nul memory (start + 1) text := by
  constructor
  · intro i within
    have there := holds.cells (i + 1) (Nat.succ_lt_succ within)
    rw [Int.natCast_succ, Int.add_comm (i : Int) 1, ← Int.add_assoc] at there
    exact there
  · have terminated := holds.terminated
    rw [List.length_cons, Int.natCast_succ, Int.add_comm (text.length : Int) 1,
      ← Int.add_assoc] at terminated
    exact terminated
  · exact fun member => holds.noNul (List.mem_cons_of_mem cell member)

theorem HoldsText.cell_of_append
    {cell : Cell} {more : List Cell}
    (holds : HoldsText nul memory start (text ++ cell :: more)) :
    memory (start + text.length) = cell := by
  have within : text.length < (text ++ cell :: more).length := by
    rw [List.length_append, List.length_cons]
    omega
  rw [holds.cells text.length within, List.getElem_append_right (Nat.le_refl _)]
  simp only [Nat.sub_self, List.getElem_cons_zero]

/-- A terminator that is written into a text ends it there. -/
theorem HoldsText.cut
    {cell : Cell} {more : List Cell}
    (holds : HoldsText nul memory start (text ++ cell :: more)) :
    HoldsText nul (Function.update memory (start + text.length) nul) start
      text := by
  constructor
  · intro i within
    have longer : i < (text ++ cell :: more).length := by
      rw [List.length_append]
      omega
    have elsewhere : start + (i : Int) ≠ start + text.length := by
      omega
    rw [Function.update_of_ne elsewhere, holds.cells i longer,
      List.getElem_append_left within]
  · exact Function.update_self ..
  · exact fun member => holds.noNul (List.mem_append_left _ member)

/-- What stands at an address is one text. -/
theorem HoldsText.unique
    {other : List Cell}
    (holds : HoldsText nul memory start text)
    (holdsOther : HoldsText nul memory start other) :
    text = other := by
  induction text generalizing start other with
  | nil =>
      cases other with
      | nil => rfl
      | cons cell other =>
          have same : nul = cell :=
            holds.first.symm.trans holdsOther.first
          exact (holdsOther.noNul (same ▸ List.mem_cons_self)).elim
  | cons cell text induction =>
      cases other with
      | nil =>
          have same : nul = cell :=
            holdsOther.first.symm.trans holds.first
          exact (holds.noNul (same ▸ List.mem_cons_self)).elim
      | cons otherCell other =>
          have same : cell = otherCell :=
            holds.first.symm.trans holdsOther.first
          rw [same, induction holds.tail holdsOther.tail]

end Texts

end Limestone.Library.TracedMemory
