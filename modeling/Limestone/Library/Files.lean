import Mathlib.Data.List.Basic
import Mathlib.Algebra.Notation.Defs

/-!
# Files with their contents

A file system maps paths to contents.  What an operation does not name is left
alone.  Bytes are written over those that a file has at a position; a position
behind the end is reached with zeros.
-/

namespace Limestone.Library

/-- The contents of the files that are there. -/
abbrev Files (Path Byte : Type*) := Path → Option (List Byte)

namespace Files

variable {Path Byte : Type*}

section Contents

variable [Zero Byte] {bytes chunk second : List Byte}
  {chunks : List (List Byte)}
  {position : Nat}

/-- The bytes with others written over them. -/
def overwrite (bytes : List Byte) (position : Nat) (chunk : List Byte) :
    List Byte :=
  bytes.take position ++ List.replicate (position - bytes.length) 0 ++ chunk ++
    bytes.drop (position + chunk.length)

/-- Chunks that are written one behind the other. -/
def overwriteAll (bytes : List Byte) (position : Nat) :
    List (List Byte) → List Byte
  | [] => bytes
  | chunk :: chunks =>
      overwriteAll (overwrite bytes position chunk) (position + chunk.length)
        chunks

theorem overwrite_inside (inside : position ≤ bytes.length) :
    overwrite bytes position chunk =
      bytes.take position ++ chunk ++
        bytes.drop (position + chunk.length) := by
  rw [overwrite, Nat.sub_eq_zero_of_le inside, List.replicate_zero,
    List.append_nil]

theorem overwrite_nil (inside : position ≤ bytes.length) :
    overwrite bytes position [] = bytes := by
  rw [overwrite_inside inside, List.append_nil, List.length_nil, Nat.add_zero,
    List.take_append_drop]

theorem length_overwrite_ge (inside : position ≤ bytes.length) :
    position + chunk.length ≤ (overwrite bytes position chunk).length := by
  rw [overwrite_inside inside, List.length_append, List.length_append,
    List.length_take, Nat.min_eq_left inside]
  exact Nat.le_add_right _ _

/-- Two writes one behind the other are one. -/
theorem overwrite_overwrite (inside : position ≤ bytes.length) :
    overwrite (overwrite bytes position chunk) (position + chunk.length)
        second =
      overwrite bytes position (chunk ++ second) := by
  have front : (bytes.take position ++ chunk).length =
      position + chunk.length := by
    rw [List.length_append, List.length_take, Nat.min_eq_left inside]
  have kept : (overwrite bytes position chunk).take
      (position + chunk.length) = bytes.take position ++ chunk := by
    rw [overwrite_inside inside, ← front, List.take_left]
  have behind : (overwrite bytes position chunk).drop
      (position + chunk.length + second.length) =
      bytes.drop (position + chunk.length + second.length) := by
    rw [← List.drop_drop, overwrite_inside inside, ← front, List.drop_left,
      front, List.drop_drop]
  rw [overwrite_inside (length_overwrite_ge inside), kept, behind,
    overwrite_inside inside, List.length_append]
  simp only [List.append_assoc, Nat.add_assoc]

/-- The chunks replace the bytes from the position on. -/
theorem overwriteAll_eq (inside : position ≤ bytes.length) :
    overwriteAll bytes position chunks =
      overwrite bytes position chunks.flatten := by
  induction chunks generalizing bytes position with
  | nil => exact (overwrite_nil inside).symm
  | cons chunk chunks induction =>
      rw [overwriteAll, induction (length_overwrite_ge inside),
        overwrite_overwrite inside]
      rfl

end Contents

/-! ## Operations on files -/

variable [DecidableEq Path] {files : Files Path Byte} {path source dest : Path}
  {content : List Byte}

/-- The file with other contents. -/
def set (files : Files Path Byte) (path : Path) (content : List Byte) :
    Files Path Byte :=
  fun other => if other = path then some content else files other

/-- The files without one. -/
def remove (files : Files Path Byte) (path : Path) : Files Path Byte :=
  fun other => if other = path then none else files other

/-- A copy of a file; nothing is done if the source is missing. -/
def copy (files : Files Path Byte) (source dest : Path) : Files Path Byte :=
  match files source with
  | none => files
  | some content => files.set dest content

/-- A file under another path; nothing is done if it is missing. -/
def rename (files : Files Path Byte) (source dest : Path) :
    Files Path Byte :=
  match files source with
  | none => files
  | some content => (files.remove source).set dest content

@[simp]
theorem set_same : files.set path content path = some content :=
  if_pos rfl

@[simp]
theorem set_of_ne (other : source ≠ path) :
    files.set path content source = files source :=
  if_neg other

@[simp]
theorem remove_of_ne (other : source ≠ path) :
    files.remove path source = files source :=
  if_neg other

theorem set_set {later : List Byte} :
    (files.set path content).set path later = files.set path later := by
  funext other
  by_cases same : other = path
  · rw [same, set_same, set_same]
  · rw [set_of_ne same, set_of_ne same, set_of_ne same]

theorem copy_eq (present : files source = some content) :
    files.copy source dest = files.set dest content := by
  rw [copy, present]

theorem rename_eq (present : files source = some content) :
    files.rename source dest = (files.remove source).set dest content := by
  rw [rename, present]

end Files

end Limestone.Library
