import Limestone.Library.SqlText
import Mathlib.Tactic.Common

/-!
# Lists of numbers in SQL texts

The list behind `IN` is read at its commas.  A piece that is no number, such as
the empty one before a comma at the front, is a syntax error.
-/

namespace Limestone.Library.NumberList

/-- A number with a sign or without one. -/
def readNumber : List Char → Option Int
  | '-' :: digits =>
      if digits ≠ [] ∧ digits.all Char.isDigit = true then
        some (-(Nat.ofDigitChars 10 digits 0 : Int))
      else none
  | digits =>
      if digits ≠ [] ∧ digits.all Char.isDigit = true then
        some (Nat.ofDigitChars 10 digits 0 : Int)
      else none

/-- The numbers of a list. -/
def readNumbers (text : List Char) : Option (List Int) :=
  (text.splitOn ',').mapM readNumber

theorem readNumber_toString (value : Int) :
    readNumber (toString value).toList = some value := by
  rcases SqlText.toString_cases value with
    ⟨number, rfl, text⟩ | ⟨number, rfl, text⟩
  · have digits := SqlText.all_isDigit_toDigits number
    rw [text]
    cases shape : Nat.toDigits 10 number with
    | nil => exact (Nat.toDigits_ne_nil shape).elim
    | cons first rest =>
        have noSign : first ≠ '-' := by
          rintro rfl
          rw [shape] at digits
          cases digits
        rw [shape] at digits
        have whole : readNumber (first :: rest) =
            if first :: rest ≠ [] ∧ (first :: rest).all Char.isDigit = true then
              some ((Nat.ofDigitChars 10 (first :: rest) 0 : Nat) : Int)
            else none := by
          unfold readNumber
          split
          · next same => exact (noSign (List.cons.inj same).1).elim
          · rfl
        rw [whole, if_pos ⟨List.cons_ne_nil _ _, digits⟩, ← shape,
          Nat.ofDigitChars_ten_toDigits]
        rfl
  · rw [text, readNumber,
      if_pos ⟨Nat.toDigits_ne_nil, SqlText.all_isDigit_toDigits (number + 1)⟩,
      Nat.ofDigitChars_ten_toDigits]
    rfl

theorem comma_notMem_toString (value : Int) :
    ',' ∉ (toString value).toList := by
  intro member
  rcases SqlText.mem_toString member with digit | minus
  · cases digit
  · cases minus

theorem readNumbers_toString (value : Int) :
    readNumbers (toString value).toList = some [value] := by
  rw [readNumbers, List.splitOn_eq_singleton (comma_notMem_toString value),
    List.mapM_cons, readNumber_toString]
  rfl

/-- A number before the first comma. -/
theorem readNumbers_cons (value : Int) (rest : List Char) :
    readNumbers ((toString value).toList ++ ',' :: rest) =
      (readNumbers rest).map (value :: ·) := by
  rw [readNumbers, List.splitOn_append_cons_self,
    List.splitOn_eq_singleton (comma_notMem_toString value),
    List.singleton_append, List.mapM_cons, readNumber_toString, readNumbers]
  cases (rest.splitOn ',').mapM readNumber with
  | none => rfl
  | some values => rfl

/-- A list does not begin with a comma. -/
theorem readNumbers_comma (rest : List Char) :
    readNumbers (',' :: rest) = none := by
  have pieces : (',' :: rest).splitOn ',' = [] :: rest.splitOn ',' := by
    have split := @List.splitOn_append_cons_self _ _ _ ',' [] rest
    exact split
  rw [readNumbers, pieces, List.mapM_cons]
  rfl

end Limestone.Library.NumberList
