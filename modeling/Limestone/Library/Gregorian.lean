import Mathlib.Algebra.Ring.Int.Defs
import Mathlib.Algebra.Ring.Nat
import Mathlib.Tactic.Common

/-!
# The Gregorian calendar

The calendar goes on in both directions without an end.  A date is a year, a
month and a day of that month; its number counts the days from the first day
of the year 1.  A moment adds an hour, a minute and a second; its number counts
seconds.
-/

namespace Limestone.Library.Gregorian

/-! ## Lengths -/

/-- Every fourth year, but of the centuries every fourth one. -/
def IsLeap (year : Int) : Prop :=
  year % 4 = 0 ∧ (year % 100 ≠ 0 ∨ year % 400 = 0)

instance decidableIsLeap (year : Int) : Decidable (IsLeap year) :=
  inferInstanceAs (Decidable (_ ∧ _))

/-- Months are counted from zero. -/
def daysInMonth (year : Int) (month : Nat) : Int :=
  if month = 1 then
    if IsLeap year then 29 else 28
  else if month = 3 ∨ month = 5 ∨ month = 8 ∨ month = 10 then 30
  else 31

def daysInYear (year : Int) : Int :=
  if IsLeap year then 366 else 365

/-- The days of the year before a month. -/
def daysBeforeMonth (year : Int) : Nat → Int
  | 0 => 0
  | month + 1 => daysBeforeMonth year month + daysInMonth year month

/-- The days before a year, from the year 1 on. -/
def daysBeforeYear (year : Int) : Int :=
  365 * (year - 1) + (year - 1) / 4 - (year - 1) / 100 + (year - 1) / 400

theorem daysBeforeYear_succ (year : Int) :
    daysBeforeYear (year + 1) = daysBeforeYear year + daysInYear year := by
  unfold daysBeforeYear daysInYear
  split
  · next leap =>
      rcases leap with ⟨fourth, century⟩
      omega
  · next common =>
      rw [IsLeap, not_and_or, not_or, not_not] at common
      omega

/-- The months of a year make up the year. -/
theorem daysBeforeMonth_twelve (year : Int) :
    daysBeforeMonth year 12 = daysInYear year := by
  by_cases leap : IsLeap year
  · simp [daysBeforeMonth, daysInMonth, daysInYear, leap]
  · simp [daysBeforeMonth, daysInMonth, daysInYear, leap]

/-! ## Dates -/

structure Date where
  year : Int
  month : Fin 12
  day : Int
  oneLeDay : 1 ≤ day
  dayLe : day ≤ daysInMonth year month
deriving DecidableEq, Repr

/-- The number of days before a date. -/
def Date.number (date : Date) : Int :=
  daysBeforeYear date.year + daysBeforeMonth date.year date.month +
    (date.day - 1)

/-- The year with a day: an estimate that is at most one year off. -/
def yearOf (days : Int) : Int :=
  let guess := 400 * days / 146097 + 1
  if days < daysBeforeYear guess then guess - 1
  else if daysBeforeYear (guess + 1) ≤ days then guess + 1
  else guess

theorem yearOf_spec (days : Int) :
    daysBeforeYear (yearOf days) ≤ days ∧
      days < daysBeforeYear (yearOf days + 1) := by
  unfold yearOf
  dsimp only
  unfold daysBeforeYear
  split
  · omega
  · split
    · omega
    · omega

/-- The first of some months that a day is not behind, and the days left. -/
def monthFrom (year : Int) : Nat → Nat → Int → Nat × Int
  | 0, month, days => (month, days)
  | later + 1, month, days =>
      if days < daysInMonth year month then (month, days)
      else monthFrom year later (month + 1) (days - daysInMonth year month)

theorem monthFrom_spec
    {year : Int} {later month : Nat} {days : Int}
    (nonnegative : 0 ≤ days)
    (less : daysBeforeMonth year month + days <
      daysBeforeMonth year (month + later + 1)) :
    (monthFrom year later month days).1 ≤ month + later ∧
      0 ≤ (monthFrom year later month days).2 ∧
      (monthFrom year later month days).2 <
        daysInMonth year (monthFrom year later month days).1 ∧
      daysBeforeMonth year (monthFrom year later month days).1 +
          (monthFrom year later month days).2 =
        daysBeforeMonth year month + days := by
  induction later generalizing month days with
  | zero =>
      have next : daysBeforeMonth year (month + 0 + 1) =
          daysBeforeMonth year month + daysInMonth year month := rfl
      rw [monthFrom]
      refine ⟨Nat.le_refl month, nonnegative, ?_, rfl⟩
      show days < daysInMonth year month
      omega
  | succ later induction =>
      rw [monthFrom]
      split
      · next inside =>
          exact ⟨Nat.le_add_right .., nonnegative, inside, rfl⟩
      · next behind =>
          have next : daysBeforeMonth year (month + 1) =
              daysBeforeMonth year month + daysInMonth year month := rfl
          have sameEnd : month + 1 + later + 1 = month + (later + 1) + 1 := by
            omega
          have rest := @induction (month + 1) (days - daysInMonth year month)
            (by omega) (by rw [next, sameEnd]; omega)
          rcases rest with ⟨le, low, high, sum⟩
          refine ⟨?_, low, high, ?_⟩
          · omega
          · rw [sum, next]
            omega

/-- The month of a day of a year, and the days of the month before it. -/
def monthOf (days : Int) : Nat × Int :=
  monthFrom (yearOf days) 11 0 (days - daysBeforeYear (yearOf days))

theorem monthOf_spec (days : Int) :
    (monthOf days).1 < 12 ∧ 0 ≤ (monthOf days).2 ∧
      (monthOf days).2 < daysInMonth (yearOf days) (monthOf days).1 ∧
      daysBeforeMonth (yearOf days) (monthOf days).1 + (monthOf days).2 =
        days - daysBeforeYear (yearOf days) := by
  rcases yearOf_spec days with ⟨first, last⟩
  rw [daysBeforeYear_succ] at last
  have whole : daysBeforeMonth (yearOf days) (0 + 11 + 1) =
      daysInYear (yearOf days) :=
    daysBeforeMonth_twelve (yearOf days)
  have start : daysBeforeMonth (yearOf days) 0 = 0 := rfl
  have found := @monthFrom_spec (yearOf days) 11 0
    (days - daysBeforeYear (yearOf days)) (by omega)
    (by rw [whole, start]; omega)
  rcases found with ⟨le, low, high, sum⟩
  rw [start, Int.zero_add] at sum
  exact ⟨Nat.lt_succ_of_le le, low, high, sum⟩

/-- The date with so many days before it. -/
def Date.ofNumber (days : Int) : Date where
  year := yearOf days
  month := ⟨(monthOf days).1, (monthOf_spec days).1⟩
  day := (monthOf days).2 + 1
  oneLeDay := by
    have low := (monthOf_spec days).2.1
    omega
  dayLe := (monthOf_spec days).2.2.1

theorem Date.number_ofNumber (days : Int) :
    (Date.ofNumber days).number = days := by
  have sum := (monthOf_spec days).2.2.2
  show daysBeforeYear (yearOf days) +
    daysBeforeMonth (yearOf days) (monthOf days).1 +
      ((monthOf days).2 + 1 - 1) = days
  omega

/-! ## Moments -/

/-- A second of a day. -/
structure Moment where
  date : Date
  hour : Int
  minute : Int
  second : Int
  isHour : 0 ≤ hour ∧ hour < 24
  isMinute : 0 ≤ minute ∧ minute < 60
  isSecond : 0 ≤ second ∧ second < 60
deriving DecidableEq, Repr

/-- The number of seconds before a moment. -/
def Moment.number (moment : Moment) : Int :=
  ((moment.date.number * 24 + moment.hour) * 60 + moment.minute) * 60 +
    moment.second

/-- The moment with so many seconds before it. -/
def Moment.ofNumber (seconds : Int) : Moment where
  date := Date.ofNumber (seconds / 86400)
  hour := seconds / 3600 % 24
  minute := seconds / 60 % 60
  second := seconds % 60
  isHour := by omega
  isMinute := by omega
  isSecond := by omega

theorem Moment.number_ofNumber (seconds : Int) :
    (Moment.ofNumber seconds).number = seconds := by
  show (((Date.ofNumber (seconds / 86400)).number * 24 +
    seconds / 3600 % 24) * 60 + seconds / 60 % 60) * 60 + seconds % 60 =
      seconds
  rw [Date.number_ofNumber]
  omega

/-- The moment with given fields, if there is one. -/
def Moment.ofFields (year month day hour minute second : Int) :
    Option Moment :=
  if isMonth : 0 ≤ month ∧ month < 12 then
    if isDay : 1 ≤ day ∧ day ≤ daysInMonth year month.toNat then
      if isHour : 0 ≤ hour ∧ hour < 24 then
        if isMinute : 0 ≤ minute ∧ minute < 60 then
          if isSecond : 0 ≤ second ∧ second < 60 then
            some
              { date :=
                  { year := year
                    month := ⟨month.toNat, by omega⟩
                    day := day
                    oneLeDay := isDay.1
                    dayLe := isDay.2 }
                hour := hour
                minute := minute
                second := second
                isHour := isHour
                isMinute := isMinute
                isSecond := isSecond }
          else none
        else none
      else none
    else none
  else none

theorem Moment.ofFields_eq (moment : Moment) :
    Moment.ofFields moment.date.year (moment.date.month.val : Int)
        moment.date.day moment.hour moment.minute moment.second =
      some moment := by
  have isMonth : 0 ≤ (moment.date.month.val : Int) ∧
      (moment.date.month.val : Int) < 12 := by
    have less := moment.date.month.isLt
    omega
  rw [Moment.ofFields, dif_pos isMonth,
    dif_pos ⟨moment.date.oneLeDay, moment.date.dayLe⟩, dif_pos moment.isHour,
    dif_pos moment.isMinute, dif_pos moment.isSecond]
  rfl

end Limestone.Library.Gregorian
