import Limestone.Library.Gregorian
import Limestone.Schema
import Mathlib.Data.List.DropRight

/-!
# The times of locks: `time_ansi_to_datetime`, `time_datetime_to_ansi`

The end of a lock is stored as a text with a date and a time of day in GMT.  A
lock without an end has the time zero in memory and the text `INF_TIME_STR` in
the table, which is the text of a second in the year 9999 as well.
-/

namespace Limestone.LockTimes

open Library
open Library.Gregorian

/-! ## Functions of the portable runtime -/

/-- `apr_time_exp_t`: years count from 1900 and months from zero. -/
structure AprTimeExp where
  tmUsec : Int
  tmSec : Int
  tmMin : Int
  tmHour : Int
  tmMday : Int
  tmMon : Int
  tmYear : Int
deriving DecidableEq, Repr

/-- `APR_USEC_PER_SEC`. -/
def aprUsecPerSec : Int := 1000000

/-- The number of the first second of 1970. -/
def epoch : Int := 62135596800

/-- The moment of a `time_t`. -/
def momentOf (ansiTime : Int) : Moment :=
  Moment.ofNumber (ansiTime + epoch)

/-- `apr_time_ansi_put`: an `apr_time_t` has 64 bits. -/
def aprTimeAnsiPut (ansiTime : Int) : Int :=
  Int.bmod (ansiTime * aprUsecPerSec) (2 ^ 64)

/-- `apr_time_sec`. -/
def aprTimeSec (aprTime : Int) : Int :=
  aprTime.tdiv aprUsecPerSec

/-- `apr_time_exp_gmt`. -/
def aprTimeExpGmt (aprTime : Int) : AprTimeExp :=
  let moment := momentOf (aprTime / aprUsecPerSec)
  { tmUsec := aprTime % aprUsecPerSec
    tmSec := moment.second
    tmMin := moment.minute
    tmHour := moment.hour
    tmMday := moment.date.day
    tmMon := moment.date.month.val
    tmYear := moment.date.year - 1900 }

/-- `apr_time_exp_get`; there is no result for what is no moment. -/
def aprTimeExpGet (tx : AprTimeExp) : Option Int :=
  (Moment.ofFields (tx.tmYear + 1900) tx.tmMon tx.tmMday tx.tmHour tx.tmMin
    tx.tmSec).map fun moment =>
      (moment.number - epoch) * aprUsecPerSec + tx.tmUsec

/-- A number with at least two digits. -/
def twoDigits (value : Int) : Text :=
  if 0 ≤ value ∧ value < 10 then '0' :: (toString value).toList
  else (toString value).toList

/-- `%Y-%m-%d %X`, where `%X` is `%H:%M:%S` in the C locale. -/
def datetimeText (tx : AprTimeExp) : Text :=
  (toString (tx.tmYear + 1900)).toList ++
    '-' :: (twoDigits (tx.tmMon + 1) ++
    '-' :: (twoDigits tx.tmMday ++
    ' ' :: (twoDigits tx.tmHour ++
    ':' :: (twoDigits tx.tmMin ++
    ':' :: (twoDigits tx.tmSec ++ [])))))

/-- `apr_strftime`; there is no text if it does not fit. -/
def aprStrftime (max : Nat) (tx : AprTimeExp) : Option Text :=
  if (datetimeText tx).length < max then some (datetimeText tx) else none

/-- A part of a format of `sscanf`. -/
inductive Directive where
  | number
  | char (char : Char)
  | blank
deriving DecidableEq, Repr

/-- `isspace` in the C locale. -/
def isSpace (char : Char) : Bool :=
  char == ' ' || char == '\t' || char == '\n' || char == '\x0b' ||
    char == '\x0c' || char == '\r'

/-- `%d`: the number at the front, and the text behind it. -/
def scanNumber (text : Text) : Option (Int × Text) :=
  let signed := text.dropWhile isSpace
  let digits :=
    if signed.head? = some '-' ∨ signed.head? = some '+' then signed.tail
    else signed
  let value : Int := Nat.ofDigitChars 10 (digits.takeWhile Char.isDigit) 0
  if digits.takeWhile Char.isDigit = [] then none
  else
    some (if signed.head? = some '-' then -value else value,
      digits.dropWhile Char.isDigit)

/-- `sscanf`: the numbers that are assigned before the text does not match. -/
def sscanf : List Directive → Text → List Int
  | [], _ => []
  | .number :: format, text =>
      match scanNumber text with
      | none => []
      | some (value, rest) => value :: sscanf format rest
  | .char char :: format, text =>
      match text with
      | [] => []
      | head :: rest => if head = char then sscanf format rest else []
  | .blank :: format, text => sscanf format (text.dropWhile isSpace)

/-! ## The functions -/

/-- `INF_TIME_STR`. -/
def infTimeStr : Text := "9999-12-31 00:00:00".toList

/-- `APR_RFC822_DATE_LEN`. -/
def aprRfc822DateLen : Nat := 30

/-- `dav_repos_format_time`. -/
def davReposFormatTime (t : Int) : Option Text :=
  if t = 0 then some infTimeStr
  else aprStrftime aprRfc822DateLen (aprTimeExpGmt t)

/-- `"%d-%d-%d %d:%d:%d"`. -/
def datetimeFormat : List Directive :=
  [.number, .char '-', .number, .char '-', .number, .blank, .number,
    .char ':', .number, .char ':', .number]

/-- The fields of a text; those that are not assigned are zero. -/
def scannedTime (t : Text) : AprTimeExp :=
  let fields := sscanf datetimeFormat t
  { tmUsec := 0
    tmSec := fields.getD 5 0
    tmMin := fields.getD 4 0
    tmHour := fields.getD 3 0
    tmMday := fields.getD 2 0
    tmMon := fields.getD 1 0 - 1
    tmYear := fields.getD 0 0 - 1900 }

/-- `dav_repos_parse_time`. -/
def davReposParseTime (t : Text) : Option Int :=
  if t = infTimeStr then some 0 else aprTimeExpGet (scannedTime t)

/-- `time_datetime_to_ansi`. -/
def timeDatetimeToAnsi (datetime : Text) : Option Int :=
  (davReposParseTime datetime).map aprTimeSec

/-- `time_ansi_to_datetime`. -/
def timeAnsiToDatetime (ansiTime : Int) : Option Text :=
  davReposFormatTime (aprTimeAnsiPut ansiTime)

/-! ## Reading what was written -/

theorem takeWhile_digits
    {digits rest : Text}
    (areDigits : ∀ char ∈ digits, char.isDigit = true)
    (ends : ∀ char ∈ rest.head?, char.isDigit = false) :
    (digits ++ rest).takeWhile Char.isDigit = digits ∧
      (digits ++ rest).dropWhile Char.isDigit = rest := by
  induction digits with
  | nil =>
      cases rest with
      | nil => exact ⟨rfl, rfl⟩
      | cons char rest =>
          have other : char.isDigit = false := ends char rfl
          simp [other]
  | cons char digits induction =>
      rw [List.forall_mem_cons] at areDigits
      rcases induction areDigits.2 with ⟨taken, dropped⟩
      constructor
      · rw [List.cons_append, List.takeWhile_cons_of_pos areDigits.1, taken]
      · rw [List.cons_append, List.dropWhile_cons_of_pos areDigits.1, dropped]

/-- A digit is no blank and no sign. -/
theorem digit_cases
    {char : Char}
    (digit : char.isDigit = true) :
    ¬ isSpace char = true ∧ char ≠ '-' ∧ char ≠ '+' := by
  refine ⟨?_, ?_, ?_⟩
  · intro blank
    simp only [isSpace, Bool.or_eq_true, beq_iff_eq] at blank
    rcases blank with ((((rfl | rfl) | rfl) | rfl) | rfl) | rfl
    all_goals cases digit
  · rintro rfl
    cases digit
  · rintro rfl
    cases digit

/-- Digits are read up to the first character that is none. -/
theorem scanNumber_digits
    {digits rest : Text}
    (nonempty : digits ≠ [])
    (areDigits : ∀ char ∈ digits, char.isDigit = true)
    (ends : ∀ char ∈ rest.head?, char.isDigit = false) :
    scanNumber (digits ++ rest) =
      some (((Nat.ofDigitChars 10 digits 0 : Nat) : Int), rest) := by
  rcases takeWhile_digits areDigits ends with ⟨taken, dropped⟩
  cases digits with
  | nil => exact (nonempty rfl).elim
  | cons first others =>
      rcases digit_cases (areDigits first List.mem_cons_self) with
        ⟨noBlank, noMinus, noPlus⟩
      have stripped : (first :: others ++ rest).dropWhile isSpace =
          first :: others ++ rest :=
        List.dropWhile_cons_of_neg noBlank
      have minus : ¬ (first :: others ++ rest).head? = some '-' :=
        fun same => noMinus (Option.some.inj same)
      have plus : ¬ (first :: others ++ rest).head? = some '+' :=
        fun same => noPlus (Option.some.inj same)
      unfold scanNumber
      dsimp only
      rw [stripped, if_neg (not_or.mpr ⟨minus, plus⟩), taken, dropped,
        if_neg nonempty, if_neg minus]

theorem scanNumber_toString
    {value : Int} {rest : Text}
    (nonnegative : 0 ≤ value)
    (ends : ∀ char ∈ rest.head?, char.isDigit = false) :
    scanNumber ((toString value).toList ++ rest) = some (value, rest) := by
  rcases SqlText.toString_cases value with
    ⟨number, rfl, text⟩ | ⟨number, rfl, text⟩
  · rw [text, scanNumber_digits Nat.toDigits_ne_nil
      (fun _ => SqlText.isDigit_of_mem_toDigits) ends,
      Nat.ofDigitChars_ten_toDigits]
    rfl
  · exact ((Int.negSucc_not_nonneg number).mp nonnegative).elim

/-- A zero in front does not change a number. -/
theorem scanNumber_twoDigits
    {value : Int} {rest : Text}
    (nonnegative : 0 ≤ value)
    (ends : ∀ char ∈ rest.head?, char.isDigit = false) :
    scanNumber (twoDigits value ++ rest) = some (value, rest) := by
  rw [twoDigits]
  split
  · rcases SqlText.toString_cases value with
      ⟨number, rfl, text⟩ | ⟨number, rfl, text⟩
    · have areDigits : ∀ char ∈ '0' :: Nat.toDigits 10 number,
          char.isDigit = true := by
        rw [List.forall_mem_cons]
        exact ⟨rfl, fun _ => SqlText.isDigit_of_mem_toDigits⟩
      rw [text, scanNumber_digits (List.cons_ne_nil _ _) areDigits ends,
        Nat.ofDigitChars_cons]
      show some (((Nat.ofDigitChars 10 (Nat.toDigits 10 number) 0 : Nat) : Int),
        rest) = _
      rw [Nat.ofDigitChars_ten_toDigits]
      rfl
    · exact ((Int.negSucc_not_nonneg number).mp nonnegative).elim
  · exact scanNumber_toString nonnegative ends

theorem sscanf_number
    {text rest : Text} {value : Int} {format : List Directive}
    (found : scanNumber text = some (value, rest)) :
    sscanf (.number :: format) text = value :: sscanf format rest := by
  rw [sscanf, found]

theorem sscanf_char {char : Char} {rest : Text} {format : List Directive} :
    sscanf (.char char :: format) (char :: rest) = sscanf format rest := by
  rw [sscanf]
  exact if_pos rfl

/-- The blank of the format is the one before the hour. -/
theorem sscanf_blank
    {value : Int} {rest : Text} {format : List Directive}
    (nonnegative : 0 ≤ value)
    (ends : ∀ char ∈ rest.head?, char.isDigit = false) :
    sscanf (.blank :: .number :: format)
        (' ' :: (twoDigits value ++ rest)) =
      value :: sscanf format rest := by
  have found := scanNumber_twoDigits nonnegative ends
  have stripped : scanNumber ((' ' :: (twoDigits value ++ rest)).dropWhile
      isSpace) = scanNumber (twoDigits value ++ rest) := by
    have skips : (' ' :: (twoDigits value ++ rest)).dropWhile
        isSpace = (twoDigits value ++ rest).dropWhile
          isSpace :=
      List.dropWhile_cons_of_pos rfl
    rw [skips]
    unfold scanNumber
    rw [List.dropWhile_idempotent]
  rw [sscanf]
  exact sscanf_number (stripped.trans found)

/-- The fields of a text are those that it was made of. -/
theorem sscanf_datetimeText
    {tx : AprTimeExp}
    (year : 0 ≤ tx.tmYear + 1900)
    (mon : 0 ≤ tx.tmMon + 1)
    (mday : 0 ≤ tx.tmMday)
    (hour : 0 ≤ tx.tmHour)
    (min : 0 ≤ tx.tmMin)
    (sec : 0 ≤ tx.tmSec) :
    sscanf datetimeFormat (datetimeText tx) =
      [tx.tmYear + 1900, tx.tmMon + 1, tx.tmMday, tx.tmHour, tx.tmMin,
        tx.tmSec] := by
  have next : ∀ {next : Char} {rest : Text}, next.isDigit = false →
      ∀ char ∈ (next :: rest).head?, char.isDigit = false := by
    intro next rest other char same
    rw [← Option.mem_some_iff.mp same]
    exact other
  have last : ∀ char ∈ ([] : Text).head?, char.isDigit = false := by
    intro char absent
    cases absent
  rw [datetimeFormat, datetimeText,
    sscanf_number (scanNumber_toString year (next rfl)), sscanf_char,
    sscanf_number (scanNumber_twoDigits mon (next rfl)), sscanf_char,
    sscanf_number (scanNumber_twoDigits mday (next rfl)),
    sscanf_blank hour (next rfl), sscanf_char,
    sscanf_number (scanNumber_twoDigits min (next rfl)), sscanf_char,
    sscanf_number (scanNumber_twoDigits sec last), sscanf]

theorem length_twoDigits
    {value : Int}
    (nonnegative : 0 ≤ value)
    (small : value < 100) :
    (twoDigits value).length ≤ 2 := by
  rcases SqlText.toString_cases value with
    ⟨number, rfl, text⟩ | ⟨number, rfl, text⟩
  · rw [twoDigits, text]
    split
    · next oneDigit =>
        have less : number < 10 ^ 1 := Int.ofNat_lt.mp oneDigit.2
        exact Nat.succ_le_succ
          ((Nat.length_toDigits_le_iff (by decide) (by decide)).mpr less)
    · have less : number < 10 ^ 2 := Int.ofNat_lt.mp small
      exact (Nat.length_toDigits_le_iff (by decide) (by decide)).mpr less
  · exact ((Int.negSucc_not_nonneg number).mp nonnegative).elim

/-- Four digits for the year and two for the others fit. -/
theorem aprStrftime_eq
    {tx : AprTimeExp}
    (year : 0 ≤ tx.tmYear + 1900 ∧ tx.tmYear + 1900 < 10000)
    (mon : 0 ≤ tx.tmMon + 1 ∧ tx.tmMon + 1 < 100)
    (mday : 0 ≤ tx.tmMday ∧ tx.tmMday < 100)
    (hour : 0 ≤ tx.tmHour ∧ tx.tmHour < 100)
    (min : 0 ≤ tx.tmMin ∧ tx.tmMin < 100)
    (sec : 0 ≤ tx.tmSec ∧ tx.tmSec < 100) :
    aprStrftime aprRfc822DateLen tx = some (datetimeText tx) := by
  have yearLength : (toString (tx.tmYear + 1900)).toList.length ≤ 4 := by
    rcases SqlText.toString_cases (tx.tmYear + 1900) with
      ⟨number, same, text⟩ | ⟨number, same, text⟩
    · rw [same] at year
      have less : number < 10 ^ 4 := Int.ofNat_lt.mp year.2
      rw [text]
      exact (Nat.length_toDigits_le_iff (by decide) (by decide)).mpr less
    · rw [same] at year
      exact ((Int.negSucc_not_nonneg number).mp year.1).elim
  have monLength := length_twoDigits mon.1 mon.2
  have mdayLength := length_twoDigits mday.1 mday.2
  have hourLength := length_twoDigits hour.1 hour.2
  have minLength := length_twoDigits min.1 min.2
  have secLength := length_twoDigits sec.1 sec.2
  have fits : (datetimeText tx).length < aprRfc822DateLen := by
    simp only [datetimeText, List.length_append, List.length_cons,
      List.length_nil, aprRfc822DateLen]
    omega
  rw [aprStrftime, if_pos fits]

/-! ## Every time but one comes back -/

/-- The year of a time. -/
def yearOfTime (ansiTime : Int) : Int :=
  (momentOf ansiTime).date.year

/-- The time whose text is `INF_TIME_STR`. -/
def reservedTime : Int := 253402214400

/--
A time is read back from its text, and the text is that of no timeout for zero
only.
-/
structure RoundTrips (ansiTime : Int) : Prop where
  readsBack : (timeAnsiToDatetime ansiTime).bind timeDatetimeToAnsi =
    some ansiTime
  infinite : timeAnsiToDatetime ansiTime = some infTimeStr ↔ ansiTime = 0

section Times

variable {ansiTime : Int}

/-- The times of four-digit years. -/
theorem lt_of_yearOfTime
    (year : yearOfTime ansiTime ≤ 9999) :
    ansiTime < 253402300800 := by
  have bound := (yearOf_spec ((ansiTime + epoch) / 86400)).2
  have same : yearOf ((ansiTime + epoch) / 86400) = yearOfTime ansiTime := rfl
  rw [same] at bound
  unfold daysBeforeYear epoch at bound
  omega

theorem yearOfTime_nonneg
    (nonnegative : 0 ≤ ansiTime) :
    0 ≤ yearOfTime ansiTime := by
  have bound := (yearOf_spec ((ansiTime + epoch) / 86400)).2
  have same : yearOf ((ansiTime + epoch) / 86400) = yearOfTime ansiTime := rfl
  rw [same] at bound
  unfold daysBeforeYear epoch at bound
  omega

/-- No time of these years is too long for an `apr_time_t`. -/
theorem aprTimeAnsiPut_eq
    (nonnegative : 0 ≤ ansiTime)
    (year : yearOfTime ansiTime ≤ 9999) :
    aprTimeAnsiPut ansiTime = ansiTime * aprUsecPerSec := by
  have less := lt_of_yearOfTime year
  have width : ((2 ^ 64 : Nat) : Int) = 18446744073709551616 := rfl
  apply Int.bmod_eq_of_le_mul_two
  · rw [width, aprUsecPerSec]
    omega
  · rw [width, aprUsecPerSec]
    omega

theorem aprTimeExpGmt_eq (ansiTime : Int) :
    aprTimeExpGmt (ansiTime * aprUsecPerSec) =
      { tmUsec := 0
        tmSec := (momentOf ansiTime).second
        tmMin := (momentOf ansiTime).minute
        tmHour := (momentOf ansiTime).hour
        tmMday := (momentOf ansiTime).date.day
        tmMon := (momentOf ansiTime).date.month.val
        tmYear := yearOfTime ansiTime - 1900 } := by
  have positive : aprUsecPerSec ≠ 0 := by decide
  rw [aprTimeExpGmt, Int.mul_ediv_cancel _ positive, Int.mul_emod_left]
  rfl

/-- The fields of a time are those of a date in four digits for the year. -/
theorem formatted
    (nonnegative : 0 ≤ ansiTime)
    (year : yearOfTime ansiTime ≤ 9999) :
    aprStrftime aprRfc822DateLen (aprTimeExpGmt (ansiTime * aprUsecPerSec)) =
        some (datetimeText (aprTimeExpGmt (ansiTime * aprUsecPerSec))) ∧
      scannedTime (datetimeText (aprTimeExpGmt (ansiTime * aprUsecPerSec))) =
        aprTimeExpGmt (ansiTime * aprUsecPerSec) := by
  have fourDigits := yearOfTime_nonneg nonnegative
  have month := (momentOf ansiTime).date.month.isLt
  have firstDay := (momentOf ansiTime).date.oneLeDay
  have lastDay : (momentOf ansiTime).date.day ≤ 31 := by
    have le := (momentOf ansiTime).date.dayLe
    unfold daysInMonth at le
    repeat' split at le
    all_goals omega
  have hour := (momentOf ansiTime).isHour
  have minute := (momentOf ansiTime).isMinute
  have second := (momentOf ansiTime).isSecond
  rw [aprTimeExpGmt_eq]
  constructor
  · apply aprStrftime_eq
    all_goals
      dsimp only
      omega
  · rw [scannedTime, sscanf_datetimeText]
    · show AprTimeExp.mk 0 _ _ _ _ (_ + 1 - 1) (_ - 1900 + 1900 - 1900) = _
      rw [Int.add_sub_cancel, Int.sub_add_cancel]
      rfl
    all_goals
      dsimp only
      omega

/-- The conversions of the runtime are inverse. -/
theorem aprTimeExpGet_aprTimeExpGmt (ansiTime : Int) :
    aprTimeExpGet (aprTimeExpGmt (ansiTime * aprUsecPerSec)) =
      some (ansiTime * aprUsecPerSec) := by
  rw [aprTimeExpGmt_eq, aprTimeExpGet]
  dsimp only
  rw [Int.sub_add_cancel]
  have fields := Moment.ofFields_eq (momentOf ansiTime)
  have number : (momentOf ansiTime).number = ansiTime + epoch :=
    Moment.number_ofNumber _
  rw [yearOfTime, fields, Option.map_some, number, Int.add_sub_cancel,
    Int.add_zero]

/-- The last day of the year 9999 begins with the reserved text. -/
theorem timeAnsiToDatetime_reservedTime :
    timeAnsiToDatetime reservedTime = some infTimeStr := by
  decide

theorem aprTimeExpGet_infTimeStr :
    aprTimeExpGet (scannedTime infTimeStr) =
      some (reservedTime * aprUsecPerSec) := by
  decide

/-- Only the reserved time has the reserved text. -/
theorem eq_reservedTime
    (nonnegative : 0 ≤ ansiTime)
    (year : yearOfTime ansiTime ≤ 9999)
    (same : datetimeText (aprTimeExpGmt (ansiTime * aprUsecPerSec)) =
      infTimeStr) :
    ansiTime = reservedTime := by
  have scanned := (formatted nonnegative year).2
  have read := aprTimeExpGet_aprTimeExpGmt ansiTime
  rw [← scanned, same, aprTimeExpGet_infTimeStr] at read
  have positive : aprUsecPerSec ≠ 0 := by decide
  exact (Int.eq_of_mul_eq_mul_right positive (Option.some.inj read)).symm

/--
A time from 1970 to 9999 comes back from its text, and its text tells whether
it is zero, unless it is the time whose text is reserved.
-/
theorem roundTrips_iff
    (nonnegative : 0 ≤ ansiTime)
    (year : yearOfTime ansiTime ≤ 9999) :
    RoundTrips ansiTime ↔ ansiTime ≠ reservedTime := by
  constructor
  · rintro roundTrips rfl
    have zero := roundTrips.infinite.mp timeAnsiToDatetime_reservedTime
    exact absurd zero (by decide)
  · intro unreserved
    by_cases zero : ansiTime = 0
    · subst zero
      exact ⟨by decide, iff_of_true (by decide) rfl⟩
    · have positive : aprUsecPerSec ≠ 0 := by decide
      have other : ansiTime * aprUsecPerSec ≠ 0 :=
        Int.mul_ne_zero zero positive
      rcases formatted nonnegative year with ⟨text, scanned⟩
      have written : timeAnsiToDatetime ansiTime =
          some (datetimeText (aprTimeExpGmt (ansiTime * aprUsecPerSec))) := by
        rw [timeAnsiToDatetime, aprTimeAnsiPut_eq nonnegative year,
          davReposFormatTime, if_neg other, text]
      have distinct : datetimeText
          (aprTimeExpGmt (ansiTime * aprUsecPerSec)) ≠ infTimeStr :=
        fun same => unreserved (eq_reservedTime nonnegative year same)
      constructor
      · rw [written, Option.bind_some, timeDatetimeToAnsi, davReposParseTime,
          if_neg distinct, scanned, aprTimeExpGet_aprTimeExpGmt,
          Option.map_some, aprTimeSec, Int.mul_tdiv_cancel _ positive]
      · rw [written]
        exact iff_of_false (fun same => distinct (Option.some.inj same)) zero

end Times

/-- The first second of the year 2000. -/
theorem roundTrips_example : RoundTrips 946684800 :=
  (roundTrips_iff (by decide) (by decide)).mpr (by decide)

/-- A lock until the last day of the year 9999 never ends. -/
theorem not_forall_roundTrips :
    ¬ ∀ ansiTime : Int, 0 ≤ ansiTime → yearOfTime ansiTime ≤ 9999 →
      RoundTrips ansiTime := by
  intro roundTrips
  have infinite := (roundTrips reservedTime (by decide) (by decide)).infinite
  have zero := infinite.mp timeAnsiToDatetime_reservedTime
  exact absurd zero (by decide)

end Limestone.LockTimes
