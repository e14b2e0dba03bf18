import Limestone.Schema
import Mathlib.Data.List.TakeWhile

/-!
# Log records: `plog.pl`

The values of a record are put into an array by the index of their field, and
the array is written to the database at the empty line behind the record.  It
is filled with empty values behind each record, but not before the first one.
-/

namespace Limestone.Plog

/-! ## Arrays -/

/-- An array of strings; `none` is undef. -/
abbrev PerlArray := List (Option Text)

/-- An assignment to an element; an array that is too short grows. -/
def assign (vals : PerlArray) (index : Nat) (value : Option Text) :
    PerlArray :=
  if index < vals.length then vals.set index value
  else vals ++ List.replicate (index - vals.length) none ++ [value]

/-- An element, which is undef behind the end. -/
def element (vals : PerlArray) (index : Nat) : Option Text :=
  vals[index]?.join

/-- undef is compared like the empty string. -/
def string (value : Option Text) : Text :=
  value.getD []

/-! ## The program -/

/-- `@fieldnames`. -/
def fieldnames : List Text :=
  ["log_version", "http_version", "remote_ip", "request_id", "request_method",
    "request_uri", "request_referer", "virtual_host", "destination_uri",
    "received_time", "response_microseconds", "request_firstline",
    "response_status", "resource_uuid", "response_size", "auth_user",
    "user_agent"].map String.toList

def remoteIp : Text := "remote_ip".toList
def requestMethod : Text := "request_method".toList
def responseSize : Text := "response_size".toList

/-- `%validfields`, for a name that is in it. -/
def validfields (name : Text) : Nat :=
  fieldnames.idxOf name

/-- The captures of `m/^([^:]+):([\s\S]*)$/`. -/
def matchField (line : Text) : Option (Text × Text) :=
  match line.takeWhile (· != ':'), line.dropWhile (· != ':') with
  | char :: name, _ :: value => some (char :: name, value)
  | _, _ => none

/--
A line that is not empty.  The captures of a line that does not match are those
from outside of the block, where nothing was captured.
-/
def readLine (vals : PerlArray) (line : Text) : PerlArray :=
  match matchField line with
  | some (name, value) =>
      if name ∈ fieldnames then assign vals (validfields name) (some value)
      else vals
  | none => vals

/-- `filter_out_gratuitous_logs`. -/
def filterOutGratuitousLogs (filteredIps : List Text) (vals : PerlArray) :
    Bool :=
  filteredIps.any
      (fun ip => ip == string (element vals (validfields remoteIp))) &&
    (string (element vals (validfields requestMethod)) == "OPTIONS".toList ||
      string (element vals (validfields requestMethod)) == "PROPFIND".toList)

/-- A dash for the size is turned into NULL. -/
def nullSize (vals : PerlArray) : PerlArray :=
  if element vals (validfields responseSize) = some ['-'] then
    assign vals (validfields responseSize) none
  else vals

/-- Whether `$sth` is there, and how often it was executed. -/
structure Connection where
  sth : Bool
  calls : Nat
deriving DecidableEq, Repr

/--
The two tries of `insert_vals`; `none` is the end of the program.  What comes
of an execution is up to the database.
-/
def insertVals (execute : Nat → PerlArray → Bool) (connection : Connection)
    (row : PerlArray) : Option Connection :=
  if connection.sth && execute connection.calls row then
    some { connection with calls := connection.calls + 1 }
  else
    let calls :=
      if connection.sth then connection.calls + 1 else connection.calls
    if execute calls row then some ⟨true, calls + 1⟩ else none

/-- What is done with a record. -/
inductive Outcome where
  | dropped
  | inserted (row : PerlArray)
deriving DecidableEq, Repr

/-- What `@vals` is set to behind a record. -/
def emptyVals : PerlArray :=
  fieldnames.map fun _ => some []

section Program

variable (filteredIps : List Text) (execute : Nat → PerlArray → Bool)

/-- The main loop: what it does with the records. -/
def mainLoop : List Text → PerlArray → Connection → List Outcome
  | [], _, _ => []
  | [] :: lines, vals, connection =>
      if filterOutGratuitousLogs filteredIps vals then
        .dropped :: mainLoop lines emptyVals connection
      else
        .inserted (nullSize vals) ::
          match insertVals execute connection (nullSize vals) with
          | some connection => mainLoop lines emptyVals connection
          | none => []
  | (char :: line) :: lines, vals, connection =>
      mainLoop lines (readLine vals (char :: line)) connection

def plog (lines : List Text) : List Outcome :=
  mainLoop filteredIps execute lines [] ⟨false, 0⟩

end Program

/-! ## Records -/

/-- A line of a record. -/
structure Field where
  name : Text
  value : Text
  filled : name ≠ []
  noColon : ':' ∉ name
deriving Repr

def Field.line (field : Field) : Text :=
  field.name ++ ':' :: field.value

abbrev Record := List Field

/-- The lines of a record and the empty one. -/
def linesOf (record : Record) : List Text :=
  record.map Field.line ++ [[]]

/-- The value that is given, in the last line if there are several. -/
def given (record : Record) (name : Text) : Option Text :=
  (record.reverse.find? fun field => field.name == name).map Field.value

/-- The given value or the empty one. -/
def valueOf (record : Record) (name : Text) : Text :=
  (given record name).getD []

/-- What is to be in a column. -/
def columnOf (record : Record) (name : Text) : Option Text :=
  if name = responseSize ∧ valueOf record name = ['-'] then none
  else some (valueOf record name)

def isDropped (filteredIps : List Text) (record : Record) : Bool :=
  decide (valueOf record remoteIp ∈ filteredIps) &&
    (valueOf record requestMethod == "OPTIONS".toList ||
      valueOf record requestMethod == "PROPFIND".toList)

/-- What is to be done with a record, from the record alone. -/
def outcomeOf (filteredIps : List Text) (record : Record) : Outcome :=
  if isDropped filteredIps record then .dropped
  else .inserted (fieldnames.map (columnOf record))

/--
What is done with the records, up to the last one that the database lets the
program come to, is what is to be done with each of them.
-/
structure Independent (filteredIps : List Text)
    (execute : Nat → PerlArray → Bool) (records : List Record) : Prop where
  each : plog filteredIps execute (records.flatMap linesOf) <+:
    records.map (outcomeOf filteredIps)
  all : (∀ calls row, execute calls row = true) →
    (plog filteredIps execute (records.flatMap linesOf)).length =
      records.length

/-- The first record is dropped, or it gives a value for every field. -/
def IsFirstFull (filteredIps : List Text) (records : List Record) : Prop :=
  ∀ first ∈ records.head?, isDropped filteredIps first = true ∨
    ∀ name ∈ fieldnames, (given first name).isSome

/-! ## Lemmas about arrays -/

section Arrays

variable {vals : PerlArray} {index other : Nat} {value : Option Text}

theorem element_assign :
    element (assign vals index value) other =
      if other = index then value else element vals other := by
  rw [assign, element, element]
  by_cases inside : index < vals.length
  · rw [if_pos inside, List.getElem?_set]
    by_cases same : index = other
    · rw [if_pos same, if_pos inside, if_pos same.symm]
      rfl
    · rw [if_neg same, if_neg (Ne.symm same)]
  · rw [if_neg inside, List.append_assoc]
    by_cases before : other < vals.length
    · rw [List.getElem?_append_left before, if_neg (by omega)]
    · rw [List.getElem?_append_right (by omega), List.getElem?_append,
        List.getElem?_replicate, List.length_replicate,
        List.getElem?_eq_none (Nat.le_of_not_lt before)]
      by_cases gap : other < index
      · rw [if_pos (by omega), if_pos (by omega), if_neg (by omega)]
        rfl
      · rw [if_neg (by omega)]
        by_cases same : other = index
        · rw [if_pos same, same, Nat.sub_self]
          rfl
        · rw [if_neg same, List.getElem?_eq_none]
          rw [List.length_singleton]
          omega

theorem length_assign :
    (assign vals index value).length = max vals.length (index + 1) := by
  rw [assign]
  split
  next inside =>
      rw [List.length_set]
      omega
  next outside =>
      simp only [List.length_append, List.length_replicate,
        List.length_singleton]
      omega

end Arrays

/-! ## What the array holds -/

section Shows

variable {vals : PerlArray} {g : Text → Option Text} {name : Text}
  {field : Field} {record : Record}

theorem nodup_fieldnames : fieldnames.Nodup := by
  decide

/-- The array holds a value for each field, and no more. -/
structure Shows (vals : PerlArray) (g : Text → Option Text) : Prop where
  values : ∀ name ∈ fieldnames, element vals (validfields name) = g name
  width : vals.length ≤ fieldnames.length

theorem validfields_lt (known : name ∈ fieldnames) :
    validfields name < fieldnames.length :=
  List.idxOf_lt_length_of_mem known

theorem Shows.full
    {f : Text → Text}
    (shows_ : Shows vals fun name => some (f name)) :
    fieldnames.length ≤ vals.length := by
  by_contra short
  have last := shows_.values "user_agent".toList (by decide)
  have index : validfields "user_agent".toList = 16 := by
    decide
  have width : fieldnames.length = 17 :=
    rfl
  rw [index, element, List.getElem?_eq_none (by omega)] at last
  cases last

/-- A full array is the list of the values. -/
theorem Shows.eq_map
    (shows_ : Shows vals g)
    (full : vals.length = fieldnames.length) :
    vals = fieldnames.map g := by
  apply List.ext_getElem
  · rw [List.length_map, full]
  · intro index here _
    have inside : index < fieldnames.length := full ▸ here
    have value := shows_.values fieldnames[index] (List.getElem_mem inside)
    have found : validfields fieldnames[index] = index :=
      nodup_fieldnames.idxOf_getElem index inside
    rw [found, element, List.getElem?_eq_getElem here] at value
    rw [List.getElem_map]
    exact value

theorem shows_nil : Shows [] fun _ => none where
  values := fun _ _ => rfl
  width := Nat.zero_le _

theorem shows_emptyVals : Shows emptyVals fun _ => some [] where
  values := by
    decide
  width := Nat.le_refl _

/-- A value is put where the name of its field says. -/
theorem Shows.assign
    (shows_ : Shows vals g) (known : name ∈ fieldnames)
    (value : Option Text) :
    Shows (assign vals (validfields name) value)
      (Function.update g name value) where
  values := by
    intro other otherKnown
    rw [element_assign]
    by_cases same : other = name
    · rw [same, if_pos rfl, Function.update_self]
    · have apart : validfields other ≠ validfields name := fun equal =>
        same ((List.idxOf_inj otherKnown).mp equal)
      rw [if_neg apart, Function.update_of_ne same]
      exact shows_.values other otherKnown
  width := by
    have inside := validfields_lt known
    have width := shows_.width
    rw [length_assign]
    omega

theorem matchField_line (field : Field) :
    matchField field.line = some (field.name, field.value) := by
  have others : ∀ char ∈ field.name, (char != ':') = true := by
    intro char member
    rw [bne_iff_ne]
    rintro rfl
    exact field.noColon member
  have front : field.line.takeWhile (· != ':') = field.name := by
    rw [Field.line, List.takeWhile_append_of_pos others,
      List.takeWhile_cons_of_neg (by simp), List.append_nil]
  have behind : field.line.dropWhile (· != ':') = ':' :: field.value := by
    rw [Field.line, List.dropWhile_append_of_pos others,
      List.dropWhile_cons_of_neg (by simp)]
  rcases List.exists_cons_of_ne_nil field.filled with ⟨char, name, whole⟩
  rw [matchField, front, behind, whole]

theorem element_map (known : name ∈ fieldnames) :
    element (fieldnames.map g) (validfields name) = g name := by
  have inside := validfields_lt known
  rw [element, List.getElem?_map, List.getElem?_eq_getElem inside]
  exact congrArg g (List.getElem_idxOf inside)

/-- A line sets the value of its field, known or not. -/
theorem Shows.readLine (shows_ : Shows vals g) (field : Field) :
    Shows (readLine vals field.line)
      (Function.update g field.name (some field.value)) := by
  rw [Plog.readLine, matchField_line]
  by_cases known : field.name ∈ fieldnames
  · simp only [if_pos known]
    exact shows_.assign known (some field.value)
  · simp only [if_neg known]
    refine ⟨?_, shows_.width⟩
    intro other otherKnown
    have apart : other ≠ field.name := by
      rintro rfl
      exact known otherKnown
    rw [Function.update_of_ne apart]
    exact shows_.values other otherKnown

theorem length_readLine (vals : PerlArray) (field : Field) :
    vals.length ≤ (readLine vals field.line).length := by
  rw [readLine, matchField_line]
  by_cases known : field.name ∈ fieldnames
  · simp only [if_pos known, length_assign]
    exact Nat.le_max_left _ _
  · simp only [if_neg known]
    exact Nat.le_refl _

theorem given_concat :
    given (record ++ [field]) name =
      if name = field.name then some field.value else given record name := by
  rw [given, List.reverse_append, List.reverse_singleton,
    List.singleton_append, List.find?_cons]
  by_cases same : field.name = name
  · rw [same, beq_self_eq_true, if_pos rfl]
    rfl
  · rw [beq_eq_false_iff_ne.mpr same, if_neg (Ne.symm same)]
    rfl

/-- The array behind the lines of a record. -/
def readRecord (vals : PerlArray) (record : Record) : PerlArray :=
  record.foldl (fun vals field => readLine vals field.line) vals

theorem Shows.readRecord (shows_ : Shows vals g) (record : Record) :
    Shows (readRecord vals record)
      (fun name => (given record name).or (g name)) := by
  induction record using List.reverseRecOn with
  | nil => exact shows_
  | append_singleton record field induction =>
      rw [Plog.readRecord, List.foldl_append]
      have step := induction.readLine field
      refine ⟨?_, step.width⟩
      intro name known
      refine (step.values name known).trans ?_
      rw [given_concat]
      by_cases same : name = field.name
      · rw [same, Function.update_self, if_pos rfl]
        rfl
      · rw [Function.update_of_ne same, if_neg same]

theorem length_readRecord (vals : PerlArray) (record : Record) :
    vals.length ≤ (readRecord vals record).length := by
  induction record using List.reverseRecOn with
  | nil => exact Nat.le_refl _
  | append_singleton record field induction =>
      rw [readRecord, List.foldl_append]
      exact induction.trans (length_readLine _ field)

/-- A dash for the size is no value. -/
def withoutDash (g : Text → Option Text) (name : Text) : Option Text :=
  if name = responseSize ∧ g name = some ['-'] then none else g name

theorem responseSize_mem : responseSize ∈ fieldnames := by
  decide

theorem Shows.nullSize (shows_ : Shows vals g) :
    Shows (nullSize vals) (withoutDash g) := by
  have size := shows_.values responseSize responseSize_mem
  rw [Plog.nullSize, size]
  by_cases dash : g responseSize = some ['-']
  · rw [if_pos dash]
    have assigned := shows_.assign responseSize_mem none
    refine ⟨?_, assigned.width⟩
    intro name known
    rw [assigned.values name known, withoutDash]
    by_cases same : name = responseSize
    · rw [same, Function.update_self, if_pos ⟨rfl, dash⟩]
    · rw [Function.update_of_ne same, if_neg fun both => same both.1]
  · rw [if_neg dash]
    refine ⟨?_, shows_.width⟩
    intro name known
    rw [shows_.values name known, withoutDash, if_neg]
    rintro ⟨rfl, found⟩
    exact dash found

theorem length_nullSize (vals : PerlArray) :
    vals.length ≤ (nullSize vals).length := by
  rw [nullSize]
  split
  next =>
      rw [length_assign]
      exact Nat.le_max_left _ _
  next => exact Nat.le_refl _

/-- The filter looks at the values that it is to look at. -/
theorem filterOutGratuitousLogs_eq
    {filteredIps : List Text}
    (shows_ : Shows vals g)
    (strings : ∀ name, string (g name) = valueOf record name) :
    filterOutGratuitousLogs filteredIps vals =
      isDropped filteredIps record := by
  have ip := shows_.values remoteIp (by decide)
  have method := shows_.values requestMethod (by decide)
  have listed : (filteredIps.any fun ip => ip == valueOf record remoteIp) =
      decide (valueOf record remoteIp ∈ filteredIps) := by
    rw [List.any_beq']
    exact (List.elem_eq_mem _ _)
  rw [filterOutGratuitousLogs, isDropped, ip, method, strings, strings, listed]

end Shows

/-! ## The main loop -/

section Loop

variable {filteredIps : List Text} {execute : Nat → PerlArray → Bool}
  {vals : PerlArray} {connection : Connection} {record : Record}
  {records : List Record}

/-- The lines of a record are read up to the empty one. -/
theorem mainLoop_record (record : Record) (lines : List Text) :
    mainLoop filteredIps execute (linesOf record ++ lines) vals connection =
      mainLoop filteredIps execute ([] :: lines) (readRecord vals record)
        connection := by
  induction record generalizing vals with
  | nil => rfl
  | cons field record induction =>
      have filled : field.line ≠ [] :=
        List.append_ne_nil_of_right_ne_nil _ (List.cons_ne_nil _ _)
      rcases List.exists_cons_of_ne_nil filled with ⟨char, line, whole⟩
      have step : mainLoop filteredIps execute
          (field.line :: (linesOf record ++ lines)) vals connection =
            mainLoop filteredIps execute (linesOf record ++ lines)
              (readLine vals field.line) connection := by
        rw [whole, mainLoop]
      exact step.trans induction

/-- What is done at an empty line, and with which connection it goes on. -/
theorem exists_outcome (filteredIps : List Text)
    (execute : Nat → PerlArray → Bool) (vals : PerlArray)
    (connection : Connection) :
    ∃ next : Option Connection,
      (∀ lines, mainLoop filteredIps execute ([] :: lines) vals connection =
        (if filterOutGratuitousLogs filteredIps vals then .dropped
          else .inserted (nullSize vals)) ::
            (match next with
            | some connection =>
                mainLoop filteredIps execute lines emptyVals connection
            | none => [])) ∧
      ((∀ calls row, execute calls row = true) → next.isSome) := by
  cases filtered : filterOutGratuitousLogs filteredIps vals with
  | true =>
      refine ⟨some connection, ?_, fun _ => rfl⟩
      intro lines
      rw [mainLoop, filtered, if_pos rfl, if_pos rfl]
  | false =>
      refine ⟨insertVals execute connection (nullSize vals), ?_, ?_⟩
      · intro lines
        rw [mainLoop, filtered, if_neg Bool.false_ne_true,
          if_neg Bool.false_ne_true]
      · intro executes
        simp only [insertVals, executes]
        split
        next => rfl
        next => rfl

theorem withoutDash_eq
    {g : Text → Option Text}
    (values : ∀ name, g name = some (valueOf record name)) :
    withoutDash g = columnOf record := by
  funext name
  rw [withoutDash, columnOf, values]
  by_cases dash : name = responseSize ∧ valueOf record name = ['-']
  · rw [if_pos dash, if_pos ⟨dash.1, congrArg some dash.2⟩]
  · rw [if_neg dash, if_neg]
    rintro ⟨size, same⟩
    exact dash ⟨size, Option.some.inj same⟩

/-- Behind the first record the array is full from the start. -/
theorem outcome_later (record : Record) :
    (if filterOutGratuitousLogs filteredIps (readRecord emptyVals record)
      then Outcome.dropped
      else .inserted (nullSize (readRecord emptyVals record))) =
        outcomeOf filteredIps record := by
  have shown := shows_emptyVals.readRecord record
  have full : (nullSize (readRecord emptyVals record)).length =
      fieldnames.length := by
    apply le_antisymm shown.nullSize.width
    exact (length_readRecord emptyVals record).trans (length_nullSize _)
  have strings : ∀ name, string ((given record name).or (some [])) =
      valueOf record name := by
    intro name
    rw [valueOf]
    cases given record name with
    | none => rfl
    | some value => rfl
  rw [filterOutGratuitousLogs_eq shown strings, outcomeOf,
    shown.nullSize.eq_map full]
  have columns : (withoutDash fun name => (given record name).or (some [])) =
      columnOf record := by
    apply withoutDash_eq
    intro name
    rw [valueOf]
    cases given record name with
    | none => rfl
    | some value => rfl
  rw [columns]

/-- The records behind the first one. -/
theorem mainLoop_later (records : List Record) (connection : Connection) :
    mainLoop filteredIps execute (records.flatMap linesOf) emptyVals
        connection <+: records.map (outcomeOf filteredIps) ∧
      ((∀ calls row, execute calls row = true) →
        (mainLoop filteredIps execute (records.flatMap linesOf) emptyVals
          connection).length = records.length) := by
  induction records generalizing connection with
  | nil => exact ⟨List.nil_prefix, fun _ => rfl⟩
  | cons record records induction =>
      rcases exists_outcome filteredIps execute (readRecord emptyVals record)
        connection with ⟨next, step, goesOn⟩
      rw [List.flatMap_cons, mainLoop_record, step, outcome_later,
        List.map_cons]
      cases next with
      | none =>
          refine ⟨?_, fun executes => ?_⟩
          · exact List.cons_prefix_cons.mpr ⟨rfl, List.nil_prefix⟩
          · cases goesOn executes
      | some connection =>
          rcases induction connection with ⟨each, all⟩
          refine ⟨List.cons_prefix_cons.mpr ⟨rfl, each⟩, fun executes => ?_⟩
          exact congrArg Nat.succ (all executes)

/-- The first record is read into an array of its own width. -/
theorem outcome_first_iff (record : Record) :
    (if filterOutGratuitousLogs filteredIps (readRecord [] record)
      then Outcome.dropped
      else .inserted (nullSize (readRecord [] record))) =
        outcomeOf filteredIps record ↔
      isDropped filteredIps record = true ∨
        ∀ name ∈ fieldnames, (given record name).isSome := by
  have shown := shows_nil.readRecord record
  have strings : ∀ name, string ((given record name).or none) =
      valueOf record name := by
    intro name
    rw [Option.or_none]
    rfl
  rw [filterOutGratuitousLogs_eq shown strings, outcomeOf]
  cases dropped : isDropped filteredIps record with
  | true => exact iff_of_true rfl (Or.inl rfl)
  | false =>
      rw [if_neg Bool.false_ne_true, if_neg Bool.false_ne_true,
        Outcome.inserted.injEq, or_iff_right Bool.false_ne_true]
      constructor
      · intro same name known
        by_contra missing
        have absent : given record name = none := by
          simpa using missing
        have value := shown.nullSize.values name known
        have noDash : ¬ (name = responseSize ∧
            valueOf record name = ['-']) := by
          rintro ⟨-, dash⟩
          rw [valueOf, absent] at dash
          cases dash
        rw [same, element_map known, columnOf, if_neg noDash, withoutDash,
          absent] at value
        split at value
        next => cases value
        next => cases value
      · intro complete
        have values : ∀ name ∈ fieldnames,
            (given record name).or none = some (valueOf record name) := by
          intro name known
          rcases Option.isSome_iff_exists.mp (complete name known) with
            ⟨value, found⟩
          rw [valueOf, found]
          rfl
        have full_ : Shows (readRecord [] record)
            (fun name => some (valueOf record name)) :=
          ⟨fun name known => (shown.values name known).trans
            (values name known), shown.width⟩
        have long := full_.full.trans (length_nullSize (readRecord [] record))
        rw [full_.nullSize.eq_map (le_antisymm full_.nullSize.width long),
          withoutDash_eq fun _ => rfl]

end Loop

theorem independent_iff (filteredIps : List Text)
    (execute : Nat → PerlArray → Bool) (records : List Record) :
    Independent filteredIps execute records ↔
      IsFirstFull filteredIps records := by
  cases records with
  | nil => exact iff_of_true ⟨List.nil_prefix, fun _ => rfl⟩ nofun
  | cons record records =>
      rcases exists_outcome filteredIps execute (readRecord [] record)
        ⟨false, 0⟩ with ⟨next, step, goesOn⟩
      have run : plog filteredIps execute
          ((record :: records).flatMap linesOf) = _ :=
        (mainLoop_record record _).trans (step _)
      have first : IsFirstFull filteredIps (record :: records) ↔
          isDropped filteredIps record = true ∨
            ∀ name ∈ fieldnames, (given record name).isSome := by
        constructor
        · exact fun isFirst => isFirst record rfl
        · rintro full other same
          rcases Option.some.inj same with rfl
          exact full
      rw [first, ← outcome_first_iff]
      constructor
      · intro independent
        have each := independent.each
        rw [run, List.map_cons] at each
        exact (List.cons_prefix_cons.mp each).1
      · intro same
        constructor
        · rw [run, List.map_cons, same]
          apply List.cons_prefix_cons.mpr
          cases next with
          | none => exact ⟨rfl, List.nil_prefix⟩
          | some connection =>
              exact ⟨rfl, (mainLoop_later records connection).1⟩
        · intro executes
          rw [run]
          cases next with
          | none => cases goesOn executes
          | some connection =>
              exact congrArg Nat.succ
                ((mainLoop_later records connection).2 executes)

/-- A record with one field. -/
def shortRecord : Record :=
  [⟨remoteIp, "127.0.0.1".toList, by decide, by decide⟩]

theorem not_independent :
    ¬ ∀ filteredIps execute records,
      Independent filteredIps execute records := by
  intro independent
  have each := (independent [] (fun _ _ => true) [shortRecord]).each
  exact absurd each (by decide)

end Limestone.Plog
