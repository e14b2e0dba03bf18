import Limestone.DbmsLocks

/-!
# The rows of a query for locks: `dbms_get_locks_by_where_str`

The loop keeps three things between two rows: a flag for an indirect lock, the
list of locks, and the ids of expired locks.  The flag is set at the first row
of another root and never set back, so that what is made of a row depends on
the rows before it.
-/

namespace Limestone.LockRows

open Library
open DbmsLocks

/-! ## Times -/

/-- A `timestamp`, as its text shows it. -/
structure Datetime where
  year : Nat
  mon : Nat
  mday : Nat
  hour : Nat
  min : Nat
  sec : Nat
deriving DecidableEq, Repr

/-- `INF_TIME_STR`. -/
def infTimeStr : Datetime := ⟨9999, 12, 31, 0, 0, 0⟩

/--
`time_datetime_to_ansi` of `dav_repos_parse_time`, where `aprTimeExpGet` has
the seconds of a time.
-/
def timeDatetimeToAnsi (aprTimeExpGet : Datetime → Int) (t : Datetime) :
    Int :=
  if t = infTimeStr then 0 else aprTimeExpGet t

/-! ## The loop -/

/-- A row of the query, with the columns that it selects. -/
structure QueryRow where
  resourceId : Id
  uuid : Text
  form : Char
  depth : Int
  expiresAt : Datetime
  ownerInfo : Text
  name : Text
  id : Id
  lockroot : Text
deriving DecidableEq, Repr

/-- What a call for locks is given. -/
structure Request where
  aprTimeExpGet : Datetime → Int
  currTime : Int
  serialno : Id
  rootPath : Text
  resolveIndirect : Bool

/-- The variables of the loop. -/
structure Scan where
  indirect : Bool
  locks : List DavLock
  /-- The ids of expired locks with commas between them; `none` is NULL. -/
  expLids : Option Text
deriving DecidableEq, Repr

def scanStart : Scan where
  indirect := false
  locks := []
  expLids := none

/-- The lock that is made of a row. -/
def nextLock (request : Request) (unresolved : Bool) (row : QueryRow) :
    DavLock where
  uuid := row.uuid
  scope :=
    if row.form = 'S' then .shared
    else if row.form = 'X' then .exclusive
    else .unknown
  rectype := if unresolved then .indirect else .direct
  resId := if unresolved then request.serialno else toInt row.resourceId
  depth := if unresolved || row.depth == 0 then 0 else davInfinity
  timeout := timeDatetimeToAnsi request.aprTimeExpGet row.expiresAt
  owner := row.ownerInfo
  authUser := row.name
  lockId := row.id
  lockroot := request.rootPath ++ row.lockroot

/-- The assignment to `exp_lids`. -/
def addLid (expLids : Option Text) (expLid : Id) : Option Text :=
  match expLids with
  | some lids => some (lids ++ ',' :: (toString expLid).toList)
  | none => some (toString expLid).toList

/-- The body of the loop. -/
def scanRow (request : Request) (scan : Scan) (row : QueryRow) : Scan :=
  let indirect := scan.indirect ||
    decide (toInt row.resourceId ≠ request.serialno)
  let lock := nextLock request (indirect && !request.resolveIndirect) row
  if lock.timeout ≠ 0 ∧ request.currTime ≥ lock.timeout then
    { scan with
      indirect := indirect
      expLids := addLid scan.expLids lock.lockId }
  else
    { scan with
      indirect := indirect
      locks := scan.locks ++ [lock] }

/-- The loop: the locks, and what `dbms_delete_exp_locks` is called with. -/
def scanRows (request : Request) (rows : List QueryRow) :
    List DavLock × Option Text :=
  let scan := rows.foldl (scanRow request) scanStart
  (scan.locks, scan.expLids)

/-! ## What is expected of a row -/

/-- The time of a lock is over. -/
def rowExpired (request : Request) (row : QueryRow) : Bool :=
  decide (row.expiresAt ≠ infTimeStr ∧
    request.aprTimeExpGet row.expiresAt ≤ request.currTime)

/-- The lock of a row on its own. -/
def rowLock (request : Request) (row : QueryRow) : DavLock :=
  nextLock request
    (!request.resolveIndirect && decide (row.resourceId ≠ request.serialno))
    row

/-- A list of ids with commas between them. -/
def joinIds : List Id → Option Text
  | [] => none
  | id :: ids =>
      some ((toString id).toList ++
        ids.flatMap fun id => ',' :: (toString id).toList)

/-- Every row is classified on its own. -/
def Classified (request : Request) (rows : List QueryRow)
    (found : List DavLock × Option Text) : Prop :=
  found.1 = (rows.filter fun row => !rowExpired request row).map
      (rowLock request) ∧
    found.2 = joinIds ((rows.filter (rowExpired request)).map QueryRow.id)

/-! ## What the loop computes -/

variable {request : Request} {rows : List QueryRow} {row : QueryRow}
  {indirect : Bool}

/-- The flag after a row. -/
def flagAfter (request : Request) (indirect : Bool) (row : QueryRow) : Bool :=
  indirect || decide (toInt row.resourceId ≠ request.serialno)

/-- The rows with the flag that the loop has for them. -/
def flagged (request : Request) : Bool → List QueryRow → List (Bool × QueryRow)
  | _, [] => []
  | indirect, row :: rows =>
      (flagAfter request indirect row, row) ::
        flagged request (flagAfter request indirect row) rows

/-- The time of the lock that is read is over. -/
def readExpired (request : Request) (row : QueryRow) : Bool :=
  decide (timeDatetimeToAnsi request.aprTimeExpGet row.expiresAt ≠ 0 ∧
    request.currTime ≥
      timeDatetimeToAnsi request.aprTimeExpGet row.expiresAt)

def readFlagged (request : Request) (entry : Bool × QueryRow) : DavLock :=
  nextLock request (entry.1 && !request.resolveIndirect) entry.2

theorem scanRow_of_expired {scan : Scan}
    (late : readExpired request row = true) :
    scanRow request scan row =
      { scan with
        indirect := flagAfter request scan.indirect row
        expLids := addLid scan.expLids row.id } :=
  if_pos (of_decide_eq_true late)

theorem scanRow_of_unexpired {scan : Scan}
    (valid : readExpired request row = false) :
    scanRow request scan row =
      { scan with
        indirect := flagAfter request scan.indirect row
        locks := scan.locks ++
          [readFlagged request (flagAfter request scan.indirect row, row)] } :=
  if_neg (of_decide_eq_false valid)

/-- The locks are those that have not expired, with the flags of their rows. -/
theorem locks_foldl_scanRow (rows : List QueryRow) (scan : Scan) :
    (rows.foldl (scanRow request) scan).locks =
      scan.locks ++
        ((flagged request scan.indirect rows).filter fun entry =>
          !readExpired request entry.2).map (readFlagged request) := by
  induction rows generalizing scan with
  | nil => exact (List.append_nil _).symm
  | cons row rows induction =>
      rw [List.foldl_cons, induction, flagged]
      cases late : readExpired request row with
      | true =>
          rw [scanRow_of_expired late, List.filter_cons_of_neg (by simp [late])]
      | false =>
          rw [scanRow_of_unexpired late,
            List.filter_cons_of_pos (by simp [late]), List.map_cons,
            List.append_assoc]
          rfl

theorem expLids_foldl_scanRow (rows : List QueryRow) (scan : Scan) :
    (rows.foldl (scanRow request) scan).expLids =
      ((rows.filter (readExpired request)).map QueryRow.id).foldl addLid
        scan.expLids := by
  induction rows generalizing scan with
  | nil => rfl
  | cons row rows induction =>
      rw [List.foldl_cons, induction]
      cases late : readExpired request row with
      | true =>
          rw [scanRow_of_expired late, List.filter_cons_of_pos late]
          rfl
      | false =>
          have valid : ¬ readExpired request row = true := by simp [late]
          rw [scanRow_of_unexpired late, List.filter_cons_of_neg valid]

theorem foldl_addLid (lids : Text) (ids : List Id) :
    ids.foldl addLid (some lids) =
      some (lids ++ ids.flatMap fun id => ',' :: (toString id).toList) := by
  induction ids generalizing lids with
  | nil => simp
  | cons id ids induction =>
      rw [List.foldl_cons, addLid, induction, List.flatMap_cons,
        List.append_assoc]

theorem foldl_addLid_none (ids : List Id) :
    ids.foldl addLid none = joinIds ids := by
  cases ids with
  | nil => rfl
  | cons id ids => exact foldl_addLid _ ids

/-! ## When every row is classified on its own -/

/-- The code takes the second 0 of time for the end of all times. -/
theorem readExpired_eq_true_iff :
    readExpired request row = true ↔
      rowExpired request row = true ∧
        request.aprTimeExpGet row.expiresAt ≠ 0 := by
  rw [readExpired, rowExpired, decide_eq_true_eq, decide_eq_true_eq,
    timeDatetimeToAnsi]
  by_cases infinite : row.expiresAt = infTimeStr
  · simp [infinite]
  · simp [infinite, and_comm]

theorem flagAfter_eq_true_iff (range : IsInteger row.resourceId) :
    flagAfter request indirect row = true ↔
      indirect = true ∨ row.resourceId ≠ request.serialno := by
  rw [flagAfter, toInt_eq_self range, Bool.or_eq_true, decide_eq_true_eq]

/-- A flag makes another lock of a row iff it is read. -/
theorem readFlagged_eq_rowLock_iff
    (range : IsInteger row.resourceId)
    (unresolved : request.resolveIndirect = false) :
    readFlagged request (flagAfter request indirect row, row) =
        rowLock request row ↔
      ¬ (indirect = true ∧ row.resourceId = request.serialno) := by
  rw [readFlagged, rowLock, flagAfter, unresolved, toInt_eq_self range]
  by_cases direct : row.resourceId = request.serialno
  · cases indirect with
    | true =>
        constructor
        · intro same
          have rectypes := congrArg DavLock.rectype same
          simp [nextLock, direct] at rectypes
        · intro other
          exact (other ⟨rfl, direct⟩).elim
    | false => simp [direct]
  · simp [direct]

/-- A lock of the resource that has not expired follows none of another. -/
def DirectFirst (request : Request) (rows : List QueryRow) : Prop :=
  rows.Pairwise fun first later =>
    first.resourceId ≠ request.serialno →
      later.resourceId = request.serialno → rowExpired request later = true

theorem map_readFlagged_eq_iff
    (ranges : ∀ row ∈ rows, IsInteger row.resourceId)
    (unresolved : request.resolveIndirect = false) :
    ((flagged request indirect rows).filter fun entry =>
          !rowExpired request entry.2).map (readFlagged request) =
        (rows.filter fun row => !rowExpired request row).map
          (rowLock request) ↔
      (indirect = true → ∀ row ∈ rows,
        row.resourceId = request.serialno → rowExpired request row = true) ∧
      DirectFirst request rows := by
  induction rows generalizing indirect with
  | nil => simp [flagged, DirectFirst]
  | cons row rows induction =>
      rw [List.forall_mem_cons] at ranges
      have later := @induction (flagAfter request indirect row) ranges.2
      rw [flagAfter_eq_true_iff ranges.1] at later
      have behind : DirectFirst request (row :: rows) ↔
          (row.resourceId ≠ request.serialno → ∀ other ∈ rows,
            other.resourceId = request.serialno →
              rowExpired request other = true) ∧
          DirectFirst request rows := by
        rw [DirectFirst, List.pairwise_cons]
        constructor
        · rintro ⟨first, others⟩
          exact ⟨fun indirect other member => first other member indirect,
            others⟩
        · rintro ⟨first, others⟩
          exact ⟨fun other member indirect => first indirect other member,
            others⟩
      rw [flagged, behind, List.forall_mem_cons]
      cases late : rowExpired request row with
      | true =>
          rw [List.filter_cons_of_neg (by simp [late]),
            List.filter_cons_of_neg (by simp [late]), later]
          tauto
      | false =>
          rw [List.filter_cons_of_pos (by simp [late]),
            List.filter_cons_of_pos (by simp [late]), List.map_cons,
            List.map_cons, List.cons.injEq, later,
            readFlagged_eq_rowLock_iff ranges.1 unresolved]
          have kept : ¬ false = true := Bool.false_ne_true
          tauto

/-- No lock that is over ends at the second 0, and the direct ones are first. -/
def OwnRows (request : Request) (rows : List QueryRow) : Prop :=
  (∀ row ∈ rows, rowExpired request row = true →
    request.aprTimeExpGet row.expiresAt ≠ 0) ∧
  (request.resolveIndirect = true ∨ DirectFirst request rows)

theorem map_snd_flagged (rows : List QueryRow) :
    (flagged request indirect rows).map Prod.snd = rows := by
  induction rows generalizing indirect with
  | nil => rfl
  | cons row rows induction => rw [flagged, List.map_cons, induction]

/-- What is read of the rows alone does not depend on their flags. -/
theorem map_filter_flagged
    {α : Type} (kept : QueryRow → Bool) (read : QueryRow → α) :
    ((flagged request indirect rows).filter fun entry => kept entry.2).map
        (fun entry => read entry.2) =
      (rows.filter kept).map read := by
  have rowsOf : (flagged request indirect rows).map Prod.snd = rows :=
    map_snd_flagged rows
  calc ((flagged request indirect rows).filter fun entry => kept entry.2).map
        (fun entry => read entry.2)
      = (((flagged request indirect rows).map Prod.snd).filter kept).map
          read := by
        rw [List.filter_map, List.map_map]
        rfl
    _ = (rows.filter kept).map read := by rw [rowsOf]

theorem scanRows_fst (rows : List QueryRow) :
    (scanRows request rows).1 =
      ((flagged request false rows).filter fun entry =>
        !readExpired request entry.2).map (readFlagged request) :=
  locks_foldl_scanRow rows scanStart

theorem scanRows_snd (rows : List QueryRow) :
    (scanRows request rows).2 =
      joinIds ((rows.filter (readExpired request)).map QueryRow.id) :=
  (expLids_foldl_scanRow rows scanStart).trans (foldl_addLid_none _)

/-- A lock that is over at the second 0 is returned all the same. -/
theorem not_classified_of_epoch
    (member : row ∈ rows)
    (late : rowExpired request row = true)
    (epoch : request.aprTimeExpGet row.expiresAt = 0) :
    (scanRows request rows).1 ≠
      (rows.filter fun row => !rowExpired request row).map
        (rowLock request) := by
  intro same
  have lengths := congrArg List.length same
  have unread : (flagged request false rows).countP
      (fun entry => !readExpired request entry.2) =
        rows.countP fun row => !readExpired request row := by
    have rowsOf : (flagged request false rows).map Prod.snd = rows :=
      map_snd_flagged rows
    rw [← rowsOf, List.countP_map, rowsOf]
    rfl
  rw [scanRows_fst, List.length_map, List.length_map,
    ← List.countP_eq_length_filter, ← List.countP_eq_length_filter, unread]
    at lengths
  have notRead : readExpired request row = false := by
    rw [Bool.eq_false_iff, ne_eq, readExpired_eq_true_iff]
    exact fun both => both.2 epoch
  have fewer : rows.countP (fun row => !rowExpired request row) <
      rows.countP fun row => !readExpired request row := by
    apply Loop.countP_lt_countP _ member
    · rw [notRead]
      rfl
    · rw [late]
      rfl
    · intro other _ valid
      rw [Bool.not_eq_true'] at valid ⊢
      rw [Bool.eq_false_iff, ne_eq, readExpired_eq_true_iff, valid]
      exact fun both => Bool.false_ne_true both.1
  omega

/--
The rows are classified on their own iff no lock of the resource that is still
valid comes after a lock of another resource, unless these are resolved, and
no lock ended at the second 0 of time.
-/
theorem scanRows_classified_iff
    (request : Request) (rows : List QueryRow)
    (ranges : ∀ row ∈ rows, IsInteger row.resourceId) :
    Classified request rows (scanRows request rows) ↔
      OwnRows request rows := by
  by_cases timed : ∀ row ∈ rows, rowExpired request row = true →
      request.aprTimeExpGet row.expiresAt ≠ 0
  · have alike : ∀ row ∈ rows,
        readExpired request row = rowExpired request row := by
      intro row member
      rw [Bool.eq_iff_iff, readExpired_eq_true_iff]
      exact ⟨And.left, fun late => ⟨late, timed row member late⟩⟩
    have lids : (scanRows request rows).2 =
        joinIds ((rows.filter (rowExpired request)).map QueryRow.id) := by
      rw [scanRows_snd, List.filter_congr alike]
    have locks : (scanRows request rows).1 =
        ((flagged request false rows).filter fun entry =>
          !rowExpired request entry.2).map (readFlagged request) := by
      rw [scanRows_fst]
      congr 1
      apply List.filter_congr
      intro entry member
      have listed : entry.2 ∈ (flagged request false rows).map Prod.snd :=
        List.mem_map_of_mem member
      rw [map_snd_flagged] at listed
      rw [alike entry.2 listed]
    rw [Classified, lids, locks]
    cases resolved : request.resolveIndirect with
    | true =>
        have read : readFlagged request = fun entry =>
            rowLock request entry.2 := by
          funext entry
          simp [readFlagged, rowLock, resolved]
        rw [read]
        constructor
        · exact fun _ => ⟨timed, Or.inl resolved⟩
        · exact fun _ =>
            ⟨map_filter_flagged (fun row => !rowExpired request row) _, rfl⟩
    | false =>
        rw [map_readFlagged_eq_iff ranges resolved]
        constructor
        · exact fun same => ⟨timed, Or.inr same.1.2⟩
        · rintro ⟨_, resolve | direct⟩
          · rw [resolved] at resolve
            cases resolve
          · exact ⟨⟨nofun, direct⟩, rfl⟩
  · push Not at timed
    rcases timed with ⟨row, member, late, epoch⟩
    constructor
    · intro classified
      exact (not_classified_of_epoch member late epoch classified.1).elim
    · intro own
      exact (own.1 row member late epoch).elim

/-! ## An inherited lock before a lock of the resource -/

/-- Resource 9 is asked for its locks; it inherits one from resource 5. -/
def inheritedFirst : List QueryRow :=
  [{ resourceId := 5, uuid := "a".toList, form := 'S', depth := 1
     expiresAt := infTimeStr, ownerInfo := [], name := "owner".toList
     id := 1, lockroot := "/c".toList },
    { resourceId := 9, uuid := "b".toList, form := 'S', depth := 1
      expiresAt := infTimeStr, ownerInfo := [], name := "owner".toList
      id := 2, lockroot := "/c/r".toList }]

def lockRequest : Request where
  aprTimeExpGet := fun _ => 1
  currTime := 10
  serialno := 9
  rootPath := []
  resolveIndirect := false

theorem scanRows_classified_example :
    Classified lockRequest inheritedFirst
        (scanRows lockRequest inheritedFirst) ↔
      OwnRows lockRequest inheritedFirst :=
  scanRows_classified_iff lockRequest inheritedFirst (by decide)

/-- The lock of the resource itself is returned as an indirect one. -/
theorem not_scanRows_classified :
    ¬ ∀ (request : Request) (rows : List QueryRow),
      (∀ row ∈ rows, IsInteger row.resourceId) →
      Classified request rows (scanRows request rows) := by
  intro classified
  have both := classified lockRequest inheritedFirst (by decide)
  exact absurd both.1 (by decide)

end Limestone.LockRows
