import Limestone.DbmsProperties
import Limestone.ExpiredLocks

/-!
# Loops over rows: `dbms_locks.c` and `dbms.c`

Three functions loop while `dbms_next` returns anything but zero.  One of them
enters its loop also when its query has failed.  The other two take NULL for
the text of a column when there is no row.
-/

namespace Limestone.RowLoops

open Library
open DbmsDbd
open DbmsNext
open DbmsProperties
open ExpiredLocks
open LockRows
open StatementExecution

/-! ## The functions -/

/-- The loop of `dbms_get_locks_by_where_str`. -/
def dbmsGetLocksByWhereStr (request : Request) (whereStr : Text) :
    RowLoop QueryRow Scan where
  query := dbmsPrepare
    ("SELECT locks.resource_id, locks.uuid, locks.form, locks.depth, ".toList ++
      "       locks.expires_at, locks.owner_info, principals.name, ".toList ++
      "       locks.id, locks.lockroot ".toList ++
      "FROM locks_resources ".toList ++
      "       INNER JOIN locks ON locks.id=locks_resources.lock_id ".toList ++
      "       INNER JOIN principals ".toList ++
      "ON principals.resource_id=locks.owner_id ".toList ++
      "WHERE ".toList ++ whereStr)
  start := scanStart
  -- `scope[0]` is read of the third column
  body := fun scan row => row.map (scanRow request scan)
  onError := false

/-- The text of the query for properties. -/
def selectProperties : Text :=
  "SELECT resource_id, namespace_id, properties.name, ".toList ++
    "xmlinfo, value, namespaces.name ".toList ++
    "FROM properties ".toList ++
    "INNER JOIN namespaces ".toList ++
    "ON namespace_id=namespaces.id ".toList ++
    "WHERE resource_id=? ORDER BY properties.name".toList

/-- The loop of `dbms_fill_dead_property`, when there are no properties yet. -/
def dbmsFillDeadProperty (serialno : Id) :
    RowLoop (Property × (Id × Text)) (List FilledProperty) where
  query := (dbmsSetInt (dbmsPrepare selectProperties) 1 serialno).2
  start := []
  -- the name of the namespace is a key of `ns_id_hash`
  body := fun pr row => row.map fun row => pr ++ [filledProperty row]
  onError := false

/-! ## The three loops -/

/-- The query for the locks is sent iff its condition is plain. -/
theorem escquery_dbmsGetLocksByWhereStr
    (request : Request) (whereStr : Text) :
    (escquery (dbmsGetLocksByWhereStr request whereStr).query).isSome =
      decide ('?' ∉ whereStr) := by
  show (escquery (dbmsPrepare _)).isSome = _
  rw [escquery_dbmsPrepare]
  by_cases mark : '?' ∈ whereStr
  · rw [if_pos (List.mem_append_right _ mark), decide_eq_false (by simpa)]
    rfl
  · rw [if_neg, decide_eq_true mark]
    · rfl
    · rw [List.mem_append, not_or]
      exact ⟨by decide, mark⟩

theorem count_selectProperties : selectProperties.count '?' = 0 + 1 := by
  have before : ∀ {front back : Text}, front.count '?' = 0 →
      back.count '?' = 1 → (front ++ back).count '?' = 0 + 1 := by
    intro front back plain one
    rw [List.count_append, plain, one]
  exact before (by decide) (by decide)

theorem escquery_dbmsFillDeadProperty (serialno : Id) :
    (escquery (dbmsFillDeadProperty serialno).query).isSome = true := by
  unfold dbmsFillDeadProperty
  dsimp only
  rw [escquery_dbmsSetInt selectProperties serialno count_selectProperties]
  rfl

/-- The loops of the three functions, each with an answer to its query. -/
structure EndInTime (expLockIds whereStr : Text) (request : Request)
    (serialno : Id) (locknulls : Answer Id) (locks : Answer QueryRow)
    (properties : Answer (Property × (Id × Text))) : Prop where
  deleteExpLocks : (locknullLoop expLockIds).EndsInTime locknulls
  getLocksByWhereStr :
    (dbmsGetLocksByWhereStr request whereStr).EndsInTime locks
  fillDeadProperty : (dbmsFillDeadProperty serialno).EndsInTime properties

/--
The loops end in time iff all rows are delivered, but two of them end also when
the query fails.
-/
theorem endInTime_iff
    (expLockIds whereStr : Text) (request : Request) (serialno : Id)
    (locknulls : Answer Id) (locks : Answer QueryRow)
    (properties : Answer (Property × (Id × Text))) :
    EndInTime expLockIds whereStr request serialno locknulls locks
        properties ↔
      ('?' ∉ expLockIds ∧ Complete locknulls) ∧
        ('?' ∉ whereStr ∧ (locks = .refused ∨ Complete locks)) ∧
        (properties = .refused ∨ Complete properties) := by
  have deleteExpLocks := @RowLoop.endsInTime_iff _ _
    (locknullLoop expLockIds) locknulls
    (fun ids resId => some (ids.elim (toString resId).toList
      fun _ => ',' :: (toString resId).toList))
    (fun _ _ => rfl)
  have getLocksByWhereStr := @RowLoop.endsInTime_iff _ _
    (dbmsGetLocksByWhereStr request whereStr) locks (scanRow request)
    (fun _ _ => rfl)
  have fillDeadProperty := @RowLoop.endsInTime_iff _ _
    (dbmsFillDeadProperty serialno) properties
    (fun pr row => pr ++ [filledProperty row]) (fun _ _ => rfl)
  rw [escquery_locknullLoop, decide_eq_true_eq] at deleteExpLocks
  rw [escquery_dbmsGetLocksByWhereStr, decide_eq_true_eq] at getLocksByWhereStr
  rw [escquery_dbmsFillDeadProperty] at fillDeadProperty
  have entered : (locknullLoop expLockIds).onError = true := rfl
  have left : (dbmsGetLocksByWhereStr request whereStr).onError = false := rfl
  have skipped : (dbmsFillDeadProperty serialno).onError = false := rfl
  rw [entered] at deleteExpLocks
  rw [left] at getLocksByWhereStr
  rw [skipped] at fillDeadProperty
  constructor
  · rintro ⟨first, second, third⟩
    rw [deleteExpLocks] at first
    rw [getLocksByWhereStr] at second
    rw [fillDeadProperty] at third
    exact ⟨by simpa using first, by simpa using second, by simpa using third⟩
  · rintro ⟨first, second, third⟩
    constructor
    · rw [deleteExpLocks]
      simpa using first
    · rw [getLocksByWhereStr]
      simpa using second
    · rw [fillDeadProperty]
      simpa using third

/-- Without its results the loop of `dbms_delete_exp_locks` goes on. -/
theorem not_forall_endInTime :
    ¬ ∀ (locknulls : Answer Id) (locks : Answer QueryRow)
      (properties : Answer (Property × (Id × Text))),
        EndInTime "1".toList "locks_resources.resource_id=1".toList
          ⟨fun _ => 0, 0, 1, [], true⟩ 1 locknulls locks properties := by
  intro always
  have ends := (always .refused .refused .refused).deleteExpLocks
  rw [@RowLoop.endsInTime_iff _ _ (locknullLoop "1".toList) .refused
    (fun ids resId => some (ids.elim (toString resId).toList
      fun _ => ',' :: (toString resId).toList))
    (fun _ _ => rfl)] at ends
  rcases ends with ⟨-, ⟨-, skipped⟩ | ⟨rows, complete⟩⟩
  · cases skipped
  · cases complete

end Limestone.RowLoops
