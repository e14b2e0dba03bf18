import Limestone.DbmsDbd
import Limestone.LockNull

/-!
# Locks below a removed resource: `dbms_remove_direct_locks_w_prefix`

The locks are chosen with `LIKE` by a pattern that is the URI of the resource
and a percent sign.  Nothing separates the two, and the characters of the URI
that mean something in a pattern are not escaped.
-/

namespace Limestone.DirectLocks

open Library
open Library.SqlText
open DbmsBind
open DbmsDbd
open DbmsLocks

/-! ## The function -/

/-- `apr_psprintf(pool, "%s%%", lockroot_prefix)`. -/
def rootPattern (lockrootPrefix : Text) : Text :=
  lockrootPrefix ++ ['%']

/-- `dbms_remove_direct_locks_w_prefix`. -/
def dbmsRemoveDirectLocksWPrefix (tables : LockTables)
    (lockrootPrefix : Text) : LockTables :=
  deleteLocks tables ((tables.locks.filter fun lock =>
    like lock.lockroot (rootPattern lockrootPrefix)).map LockRow.id)

/-! ## What is deleted -/

/-- The URI, or the URI followed by a slash and more. -/
def InSubtree (uri lockroot : Text) : Prop :=
  lockroot = uri ∨
    (uri ++ ['/'] <+: lockroot ∧ lockroot ≠ uri ++ ['/'])

instance instDecidableInSubtree (uri lockroot : Text) :
    Decidable (InSubtree uri lockroot) :=
  inferInstanceAs (Decidable (_ ∨ (_ ∧ _)))

/-- The locks of the subtree go, and no other. -/
def RemovesSubtree (tables : LockTables) (uri : Text) (left : LockTables) :
    Prop :=
  ∀ lock, lock ∈ left.locks ↔
    lock ∈ tables.locks ∧ ¬ InSubtree uri lock.lockroot

section Removing

variable {tables : LockTables} {uri : Text}

theorem mem_dbmsRemoveDirectLocksWPrefix
    (locksPkey : (tables.locks.map LockRow.id).Nodup)
    {lock : LockRow} :
    lock ∈ (dbmsRemoveDirectLocksWPrefix tables uri).locks ↔
      lock ∈ tables.locks ∧ like lock.lockroot (rootPattern uri) = false := by
  rw [dbmsRemoveDirectLocksWPrefix, LockNull.mem_deleteLocks]
  apply and_congr_right
  intro listed
  constructor
  · intro kept
    rw [← Bool.not_eq_true]
    intro matched
    exact kept (List.mem_map.mpr
      ⟨lock, List.mem_filter.mpr ⟨listed, matched⟩, rfl⟩)
  · intro unmatched deleted
    rcases List.mem_map.mp deleted with ⟨other, member, same⟩
    rcases List.mem_filter.mp member with ⟨otherListed, matched⟩
    have equal : other = lock :=
      List.inj_on_of_nodup_map locksPkey otherListed listed same
    rw [equal, unmatched] at matched
    cases matched

/-- The subtree goes iff the pattern matches its lock roots and no other. -/
theorem removesSubtree_iff_like
    (locksPkey : (tables.locks.map LockRow.id).Nodup) :
    RemovesSubtree tables uri (dbmsRemoveDirectLocksWPrefix tables uri) ↔
      ∀ lock ∈ tables.locks,
        like lock.lockroot (rootPattern uri) = true ↔
          InSubtree uri lock.lockroot := by
  constructor
  · intro removes lock listed
    have left := removes lock
    rw [mem_dbmsRemoveDirectLocksWPrefix locksPkey] at left
    have kept : like lock.lockroot (rootPattern uri) = false ↔
        ¬ InSubtree uri lock.lockroot :=
      ⟨fun unmatched => (left.mp ⟨listed, unmatched⟩).2,
        fun outside => (left.mpr ⟨listed, outside⟩).2⟩
    rw [← Bool.not_eq_false, kept, not_not]
  · intro agree lock
    rw [mem_dbmsRemoveDirectLocksWPrefix locksPkey]
    apply and_congr_right
    intro listed
    rw [← Bool.not_eq_true, agree lock listed]

theorem InSubtree.isPrefix
    {lockroot : Text}
    (below : InSubtree uri lockroot) :
    uri <+: lockroot := by
  rcases below with rfl | ⟨isPrefix, -⟩
  · exact List.prefix_refl _
  · exact (List.prefix_append uri ['/']).trans isPrefix

/-- What the characters of the URI and of the lock roots must be like. -/
structure Separated (tables : LockTables) (uri : Text) : Prop where
  /-- No name of another lock root begins with the last name of the URI. -/
  segments : ∀ lock ∈ tables.locks, uri <+: lock.lockroot →
    ('\\' ∈ uri → GoesAlong uri lock.lockroot) → InSubtree uri lock.lockroot
  /-- No wildcard and no backslash of the URI goes along something else. -/
  wildcards : (∃ char ∈ uri, ¬ IsLiteral char) → ∀ lock ∈ tables.locks,
    GoesAlong uri lock.lockroot → uri <+: lock.lockroot
  /-- What is below the URI can be gone along with its backslashes. -/
  backslashes : '\\' ∈ uri → ∀ lock ∈ tables.locks,
    InSubtree uri lock.lockroot → GoesAlong uri lock.lockroot

/--
The locks of the subtree go, and no other, iff the pattern separates them from
the others.
-/
theorem removesSubtree_iff
    (locksPkey : (tables.locks.map LockRow.id).Nodup) :
    RemovesSubtree tables uri (dbmsRemoveDirectLocksWPrefix tables uri) ↔
      Separated tables uri := by
  rw [removesSubtree_iff_like locksPkey]
  simp only [rootPattern, like_front_iff]
  constructor
  · intro agree
    constructor
    case segments =>
      intro lock listed isPrefix goes
      apply (agree lock listed).mp
      by_cases escape : '\\' ∈ uri
      · exact goes escape
      · exact (like_front_iff uri lock.lockroot).mp
          (like_of_front escape isPrefix)
    case wildcards =>
      intro _ lock listed along
      exact ((agree lock listed).mp along).isPrefix
    case backslashes =>
      exact fun _ lock listed => (agree lock listed).mpr
  · intro separated lock listed
    constructor
    · intro along
      apply separated.segments lock listed ?_ fun _ => along
      by_cases special : ∃ char ∈ uri, ¬ IsLiteral char
      · exact separated.wildcards special lock listed along
      · push Not at special
        exact (goesAlong_of_literals special).mp along
    · intro below
      by_cases escape : '\\' ∈ uri
      · exact separated.backslashes escape lock listed below
      · exact (like_front_iff uri lock.lockroot).mp
          (like_of_front escape below.isPrefix)

end Removing

/-- `fred` holds a lock with this root. -/
def lockAt (id resourceId : Id) (lockroot : String) : LockRow where
  id := id
  uuid := []
  resourceId := resourceId
  ownerId := 9
  form := 'X'
  depth := 0
  expiresAt := 0
  ownerInfo := []
  lockroot := lockroot.toList

/-- `/a`, `/a/b` and `/ab` are locked. -/
def lockedNames : LockTables where
  resources := [(rootCollectionId, .collection), (9, .user),
    (10, .collection), (11, .resource), (12, .resource)]
  principals := [(9, "fred".toList)]
  binds := [⟨1, "a".toList, rootCollectionId, 10, none⟩,
    ⟨2, "b".toList, 10, 11, none⟩, ⟨3, "ab".toList, rootCollectionId, 12, none⟩]
  locks := [lockAt 1 10 "/a", lockAt 2 11 "/a/b", lockAt 3 12 "/ab"]
  locksResources := [(1, 10), (2, 11), (3, 12)]
  bindsLocks := [(1, 1), (2, 1), (2, 2), (3, 3)]

/-- `/ab` is removed alone. -/
theorem removesSubtree_lockedNames :
    RemovesSubtree lockedNames "/ab".toList
      (dbmsRemoveDirectLocksWPrefix lockedNames "/ab".toList) := by
  apply (@removesSubtree_iff lockedNames "/ab".toList (by decide)).mpr
  constructor
  case segments =>
    have below : ∀ lock ∈ lockedNames.locks,
        "/ab".toList <+: lock.lockroot →
          InSubtree "/ab".toList lock.lockroot := by
      decide
    exact fun lock listed isPrefix _ => below lock listed isPrefix
  case wildcards =>
    rintro ⟨char, member, special⟩
    refine (special ?_).elim
    revert char
    simp [IsLiteral]
  case backslashes =>
    intro escape
    exact absurd escape (by decide)

/-- With `/a` the lock of `/ab` goes. -/
theorem not_removesSubtree_lockedNames :
    ¬ RemovesSubtree lockedNames "/a".toList
      (dbmsRemoveDirectLocksWPrefix lockedNames "/a".toList) := by
  intro removes
  have kept := (removes (lockAt 3 12 "/ab")).mpr
    ⟨by decide, by decide⟩
  revert kept
  decide

end Limestone.DirectLocks
