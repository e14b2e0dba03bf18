import Limestone.GroupChanges
import Limestone.GroupClosure

/-!
# The members that a request sets

A request that succeeds leaves the principals with a listed name that were
members before, and for every listed name the principal whose row the
database has returned last.  These are the listed principals iff principals
that share a name do not interfere and no new member is called `-to-remove-`
or has an empty name; a question mark in a name keeps the query from being
sent.
-/

namespace Limestone.GroupMemberSet

open Library
open AclLiveprops
open BridgeProperty (DavReposResource PrincipalRow)
open DbmsPrincipal
open GroupChanges

variable {server : Server} {database : Database} {iteration : HashOrder}
  {tables : MemberTables} {resource : DavReposResource} {hrefs : List Text}
  {operation : PropOp} {context : MemberHash} {prin : PrincipalRow}
  {groups result : GroupTables} {groupId : Id}

/-! ## The removals and the additions -/

theorem groupMembers_sabridgeRemPrinFrmGrp
    {grpId prinId : Id}
    (success : sabridgeRemPrinFrmGrp groups grpId prinId = .ok result) :
    result.groupMembers =
      groups.groupMembers.filter fun row =>
        !(row.groupId == grpId && row.memberId == prinId) := by
  rcases bind_eq_ok.mp success with ⟨rows, -, ended⟩
  rcases Except.ok.inj ended with rfl
  rfl

/-- The removals take the rows of the removed members and no others. -/
theorem foldlM_removeMember
    {prins : List DavReposResource}
    (success : prins.foldlM (removeMember resource) groups = .ok result) :
    result.groupMembers = groups.groupMembers.filter fun row =>
      !(row.groupId == resource.serialno &&
        prins.any fun prin => prin.serialno == row.memberId) := by
  induction prins generalizing groups with
  | nil =>
      rcases Except.ok.inj success with rfl
      simp
  | cons prin prins induction =>
      rw [List.foldlM_cons] at success
      rcases bind_eq_ok.mp success with ⟨next, first, rest⟩
      rw [removeMember, mapError_eq_ok] at first
      rw [induction rest, groupMembers_sabridgeRemPrinFrmGrp first,
        List.filter_filter]
      apply List.filter_congr
      intro row _
      rw [List.any_cons, Bool.and_or_distrib_left, Bool.not_or, Bool.and_comm,
        BEq.comm (a := row.memberId)]

/-- The row that an addition inserts. -/
def addedRow (groupId : Id) (entry : Sigma fun _ : Text => MemberValue) :
    Option GroupMember :=
  match entry.2 with
  | .principal prin => some ⟨groupId, prin.serialno⟩
  | _ => none

/-- The additions insert a row for every record, and nothing else is read. -/
theorem foldlM_addMember
    {entries : List (Sigma fun _ : Text => MemberValue)}
    (success : entries.foldlM (addMember database resource) groups =
      .ok result) :
    (∀ entry ∈ entries, ∃ prin, entry.2 = .principal prin) ∧
      result.groupMembers = groups.groupMembers ++
        entries.filterMap (addedRow resource.serialno) := by
  induction entries generalizing groups with
  | nil =>
      rcases Except.ok.inj success with rfl
      simp
  | cons entry entries induction =>
      rw [List.foldlM_cons] at success
      rcases bind_eq_ok.mp success with ⟨next, first, rest⟩
      rcases induction rest with ⟨records, appended⟩
      rcases entry with ⟨name, value⟩
      cases value with
      | principal prin =>
          rw [addMember, mapError_eq_ok] at first
          rcases GroupClosure.sabridgeAddPrinToGrp_eq_ok.mp first with
            ⟨-, -, -, rows, -, -, rfl⟩
          refine ⟨List.forall_mem_cons.mpr ⟨⟨prin, rfl⟩, records⟩, ?_⟩
          rw [appended, List.filterMap_cons, List.append_assoc]
          rfl
      | empty => cases first
      | removals prins => cases first

theorem mapError_ne_undefined
    {α : Type} {call : Except DavError α} :
    call.mapError PatchFailure.error ≠ .error .undefined := by
  cases call with
  | error failure => simp [Except.mapError]
  | ok value => simp [Except.mapError]

/-- A step that is undefined reads a value that is no record. -/
theorem addMember_eq_undefined
    {entry : Sigma fun _ : Text => MemberValue}
    (undefined : addMember database resource groups entry =
      .error .undefined) :
    ∀ prin, entry.2 ≠ .principal prin := by
  intro prin record
  rcases entry with ⟨name, value⟩
  rcases record with rfl
  exact mapError_ne_undefined undefined

/-! ## The execution -/

/-- The hash as the additions iterate over it. -/
def additions (iteration : HashOrder) (context : MemberHash) :
    List (Sigma fun _ : Text => MemberValue) :=
  iteration.arrange (aprHashSet context toRemoveKey none).entries

theorem mem_additions {name : Text} {value : MemberValue} :
    (⟨name, value⟩ : Sigma fun _ : Text => MemberValue) ∈
        additions iteration context ↔
      name ≠ toRemoveKey ∧ context.lookup name = some value := by
  rw [additions, (iteration.perm _).mem_iff, ← AList.mem_lookup_iff]
  by_cases reserved : name = toRemoveKey
  · rw [reserved, lookup_aprHashSet]
    simp
  · rw [lookup_aprHashSet_of_ne reserved]
    simp [reserved]

theorem readRemovals_eq
    {removed : List DavReposResource}
    (toRemove : context.lookup toRemoveKey =
      if removed = [] then none else some (.removals removed)) :
    readRemovals (context.lookup toRemoveKey) = .ok removed := by
  rw [toRemove]
  by_cases empty : removed = []
  · rw [if_pos empty, empty]
    rfl
  · rw [if_neg empty]
    rfl

/-- What an execution that succeeds has left. -/
theorem davAclPatchExec_eq_ok
    {removed : List DavReposResource}
    (toRemove : context.lookup toRemoveKey =
      if removed = [] then none else some (.removals removed))
    (success : davAclPatchExec database iteration tables resource context =
      .ok result) :
    (∀ entry ∈ additions iteration context,
        ∃ prin, entry.2 = .principal prin) ∧
      result.groupMembers =
        (tables.groupMembers.filter fun row =>
          !(row.groupId == resource.serialno &&
            removed.any fun prin => prin.serialno == row.memberId)) ++
          (additions iteration context).filterMap
            (addedRow resource.serialno) := by
  rw [davAclPatchExec, readRemovals_eq toRemove] at success
  rcases bind_eq_ok.mp success with ⟨prins, read, rest⟩
  rcases Except.ok.inj read with rfl
  rcases bind_eq_ok.mp rest with ⟨groups, removals, added⟩
  rcases foldlM_addMember added with ⟨records, appended⟩
  rw [appended, foldlM_removeMember removals]
  exact ⟨records, rfl⟩

/-- An execution is undefined at a value that is no record. -/
theorem davAclPatchExec_eq_undefined
    {removed : List DavReposResource}
    (toRemove : context.lookup toRemoveKey =
      if removed = [] then none else some (.removals removed))
    (undefined : davAclPatchExec database iteration tables resource context =
      .error .undefined) :
    ∃ entry ∈ additions iteration context,
      ∀ prin, entry.2 ≠ .principal prin := by
  rw [davAclPatchExec, readRemovals_eq toRemove] at undefined
  have steps : (removed.foldlM (removeMember resource) tables.toGroupTables >>=
      fun groups => (additions iteration context).foldlM
        (addMember database resource) groups) = .error .undefined :=
    undefined
  cases removals : removed.foldlM (removeMember resource)
      tables.toGroupTables with
  | error failure =>
      rw [removals] at steps
      rcases Except.error.inj steps with rfl
      rcases Loop.foldlM_eq_error removals with ⟨reached, prin, -, step⟩
      exact (mapError_ne_undefined step).elim
  | ok groups =>
      rw [removals] at steps
      rcases Loop.foldlM_eq_error steps with ⟨reached, entry, member, step⟩
      exact ⟨entry, member, addMember_eq_undefined step⟩

/-! ## The members afterwards -/

instance (prin : PrincipalRow) : Decidable (Listed server tables hrefs prin) :=
  inferInstanceAs (Decidable (_ ∧ ∃ href ∈ hrefs, ∃ row ∈ tables.resources,
    row.id = prin.resourceId ∧
      server.davXmlGetCdata href = principalUrl server row.type prin.name))

/-- The ids of the listed principals. -/
def listedIds (server : Server) (tables : MemberTables) (hrefs : List Text) :
    List Id :=
  (tables.principals.filter fun prin => Listed server tables hrefs prin).map
    PrincipalRow.resourceId

/-- The members are the listed principals, and no row is written anew. -/
structure SetsMembers (server : Server) (tables : MemberTables)
    (groupId : Id) (hrefs : List Text) (result : GroupTables) : Prop where
  members : ∀ id, ⟨groupId, id⟩ ∈ result.groupMembers ↔
    id ∈ listedIds server tables hrefs
  kept : (tables.groupMembers.filter fun row =>
      row.groupId ≠ groupId ∨
        row.memberId ∈ listedIds server tables hrefs) <+:
    result.groupMembers

/-- The principal of the row that is returned last for its name. -/
def IsLast (rows : List ChangeRow) (prin : PrincipalRow) : Prop :=
  ∃ row, lastRow rows prin.name = some row ∧ row.id = some prin.resourceId

/-- A principal that a row makes a member. -/
def IsAddable (rows : List ChangeRow) (prin : PrincipalRow) : Prop :=
  prin.name ≠ [] ∧ prin.name ≠ toRemoveKey ∧ IsLast rows prin

/--
No listed name has a question mark, and of the principals with a listed name
exactly the members and the ones that a row makes members are listed.
-/
structure IsSettable (server : Server) (tables : MemberTables)
    (groupId : Id) (hrefs : List Text) (rows : List ChangeRow) : Prop where
  noMark : ∀ prin, Listed server tables hrefs prin → '?' ∉ prin.name
  listed : ∀ prin ∈ tables.principals,
    (∃ other, Listed server tables hrefs other ∧ other.name = prin.name) →
      (Listed server tables hrefs prin ↔
        IsMember tables groupId prin ∨ IsAddable rows prin)

theorem mem_listedIds (member : prin ∈ tables.principals) :
    prin.resourceId ∈ listedIds server tables hrefs ↔
      Listed server tables hrefs prin := by
  rw [listedIds, List.mem_map]
  constructor
  · rintro ⟨other, filtered, same⟩
    rcases List.mem_filter.mp filtered with ⟨otherMember, isListed⟩
    rcases prin_eq_of_resourceId_eq otherMember member same with rfl
    exact of_decide_eq_true isListed
  · intro isListed
    exact ⟨prin, List.mem_filter.mpr ⟨member, decide_eq_true isListed⟩, rfl⟩

section Sent

variable {rows : List ChangeRow} {removed : List DavReposResource}
  (validated : Validated server tables resource hrefs rows context removed)

include validated

/-- What the hash has is the record of a row or an empty name. -/
theorem lookup_cases
    {name : Text} {value : MemberValue}
    (other : name ≠ toRemoveKey) (found : context.lookup name = some value) :
    name ∈ readNames server hrefs ∧
      ((name = [] ∧ value = .empty ∧
          ∀ prin ∈ tables.principals, prin.name = [] →
            ¬ IsMember tables resource.serialno prin) ∨
        name ≠ [] ∧ ∃ prin ∈ tables.principals, ∃ row, prin.name = name ∧
          lastRow rows name = some row ∧
          IsNamedRow tables resource.serialno prin row ∧
          ¬ IsMember tables resource.serialno prin ∧
          value = .principal (changedPrin resource row)) := by
  have read : name ∈ readNames server hrefs := by
    by_contra unread
    rw [validated.unread name other unread] at found
    cases found
  refine ⟨read, ?_⟩
  by_cases empty : name = []
  · rcases empty with rfl
    have fresh : ∀ prin ∈ tables.principals, prin.name = [] →
        ¬ IsMember tables resource.serialno prin := by
      intro prin member same isMember
      rw [validated.blankMember prin member same read isMember] at found
      cases found
    rw [validated.blank read fresh] at found
    exact Or.inl ⟨rfl, (Option.some.inj found).symm, fresh⟩
  · right
    rcases validated.named name read other empty with
      ⟨prin, member, row, same, last, isRow, lookup⟩
    rw [lookup, rowValue] at found
    split at found
    next => cases found
    next fresh =>
        refine ⟨empty, prin, member, row, same, last, isRow, ?_,
          (Option.some.inj found).symm⟩
        exact fun isMember => fresh (isRow.already.mpr isMember)

/-- The rows that are added are those of the principals returned last. -/
theorem mem_added {id : Id} :
    (⟨resource.serialno, id⟩ : GroupMember) ∈
        (additions iteration context).filterMap
          (addedRow resource.serialno) ↔
      ∃ prin ∈ tables.principals, prin.resourceId = id ∧
        prin.name ∈ readNames server hrefs ∧ IsAddable rows prin ∧
        ¬ IsMember tables resource.serialno prin := by
  rw [List.mem_filterMap]
  constructor
  · rintro ⟨⟨name, value⟩, iterated, added⟩
    rcases mem_additions.mp iterated with ⟨other, found⟩
    rcases lookup_cases validated other found with
      ⟨read, ⟨-, rfl, -⟩ |
        ⟨nonempty, prin, member, row, rfl, last, isRow, fresh, rfl⟩⟩
    · cases added
    · have sameId : (changedPrin resource row).serialno = prin.resourceId := by
        rw [changedPrin, isRow.id, Option.getD_some]
      have same := congrArg GroupMember.memberId (Option.some.inj added)
      exact ⟨prin, member, sameId.symm.trans same, read,
        ⟨nonempty, other, row, last, isRow.id⟩, fresh⟩
  · rintro ⟨prin, member, rfl, read, ⟨nonempty, other, row, last, rowId⟩, fresh⟩
    rcases validated.named prin.name read other nonempty with
      ⟨found, foundMember, found_row, same, foundLast, isRow, lookup⟩
    have sameRow : found_row = row :=
      Option.some.inj (foundLast.symm.trans last)
    rcases sameRow with rfl
    have sameId : found.resourceId = prin.resourceId :=
      Option.some.inj (isRow.id.symm.trans rowId)
    rcases prin_eq_of_resourceId_eq foundMember member sameId with rfl
    have notYet : ¬ found_row.isAlreadyAMember = some true :=
      fun already => fresh (isRow.already.mp already)
    rw [rowValue, if_neg notYet] at lookup
    refine ⟨⟨found.name, _⟩, mem_additions.mpr ⟨other, lookup⟩, ?_⟩
    show some (GroupMember.mk _ (changedPrin resource found_row).serialno) = _
    rw [changedPrin, isRow.id, Option.getD_some]

/-- The rows that are kept are those of members whose names are read. -/
theorem mem_notRemoved
    (member : prin ∈ tables.principals) :
    (⟨resource.serialno, prin.resourceId⟩ : GroupMember) ∈
        (tables.groupMembers.filter fun row =>
          !(row.groupId == resource.serialno &&
            removed.any fun other => other.serialno == row.memberId)) ↔
      IsMember tables resource.serialno prin ∧
        prin.name ∈ readNames server hrefs := by
  rw [List.mem_filter]
  refine and_congr_right fun isMember => ?_
  have removal := validated.removed prin member isMember
  rw [← not_iff_not, ← removal]
  simp

/-- The members that a request that succeeds leaves. -/
theorem mem_result
    (success : davAclPatchExec database iteration tables resource context =
      .ok result)
    (member : prin ∈ tables.principals) :
    (⟨resource.serialno, prin.resourceId⟩ : GroupMember) ∈
        result.groupMembers ↔
      prin.name ∈ readNames server hrefs ∧
        (IsMember tables resource.serialno prin ∨ IsAddable rows prin) := by
  rcases davAclPatchExec_eq_ok validated.toRemove success with ⟨-, left⟩
  rw [left, List.mem_append, mem_notRemoved validated member,
    mem_added validated]
  constructor
  · rintro (⟨isMember, read⟩ | ⟨other, otherMember, same, read, addable, -⟩)
    · exact ⟨read, Or.inl isMember⟩
    · rcases prin_eq_of_resourceId_eq otherMember member same with rfl
      exact ⟨read, Or.inr addable⟩
  · rintro ⟨read, settled⟩
    by_cases isMember : IsMember tables resource.serialno prin
    · exact Or.inl ⟨isMember, read⟩
    · exact Or.inr ⟨prin, member, rfl, read,
        settled.resolve_left isMember, isMember⟩

/-- Every member that is left is a principal. -/
theorem exists_prin_of_mem_result
    {id : Id}
    (success : davAclPatchExec database iteration tables resource context =
      .ok result)
    (left : (⟨resource.serialno, id⟩ : GroupMember) ∈ result.groupMembers) :
    ∃ prin ∈ tables.principals, prin.resourceId = id := by
  rw [(davAclPatchExec_eq_ok validated.toRemove success).2] at left
  rcases List.mem_append.mp left with kept | added
  · exact tables.member _ (List.mem_filter.mp kept).1
  · rcases (mem_added validated).mp added with ⟨prin, member, same, -⟩
    exact ⟨prin, member, same⟩

/-- When a request that succeeds has set the members. -/
theorem setsMembers_iff
    (allNamed : AllNamed server tables hrefs)
    (noMark : ∀ name ∈ readNames server hrefs, '?' ∉ name)
    (success : davAclPatchExec database iteration tables resource context =
      .ok result) :
    SetsMembers server tables resource.serialno hrefs result ↔
      IsSettable server tables resource.serialno hrefs rows := by
  have read : ∀ name, name ∈ readNames server hrefs ↔
      ∃ other, Listed server tables hrefs other ∧ other.name = name :=
    fun name => mem_readNames allNamed
  constructor
  · intro sets
    refine ⟨fun prin isListed => noMark _ ((read _).mpr ⟨prin, isListed, rfl⟩),
      fun prin member shares => ?_⟩
    rw [← mem_listedIds member, ← sets.members,
      mem_result validated success member]
    exact and_iff_right ((read _).mpr shares)
  · intro settable
    have left : ∀ prin ∈ tables.principals,
        (⟨resource.serialno, prin.resourceId⟩ : GroupMember) ∈
            result.groupMembers ↔
          prin.resourceId ∈ listedIds server tables hrefs := by
      intro prin member
      rw [mem_result validated success member, mem_listedIds member]
      constructor
      · rintro ⟨isRead, settled⟩
        exact (settable.listed prin member ((read _).mp isRead)).mpr settled
      · intro isListed
        exact ⟨(read _).mpr ⟨prin, isListed, rfl⟩,
          (settable.listed prin member ⟨prin, isListed, rfl⟩).mp isListed⟩
    constructor
    · intro id
      constructor
      · intro isLeft
        rcases exists_prin_of_mem_result validated success isLeft with
          ⟨prin, member, rfl⟩
        exact (left prin member).mp isLeft
      · intro isListed
        rcases List.mem_map.mp isListed with ⟨prin, filtered, rfl⟩
        exact (left prin (List.mem_filter.mp filtered).1).mpr isListed
    · rw [(davAclPatchExec_eq_ok validated.toRemove success).2]
      have same : (tables.groupMembers.filter fun row =>
          row.groupId ≠ resource.serialno ∨
            row.memberId ∈ listedIds server tables hrefs) =
          tables.groupMembers.filter fun row =>
            !(row.groupId == resource.serialno &&
              removed.any fun other => other.serialno == row.memberId) := by
        apply List.filter_congr
        rintro ⟨groupId, memberId⟩ stored
        by_cases ofGroup : groupId = resource.serialno
        · rcases ofGroup with rfl
          rcases tables.member _ stored with ⟨prin, member, sameId⟩
          rcases sameId with rfl
          have kept : prin.resourceId ∈ listedIds server tables hrefs ↔
              ¬ ∃ other ∈ removed, other.serialno = prin.resourceId := by
            rw [validated.removed prin member stored, not_not,
              mem_listedIds member, read]
            constructor
            · exact fun isListed => ⟨prin, isListed, rfl⟩
            · exact fun shares =>
                (settable.listed prin member shares).mpr (Or.inl stored)
          rw [Bool.eq_iff_iff]
          simp [kept]
        · simp [ofGroup]
      rw [same]
      exact List.prefix_append _ _

/-- For a settable list every value of the hash is a record. -/
theorem exec_ne_undefined
    (allNamed : AllNamed server tables hrefs)
    (settable : IsSettable server tables resource.serialno hrefs rows) :
    davAclPatchExec database iteration tables resource context ≠
      .error .undefined := by
  intro undefined
  rcases davAclPatchExec_eq_undefined validated.toRemove undefined with
    ⟨⟨name, value⟩, iterated, noRecord⟩
  rcases mem_additions.mp iterated with ⟨other, found⟩
  rcases lookup_cases validated other found with
    ⟨read, ⟨rfl, -, fresh⟩ | ⟨-, prin, -, row, -, -, -, -, record⟩⟩
  · rcases (mem_readNames allNamed).mp read with ⟨prin, isListed, empty⟩
    rcases (settable.listed prin isListed.1 ⟨prin, isListed, rfl⟩).mp
        isListed with isMember | addable
    · exact fresh prin isListed.1 empty isMember
    · exact addable.1 empty
  · exact noRecord _ record

end Sent

/-! ## Unique names -/

/-- The listed principals that would not become members. -/
structure IsReserved (tables : MemberTables) (groupId : Id)
    (prin : PrincipalRow) : Prop where
  fresh : ¬ IsMember tables groupId prin
  name : prin.name = [] ∨ prin.name = toRemoveKey

/-- With `sk_principals_name` only the names themselves are in the way. -/
theorem isSettable_iff_of_nodup
    (sk_principals_name : (tables.principals.map PrincipalRow.name).Nodup)
    (allNamed : AllNamed server tables hrefs) :
    IsSettable server tables groupId hrefs
        (returnedRows server database iteration tables groupId hrefs) ↔
      ∀ prin, Listed server tables hrefs prin →
        '?' ∉ prin.name ∧ ¬ IsReserved tables groupId prin := by
  have unique : ∀ prin ∈ tables.principals, ∀ other ∈ tables.principals,
      prin.name = other.name → prin = other :=
    fun prin member other otherMember =>
      List.inj_on_of_nodup_map sk_principals_name member otherMember
  constructor
  · intro settable prin isListed
    refine ⟨settable.noMark prin isListed, fun reserved => ?_⟩
    rcases (settable.listed prin isListed.1 ⟨prin, isListed, rfl⟩).mp
        isListed with isMember | addable
    · exact reserved.fresh isMember
    · rcases reserved.name with empty | key
      · exact addable.1 empty
      · exact addable.2.1 key
  · intro named
    refine ⟨fun prin isListed => (named prin isListed).1, ?_⟩
    rintro prin member ⟨other, isListed, same⟩
    rcases unique other isListed.1 prin member same with rfl
    refine iff_of_true isListed ?_
    by_cases isMember : IsMember tables groupId other
    · exact Or.inl isMember
    · have nonempty : other.name ≠ [] := fun empty =>
        (named other isListed).2 ⟨isMember, Or.inl empty⟩
      have notKey : other.name ≠ toRemoveKey := fun key =>
        (named other isListed).2 ⟨isMember, Or.inr key⟩
      have read : other.name ∈ readNames server hrefs :=
        (mem_readNames allNamed).mpr ⟨other, isListed, rfl⟩
      have found : ∃ prin ∈ tables.principals, ∃ row, prin.name = other.name ∧
          lastRow (returnedRows server database iteration tables groupId
            hrefs) other.name = some row ∧
          IsNamedRow tables groupId prin row :=
        exists_lastRow allNamed read
      rcases found with ⟨prin, prinMember, row, sameName, last, isRow⟩
      rcases unique prin prinMember other member sameName with rfl
      exact Or.inr ⟨nonempty, notKey, row, last, isRow.id⟩

/-! ## The property -/

/--
A validation that fails changes nothing.  A request that does not fail leaves
the listed principals as the members, with the rows of those that were
members before, iff the list is settable.
-/
theorem davAclPatch_iff
    (server : Server) (database : Database) (iteration : HashOrder)
    (tables : MemberTables) (resource : DavReposResource)
    (operation : PropOp) (hrefs : List Text)
    (allNamed : AllNamed server tables hrefs) :
    (∀ err,
      davAclPatchValidate server database iteration tables resource operation
          hrefs = .error err →
        afterPatch server database iteration tables resource operation hrefs =
          tables.toGroupTables) ∧
    ((∀ err,
      davAclPatch server database iteration tables resource operation hrefs ≠
        .error (.error err)) →
      ((∃ result,
        davAclPatch server database iteration tables resource operation hrefs =
            .ok result ∧
          SetsMembers server tables resource.serialno hrefs result) ↔
        IsSettable server tables resource.serialno hrefs
          (returnedRows server database iteration tables resource.serialno
            hrefs))) := by
  constructor
  · intro err invalid
    rw [afterPatch, davAclPatch, invalid]
  · intro noError
    rw [davAclPatch] at noError ⊢
    cases valid : davAclPatchValidate server database iteration tables resource
        operation hrefs with
    | error err =>
        rw [valid] at noError
        exact (noError err rfl).elim
    | ok context =>
        rw [valid] at noError
        rcases davAclPatchValidate_spec allNamed valid with
          ⟨name, read, mark, other, found, toRemove⟩ |
            ⟨noMark, removed, validated⟩
        · -- the value of the name is still the empty string
          refine iff_of_false ?_ ?_
          · rintro ⟨result, success, -⟩
            have noRemovals : context.lookup toRemoveKey =
                if ([] : List DavReposResource) = [] then none
                else some (.removals []) :=
              toRemove
            rcases (davAclPatchExec_eq_ok noRemovals success).1 _
                (mem_additions.mpr ⟨other, found⟩) with ⟨prin, record⟩
            cases record
          · intro settable
            rcases (mem_readNames allNamed).mp read with
              ⟨prin, isListed, rfl⟩
            exact settable.noMark prin isListed mark
        · constructor
          · rintro ⟨result, success, sets⟩
            exact (setsMembers_iff validated allNamed noMark success).mp sets
          · intro settable
            cases outcome : davAclPatchExec database iteration tables resource
                context with
            | ok result =>
                exact ⟨result, outcome, (setsMembers_iff validated allNamed
                  noMark outcome).mpr settable⟩
            | error failure =>
                cases failure with
                | error err => exact (noError err outcome).elim
                | undefined =>
                    exact (exec_ne_undefined validated allNamed settable
                      outcome).elim

section Examples

/-- The server of the examples. -/
def exampleServer : Server where
  serverHostname := "h".toList
  port := 80
  davXmlGetCdata := id

/-- A database that does not fail and returns rows as it stores them. -/
def exampleDatabase : Database where
  schema := .indexed
  fails := false
  members := Sql.RowOrder.stored MemberRow
  changes := Sql.RowOrder.stored ChangeRow

/-- A hash that is iterated over as it is stored. -/
def exampleOrder : HashOrder where
  arrange entries := entries
  perm := List.Perm.refl

/-- A group with one member and one user that is to be a member. -/
def exampleTables (name : Text) (segment : '/' ∉ name) : MemberTables where
  groupMembers := [⟨1, 2⟩]
  transitiveGroupMembers := [⟨1, 2, 1⟩]
  principals := [⟨1, ['g']⟩, ⟨2, ['a']⟩, ⟨3, name⟩]
  resources := [⟨1, .group⟩, ⟨2, .user⟩, ⟨3, .user⟩]
  idKey := by decide
  resourceIdKey := by
    show ([1, 2, 3] : List Id).Nodup
    decide
  positive := by decide
  resource := by simp
  member := by simp
  segment := by
    intro prin member
    simp only [List.mem_cons, List.not_mem_nil, or_false] at member
    rcases member with rfl | rfl | rfl
    · decide
    · decide
    · exact segment

/-- The record of the group. -/
def exampleGroup : DavReposResource where
  serialno := 1
  resourcetype := some .group

/-- A list that keeps the member and names the user. -/
def exampleHrefs (name : Text) : List Text :=
  ["http://h/users/a".toList, "http://h/users/".toList ++ name]

theorem allNamed_example :
    AllNamed exampleServer (exampleTables ['b'] (by decide))
      (exampleHrefs ['b']) := by
  unfold AllNamed Names
  decide +kernel

theorem setsMembers_example :
    ∃ result,
      davAclPatch exampleServer exampleDatabase exampleOrder
          (exampleTables ['b'] (by decide)) exampleGroup .set
          (exampleHrefs ['b']) = .ok result ∧
        SetsMembers exampleServer (exampleTables ['b'] (by decide)) 1
          (exampleHrefs ['b']) result := by
  have outcome : davAclPatch exampleServer exampleDatabase exampleOrder
      (exampleTables ['b'] (by decide)) exampleGroup .set
      (exampleHrefs ['b']) =
        .ok ⟨[⟨1, 2⟩, ⟨1, 3⟩], [⟨1, 2, 1⟩, ⟨1, 3, 1⟩]⟩ := by
    decide +kernel
  apply ((davAclPatch_iff exampleServer exampleDatabase exampleOrder
    (exampleTables ['b'] (by decide)) exampleGroup .set (exampleHrefs ['b'])
    allNamed_example).2 ?_).mpr
  · apply (isSettable_iff_of_nodup (by decide) allNamed_example).mpr
    rintro prin ⟨member, -⟩
    have named : prin.name ∈ [['g'], ['a'], ['b']] :=
      List.mem_map_of_mem member
    have plain : ∀ name ∈ [['g'], ['a'], ['b']],
        '?' ∉ name ∧ ¬ (name = [] ∨ name = toRemoveKey) := by
      decide
    rcases plain prin.name named with ⟨noMark, notReserved⟩
    exact ⟨noMark, fun reserved => notReserved reserved.name⟩
  · intro err failed
    rw [outcome] at failed
    cases failed

/-- The user `-to-remove-` is listed and does not become a member. -/
theorem not_setsMembers :
    ¬ ∀ (server : Server) (database : Database) (iteration : HashOrder)
      (tables : MemberTables) (resource : DavReposResource)
      (operation : PropOp) (hrefs : List Text),
      AllNamed server tables hrefs →
      (∀ prin, Listed server tables hrefs prin →
        ¬ (GroupClosure.membership tables.toGroupTables).Reaches
          prin.resourceId resource.serialno) →
      ∀ result,
        davAclPatch server database iteration tables resource operation
            hrefs = .ok result →
          SetsMembers server tables resource.serialno hrefs result := by
  intro always
  have outcome : davAclPatch exampleServer exampleDatabase exampleOrder
      (exampleTables toRemoveKey (by decide)) exampleGroup .set
      (exampleHrefs toRemoveKey) = .ok ⟨[⟨1, 2⟩], [⟨1, 2, 1⟩]⟩ := by
    decide +kernel
  have named : AllNamed exampleServer (exampleTables toRemoveKey (by decide))
      (exampleHrefs toRemoveKey) := by
    unfold AllNamed Names
    decide +kernel
  have forward : ∀ prin, Listed exampleServer
      (exampleTables toRemoveKey (by decide)) (exampleHrefs toRemoveKey) prin →
        ¬ (GroupClosure.membership (exampleTables toRemoveKey
          (by decide)).toGroupTables).Reaches prin.resourceId
            exampleGroup.serialno := by
    intro prin isListed reaches
    have group : prin.resourceId = 1 := by
      have closed : exampleGroup.serialno = prin.resourceId := by
        apply reaches.mem_of_closed_back rfl
        intro row present target
        rcases List.mem_singleton.mp present with rfl
        exact absurd target (by decide)
      exact closed.symm
    have listed := (mem_listedIds isListed.1).mpr isListed
    have others : listedIds exampleServer
        (exampleTables toRemoveKey (by decide)) (exampleHrefs toRemoveKey) =
          [2, 3] := by
      decide +kernel
    rw [others, group] at listed
    exact absurd listed (by decide)
  have sets := always exampleServer exampleDatabase exampleOrder
    (exampleTables toRemoveKey (by decide)) exampleGroup .set
    (exampleHrefs toRemoveKey) named forward _ outcome
  have listed : (3 : Id) ∈ listedIds exampleServer
      (exampleTables toRemoveKey (by decide)) (exampleHrefs toRemoveKey) := by
    decide +kernel
  have left := (sets.members 3).mpr listed
  revert left
  decide

end Examples

end Limestone.GroupMemberSet
