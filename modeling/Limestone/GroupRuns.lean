import Limestone.GroupClosure
import Limestone.Library.Runs

/-!
# Runs of group membership calls

A run applies any calls of `principal.c` one after another, each in a request
of its own.  A call that fails aborts its transaction and leaves the tables
as they were.

Two calls break a consistent table when they succeed: the removal of a
principal that is no direct member, whose indirect paths are counted down,
and the addition of a direct member, which the membership guard looks up with
group and principal exchanged.  A legal addition is refused when the
subqueries of its `UPDATE` return several rows.
-/

namespace Limestone.GroupRuns

open Library
open DbmsPrincipal
open GroupClosure

/-! ## Calls -/

/-- A call of `principal.c`. -/
inductive Call where
  | add (grpId prinId : Id)
  | rem (grpId prinId : Id)
deriving DecidableEq, Repr

/-- The result of a call. -/
def Call.run (schema : Schema) (tables : GroupTables) :
    Call → Except DavError GroupTables
  | .add grpId prinId => sabridgeAddPrinToGrp schema tables grpId prinId
  | .rem grpId prinId => sabridgeRemPrinFrmGrp tables grpId prinId

/-- The tables after a call: those before it when it fails. -/
def Call.after (schema : Schema) (tables : GroupTables) (call : Call) :
    GroupTables :=
  match call.run schema tables with
  | .ok result => result
  | .error _ => tables

/-! ## The calls that keep the transitive table exact -/

/--
The calls that keep a consistent table consistent.  `CountsClash` makes a
call fail, the unique key does for the addition of a direct member.
-/
def KeepsCounts (schema : Schema) (tables : GroupTables) : Call → Prop
  | .add grpId prinId =>
      (⟨grpId, prinId⟩ : GroupMember) ∉ tables.groupMembers ∨
        schema = .indexed ∨ CountsClash tables grpId prinId
  | .rem grpId prinId =>
      (⟨grpId, prinId⟩ : GroupMember) ∈ tables.groupMembers ∨
        (∀ row ∈ tables.transitiveGroupMembers,
          row.key ∉
            affectedPairs tables.transitiveGroupMembers grpId prinId) ∨
        CountsClash tables grpId prinId

variable {schema : Schema} {tables result : GroupTables} {grpId prinId : Id}

theorem uniqueConstraints_iff :
    schema.uniqueConstraints = true ↔ schema = .indexed := by
  cases schema <;> simp [Schema.uniqueConstraints]

/-- The tables a successful addition leaves. -/
def added (tables : GroupTables) (grpId prinId : Id) : GroupTables :=
  let rows := bumped (· + ·) tables.transitiveGroupMembers grpId prinId
  ⟨tables.groupMembers ++ [⟨grpId, prinId⟩],
    rows ++ newRows rows grpId prinId⟩

/-- What an addition that succeeds on a consistent table has checked. -/
theorem add_eq_ok
    (consistent : Consistent tables)
    (success : sabridgeAddPrinToGrp schema tables grpId prinId = .ok result) :
    ¬ (membership tables).Reaches prinId grpId ∧
      (schema = .indexed →
        (⟨grpId, prinId⟩ : GroupMember) ∉ tables.groupMembers) ∧
      ¬ CountsClash tables grpId prinId ∧
      result = added tables grpId prinId := by
  rw [sabridgeAddPrinToGrp_eq_ok, consistent.dbmsWillLoopPrinAddGrp_eq_zero,
    uniqueConstraints_iff] at success
  rcases success with ⟨-, forward, distinct, rows, updated, -, equal⟩
  rcases consistent.updateCounts_isOk updated with ⟨noClash, rfl⟩
  refine ⟨forward, fun indexed present => ?_, noClash, equal⟩
  exact (List.nodup_append.mp (distinct indexed)).2.2 _ present _
    (List.mem_singleton_self _) rfl

/-- An addition that keeps the counts and succeeds adds a new member. -/
theorem KeepsCounts.fresh
    (keeps : KeepsCounts schema tables (.add grpId prinId))
    (consistent : Consistent tables)
    (success : sabridgeAddPrinToGrp schema tables grpId prinId = .ok result) :
    (⟨grpId, prinId⟩ : GroupMember) ∉ tables.groupMembers := by
  rcases add_eq_ok consistent success with ⟨-, absent, noClash, -⟩
  rcases keeps with fresh | indexed | clash
  · exact fresh
  · exact absent indexed
  · exact (noClash clash).elim

/-- When an addition succeeds on a consistent table, and what it leaves. -/
theorem add_eq_ok_iff
    (consistent : Consistent tables)
    (nodup : schema = .indexed → tables.groupMembers.Nodup) :
    sabridgeAddPrinToGrp schema tables grpId prinId = .ok result ↔
      ¬ (membership tables).Reaches prinId grpId ∧
      (schema = .indexed →
        (⟨grpId, prinId⟩ : GroupMember) ∉ tables.groupMembers) ∧
      ¬ CountsClash tables grpId prinId ∧
      result = added tables grpId prinId := by
  refine ⟨add_eq_ok consistent, ?_⟩
  rintro ⟨forward, absent, noClash, rfl⟩
  rw [sabridgeAddPrinToGrp_eq_ok, Consistent.dbmsIsPrinInGrp_eq_zero,
    consistent.dbmsWillLoopPrinAddGrp_eq_zero, uniqueConstraints_iff]
  refine ⟨fun back => forward ?_, forward, fun indexed => ?_,
    _, consistent.updateCounts_eq noClash,
    fun _ => consistent.inserted_keys_nodup _ forward, rfl⟩
  · exact Multigraph.reaches_of_arrow (G := membership tables) back
  · rw [List.nodup_append]
    refine ⟨nodup indexed, List.nodup_singleton _, ?_⟩
    intro row present other single equal
    apply absent indexed
    rwa [← List.mem_singleton.mp single, ← equal]

/-- A direct member leads forward only. -/
theorem forward_of_present
    (consistent : Consistent tables)
    (present : (⟨grpId, prinId⟩ : GroupMember) ∈ tables.groupMembers) :
    ¬ (membership tables).Reaches prinId grpId :=
  consistent.acyclic.not_reaches_back present

/-- Tables with one graph and one pair cannot count it differently. -/
theorem count_unique
    {other : GroupTables} {row otherRow : TransitiveGroupMember}
    (consistent : Consistent tables)
    (otherConsistent : Consistent other)
    (graph : membership other = membership tables)
    (member : row ∈ tables.transitiveGroupMembers)
    (otherMember : otherRow ∈ other.transitiveGroupMembers)
    (key : otherRow.key = row.key) :
    otherRow.transitiveCount = row.transitiveCount := by
  rcases Prod.mk.inj key with ⟨sameGroup, sameMember⟩
  have trails := consistent.trailCount_eq member
  have otherTrails := otherConsistent.trailCount_eq otherMember
  rw [graph, sameGroup, sameMember, trails] at otherTrails
  have equal : row.transitiveCount.toNat = otherRow.transitiveCount.toNat := by
    exact_mod_cast otherTrails
  have positive := (consistent.count row member).1
  have otherPositive := (otherConsistent.count otherRow otherMember).1
  omega

/-- Adding a direct member once more counts its paths twice. -/
theorem not_consistent_added
    (consistent : Consistent tables)
    (present : (⟨grpId, prinId⟩ : GroupMember) ∈ tables.groupMembers) :
    ¬ Consistent (added tables grpId prinId) := by
  intro after
  have graph : membership (added tables grpId prinId) = membership tables := by
    have arrows : ∀ row : GroupMember,
        (row ∈ tables.groupMembers ∨ row = ⟨grpId, prinId⟩) =
          (row ∈ tables.groupMembers) := by
      intro row
      apply propext
      constructor
      · rintro (member | rfl)
        · exact member
        · exact present
      · exact Or.inl
    rw [added, membership_append]
    simp only [Multigraph.extend, membership, arrows]
  rcases consistent.row_of_member present with ⟨row, member, key⟩
  have affected : row.key ∈
      affectedPairs tables.transitiveGroupMembers grpId prinId := by
    rw [key]
    exact consistent.mem_affectedPairs.mpr
      ⟨Multigraph.Reaches.refl _ _, Multigraph.Reaches.refl _ _⟩
  have updated : { row with transitiveCount := row.transitiveCount + 1 } ∈
      (added tables grpId prinId).transitiveGroupMembers := by
    apply List.mem_append_left
    exact mem_bumped.mpr ⟨row, member, (if_pos affected).symm⟩
  have same := count_unique consistent after graph member updated rfl
  simp at same

/-- Removing an indirect member counts down paths that are still there. -/
theorem not_consistent_removed
    (consistent : Consistent tables)
    (absent : (⟨grpId, prinId⟩ : GroupMember) ∉ tables.groupMembers)
    {row : TransitiveGroupMember}
    (member : row ∈ tables.transitiveGroupMembers)
    (affected : row.key ∈
      affectedPairs tables.transitiveGroupMembers grpId prinId) :
    ¬ Consistent ⟨(dbmsRemPrinFrmGrp tables grpId prinId).groupMembers,
      remaining tables.transitiveGroupMembers grpId prinId⟩ := by
  rw [dbmsRemPrinFrmGrp_of_notMem absent]
  intro after
  rcases after.complete _ _ (consistent.paths_nonempty member) with
    ⟨kept, keptMember, key⟩
  have same := count_unique consistent after rfl member keptMember key
  rcases mem_bumped.mp (List.mem_filter.mp keptMember).1 with
    ⟨old, oldMember, rfl⟩
  have oldKey : old.key = row.key := by
    split at key
    · exact key
    · exact key
  rcases consistent.row_eq_of_key_eq oldMember member oldKey with rfl
  rw [if_pos affected] at same
  have less : old.transitiveCount - 1 = old.transitiveCount := same
  omega

/-- A call keeps a consistent table consistent iff it keeps the counts. -/
theorem after_consistent_iff
    (consistent : Consistent tables) (call : Call) :
    Consistent (call.after schema tables) ↔ KeepsCounts schema tables call := by
  cases call with
  | add grpId prinId =>
      by_cases keeps : KeepsCounts schema tables (.add grpId prinId)
      · refine iff_of_true ?_ keeps
        rw [Call.after]
        cases outcome : (Call.add grpId prinId).run schema tables with
        | error failure => exact consistent
        | ok result =>
            rcases add_eq_ok consistent outcome with
              ⟨forward, -, noClash, rfl⟩
            exact consistent.add noClash (keeps.fresh consistent outcome)
              forward
      · refine iff_of_false ?_ keeps
        simp only [KeepsCounts, not_or, not_not] at keeps
        rcases keeps with ⟨present, base, noClash⟩
        have success : (Call.add grpId prinId).run schema tables =
            .ok (added tables grpId prinId) :=
          (add_eq_ok_iff consistent fun indexed => (base indexed).elim).mpr
            ⟨forward_of_present consistent present,
              fun indexed => (base indexed).elim, noClash, rfl⟩
        rw [Call.after, success]
        exact not_consistent_added consistent present
  | rem grpId prinId =>
      by_cases clash : CountsClash tables grpId prinId
      · refine iff_of_true ?_ (Or.inr (Or.inr clash))
        rw [Call.after]
        cases outcome : (Call.rem grpId prinId).run schema tables with
        | error failure => exact consistent
        | ok result =>
            exact (((sabridgeRemPrinFrmGrp_eq_ok consistent).mp
              outcome).1 clash).elim
      · have success : (Call.rem grpId prinId).run schema tables = .ok _ :=
          (sabridgeRemPrinFrmGrp_eq_ok consistent).mpr ⟨clash, rfl⟩
        rw [Call.after, success, KeepsCounts]
        by_cases present :
            (⟨grpId, prinId⟩ : GroupMember) ∈ tables.groupMembers
        · exact iff_of_true (consistent.rem clash present) (Or.inl present)
        · by_cases unaffected : ∀ row ∈ tables.transitiveGroupMembers,
              row.key ∉
                affectedPairs tables.transitiveGroupMembers grpId prinId
          · exact iff_of_true
              (consistent.rem_of_unaffected present unaffected)
              (Or.inr (Or.inl unaffected))
          · push Not at unaffected
            rcases unaffected with ⟨row, member, affected⟩
            refine iff_of_false
              (not_consistent_removed consistent present member affected) ?_
            rintro (direct | unaffected | clashes)
            · exact present direct
            · exact unaffected row member affected
            · exact clash clashes

/--
Every state of a run is consistent iff every call of the run keeps the
counts: none succeeds in removing an indirect member with affected pairs, or
in adding a direct member once more.
-/
theorem run_consistent_iff
    (schema : Schema) (start : GroupTables) (calls : List Call)
    (consistent : Consistent start) :
    Runs.Throughout (Call.after schema) Consistent start calls ↔
      Runs.Guarded (Call.after schema) (KeepsCounts schema) start calls :=
  Runs.throughout_iff_guarded consistent fun _ call before =>
    after_consistent_iff before call

theorem consistent_empty : Consistent ⟨[], []⟩ where
  acyclic := by
    intro vertex
    rw [Set.eq_empty_iff_forall_notMem]
    rintro arrows ⟨trail, nonempty⟩
    cases arrows with
    | nil => exact nonempty rfl
    | cons head tail => exact List.not_mem_nil trail.1
  oneRow := List.nodup_nil
  count := by simp
  complete := by
    intro groupId memberId path
    rcases Multigraph.paths_nonempty_iff.mp path with ⟨arrow, present, -⟩
    exact (List.not_mem_nil present).elim

theorem run_consistent_chain :
    Runs.Throughout (Call.after .base) Consistent ⟨[], []⟩
      [.add 1 2, .add 2 3, .rem 1 2] :=
  (run_consistent_iff .base ⟨[], []⟩ _ consistent_empty).mpr
    ⟨Or.inl (by decide), Or.inl (by decide), Or.inl (by decide), trivial⟩

/-- Removing `3` from `1` when it is a member of a member only. -/
theorem run_not_consistent :
    ¬ ∀ (schema : Schema) (start : GroupTables) (calls : List Call),
      Consistent start →
        Runs.Throughout (Call.after schema) Consistent start calls := by
  intro always
  have last : Consistent
      ⟨[⟨1, 2⟩, ⟨2, 3⟩], [⟨1, 2, 1⟩, ⟨2, 3, 1⟩]⟩ :=
    (always .base ⟨[], []⟩ [.add 1 2, .add 2 3, .rem 1 3]
      consistent_empty).2.2.2
  rcases last.complete 1 3 ⟨[⟨1, 2⟩, ⟨2, 3⟩], by simp, by simp⟩ with
    ⟨row, member, key⟩
  revert key
  revert row
  decide

/-! ## The law of additions -/

/-- The additions that are to be refused. -/
def Refused (tables : GroupTables) (grpId prinId : Id) : Prop :=
  (⟨grpId, prinId⟩ : GroupMember) ∈ tables.groupMembers ∨
    prinId = grpId ∨
    ∃ row ∈ tables.transitiveGroupMembers, row.key = (prinId, grpId)

/-- An addition fails without effect iff it is to be refused. -/
def AddLaw (schema : Schema) (tables : GroupTables)
    (grpId prinId : Id) : Prop :=
  ((∃ failure,
      (Call.add grpId prinId).run schema tables = .error failure) ∧
        (Call.add grpId prinId).after schema tables = tables ↔
      Refused tables grpId prinId) ∧
    (¬ Refused tables grpId prinId →
      ∃ result, (Call.add grpId prinId).run schema tables = .ok result ∧
        result.groupMembers = tables.groupMembers ++ [⟨grpId, prinId⟩])

/--
The additions that follow the law: a direct member is refused by the unique
key or by a clash of the counts, and no clash refuses a legal addition.
-/
def AddLawKept (schema : Schema) (tables : GroupTables)
    (grpId prinId : Id) : Prop :=
  ((⟨grpId, prinId⟩ : GroupMember) ∈ tables.groupMembers →
      schema = .indexed ∨ CountsClash tables grpId prinId) ∧
    (¬ Refused tables grpId prinId → ¬ CountsClash tables grpId prinId)

/-- A call fails or succeeds, and leaves the tables alone when it fails. -/
theorem failure_iff
    {call : Call} :
    (∃ failure, call.run schema tables = .error failure) ∧
        call.after schema tables = tables ↔
      ∀ result, call.run schema tables ≠ .ok result := by
  cases outcome : call.run schema tables with
  | error failure => simp [Call.after, outcome]
  | ok result => simp

theorem refused_iff
    (consistent : Consistent tables) :
    Refused tables grpId prinId ↔
      (⟨grpId, prinId⟩ : GroupMember) ∈ tables.groupMembers ∨
        (membership tables).Reaches prinId grpId := by
  rw [Refused, consistent.reaches_iff]

/-- When the law holds of one addition to a consistent table. -/
theorem addLaw_iff
    (consistent : Consistent tables)
    (nodup : tables.groupMembers.Nodup) :
    AddLaw schema tables grpId prinId ↔
      AddLawKept schema tables grpId prinId := by
  have succeeds : ∀ result,
      (Call.add grpId prinId).run schema tables = .ok result ↔ _ :=
    fun result => add_eq_ok_iff consistent fun _ => nodup
  rw [AddLaw, failure_iff, AddLawKept]
  by_cases present : (⟨grpId, prinId⟩ : GroupMember) ∈ tables.groupMembers
  · have refused : Refused tables grpId prinId := Or.inl present
    have forward := forward_of_present consistent present
    have outcome : (∀ result,
        (Call.add grpId prinId).run schema tables ≠ .ok result) ↔
          schema = .indexed ∨ CountsClash tables grpId prinId := by
      constructor
      · intro fails
        by_contra kept
        rw [not_or] at kept
        exact fails _ ((succeeds _).mpr ⟨forward,
          fun indexed => (kept.1 indexed).elim, kept.2, rfl⟩)
      · rintro refusal result success
        rcases (succeeds _).mp success with ⟨-, absent, noClash, -⟩
        rcases refusal with indexed | clash
        · exact absent indexed present
        · exact noClash clash
    simp only [refused, present, outcome, iff_true, not_true_eq_false,
      false_implies, and_true, true_implies]
  · by_cases leadsBack : (membership tables).Reaches prinId grpId
    · have refused : Refused tables grpId prinId :=
        (refused_iff consistent).mpr (Or.inr leadsBack)
      have fails : ∀ result,
          (Call.add grpId prinId).run schema tables ≠ .ok result :=
        fun result success => ((succeeds _).mp success).1 leadsBack
      simp only [refused, present, iff_true, not_true_eq_false,
        false_implies, and_true]
      exact fails
    · have legal : ¬ Refused tables grpId prinId := by
        rw [refused_iff consistent, not_or]
        exact ⟨present, leadsBack⟩
      simp only [legal, present, iff_false, not_false_eq_true, true_implies,
        false_implies, true_and]
      constructor
      · rintro ⟨-, result, success, -⟩
        exact ((succeeds _).mp success).2.2.1
      · intro noClash
        have success := (succeeds _).mpr
          ⟨leadsBack, fun _ => present, noClash, rfl⟩
        exact ⟨fun fails => fails _ success, _, success, rfl⟩

/-- A call that keeps the counts keeps the direct table free of duplicates. -/
theorem KeepsCounts.nodup
    {call : Call}
    (keeps : KeepsCounts schema tables call)
    (consistent : Consistent tables)
    (nodup : tables.groupMembers.Nodup) :
    (call.after schema tables).groupMembers.Nodup := by
  rw [Call.after]
  cases outcome : call.run schema tables with
  | error failure => exact nodup
  | ok result =>
      cases call with
      | add grpId prinId =>
          have fresh := keeps.fresh consistent outcome
          rcases add_eq_ok consistent outcome with ⟨-, -, -, rfl⟩
          exact List.nodup_append.mpr ⟨nodup, List.nodup_singleton _,
            fun row present other single equal => fresh
              (List.mem_singleton.mp single ▸ equal ▸ present)⟩
      | rem grpId prinId =>
          rcases (sabridgeRemPrinFrmGrp_eq_ok consistent).mp outcome with
            ⟨-, rfl⟩
          exact nodup.filter _

/--
In every state of a run whose calls keep the counts the direct table is a
duplicate-free acyclic graph, and an addition follows the law iff it is
neither a repetition that the unique key and the counts let through nor a
legal addition whose counts clash.
-/
theorem run_addLaw_iff
    (schema : Schema) (start : GroupTables) (calls : List Call)
    (consistent : Consistent start)
    (nodup : start.groupMembers.Nodup)
    (guarded : Runs.Guarded (Call.after schema) (KeepsCounts schema)
      start calls) :
    Runs.Throughout (Call.after schema)
      (fun tables =>
        tables.groupMembers.Nodup ∧ (membership tables).Acyclic ∧
          ∀ grpId prinId, AddLaw schema tables grpId prinId ↔
            AddLawKept schema tables grpId prinId)
      start calls := by
  have invariant : Runs.Throughout (Call.after schema)
      (fun tables => Consistent tables ∧ tables.groupMembers.Nodup)
      start calls := by
    apply guarded.throughout ⟨consistent, nodup⟩
    rintro tables call ⟨consistent, nodup⟩ keeps
    exact ⟨(after_consistent_iff consistent call).mpr keeps,
      keeps.nodup consistent nodup⟩
  apply invariant.imp
  rintro tables ⟨consistent, nodup⟩
  exact ⟨nodup, consistent.acyclic, fun _ _ => addLaw_iff consistent nodup⟩

theorem run_addLaw_chain :
    Runs.Throughout (Call.after .base)
      (fun tables =>
        tables.groupMembers.Nodup ∧ (membership tables).Acyclic ∧
          ∀ grpId prinId, AddLaw .base tables grpId prinId ↔
            AddLawKept .base tables grpId prinId)
      ⟨[], []⟩ [.add 1 2, .add 2 3, .rem 1 2] :=
  run_addLaw_iff .base ⟨[], []⟩ _ consistent_empty List.nodup_nil
    ⟨Or.inl (by decide), Or.inl (by decide), Or.inl (by decide), trivial⟩

/--
Without unique keys a member is added twice; with them, `5` cannot be added
to `3` while `1` has both and `3` has a second parent.
-/
theorem run_not_addLaw :
    (¬ ∀ (start : GroupTables) (calls : List Call),
      Consistent start → start.groupMembers.Nodup →
        Runs.Throughout (Call.after .base)
          (fun tables =>
            tables.groupMembers.Nodup ∧ (membership tables).Acyclic ∧
              ∀ grpId prinId, AddLaw .base tables grpId prinId)
          start calls) ∧
    ¬ ∀ (start : GroupTables) (calls : List Call),
      Consistent start → start.groupMembers.Nodup →
        Runs.Throughout (Call.after .indexed)
          (fun tables =>
            tables.groupMembers.Nodup ∧ (membership tables).Acyclic ∧
              ∀ grpId prinId, AddLaw .indexed tables grpId prinId)
          start calls := by
  constructor
  · intro always
    have last := (always ⟨[], []⟩ [.add 1 2, .add 1 2]
      consistent_empty List.nodup_nil).2.2
    have duplicate : ¬ (((Call.add 1 2).after .base
        ((Call.add 1 2).after .base ⟨[], []⟩)).groupMembers).Nodup := by
      decide
    exact duplicate last.1
  · intro always
    have last := (always ⟨[], []⟩ [.add 1 3, .add 2 3, .add 1 5]
      consistent_empty List.nodup_nil).2.2.2.2.2 3 5
    rcases last.2 (by rw [Refused]; decide) with ⟨result, success, -⟩
    have failure : (Call.add 3 5).run .indexed
        ((Call.add 1 5).after .indexed ((Call.add 2 3).after .indexed
          ((Call.add 1 3).after .indexed ⟨[], []⟩))) =
        .error ⟨500, "Couldn't add principal to group"⟩ := by
      decide
    rw [failure] at success
    cases success

end Limestone.GroupRuns
