import Mathlib.Data.List.Induction
import Mathlib.Tactic.Common

/-!
# Runs that can be rolled back

Every step of a run keeps a context.  A rollback goes through the contexts
from the last to the first.  What it does is said of views of the state.
-/

namespace Limestone.Library.Rollback

variable {State Op Context View : Type*} {exec : State → Op → State}
  {context : State → Op → Context} {undo : State → Context → State}
  {view : State → View} {state final : State} {op : Op}
  {ops before behind : List Op}

/-! ## The last operation of a kind -/

/-- The last operation that matters. -/
def last (matters : Op → Bool) (ops : List Op) : Option Op :=
  (ops.filter matters).getLast?

variable {matters : Op → Bool}

theorem last_concat (op : Op) :
    last matters (ops ++ [op]) =
      if matters op then some op else last matters ops := by
  rw [last, List.filter_append]
  by_cases here : matters op = true
  · rw [List.filter_cons_of_pos here, List.filter_nil,
      List.getLast?_concat, if_pos here]
  · rw [List.filter_cons_of_neg here, List.filter_nil, List.append_nil,
      if_neg here, last]

theorem last_spec (found : last matters ops = some op) :
    op ∈ ops ∧ matters op = true :=
  List.mem_filter.mp (List.mem_of_getLast? found)

theorem last_eq_none :
    last matters ops = none ↔ ∀ op ∈ ops, matters op = false := by
  rw [last, List.getLast?_eq_none_iff, List.filter_eq_nil_iff]
  exact forall₂_congr fun _ _ => Iff.of_eq (Bool.not_eq_true _)

/-- The last of a kind is the last of a narrower kind that it is of. -/
theorem last_of_last
    {narrower : Op → Bool}
    (narrow : ∀ op, narrower op = true → matters op = true)
    (found : last matters ops = some op)
    (here : narrower op = true) :
    last narrower ops = some op := by
  induction ops using List.reverseRecOn with
  | nil => cases found
  | append_singleton ops final induction =>
      rw [last_concat] at found ⊢
      by_cases counts : matters final = true
      · rw [if_pos counts] at found
        rcases Option.some.inj found with rfl
        exact if_pos here
      · rw [if_neg counts] at found
        rw [if_neg (mt (narrow final) counts)]
        exact induction found

/-- The first operation that matters. -/
theorem exists_first
    (member : op ∈ ops)
    (here : matters op = true) :
    ∃ before first behind, ops = before ++ first :: behind ∧
      matters first = true ∧ ∀ other ∈ before, matters other = false := by
  have found : (ops.find? matters).isSome = true :=
    List.find?_isSome.mpr ⟨op, member, here⟩
  rcases Option.isSome_iff_exists.mp found with ⟨first, found⟩
  rcases List.find?_eq_some_iff_append.mp found with
    ⟨counts, before, behind, split, others⟩
  refine ⟨before, first, behind, split, counts, fun other early => ?_⟩
  simpa using others other early

/-! ## Runs -/

/-- Operations that leave the view leave it in a run. -/
theorem foldl_of_idle
    (idle : ∀ op ∈ ops, ∀ state, view (exec state op) = view state)
    (state : State) :
    view (ops.foldl exec state) = view state := by
  induction ops generalizing state with
  | nil => rfl
  | cons op ops induction =>
      rw [List.forall_mem_cons] at idle
      rw [List.foldl_cons, induction idle.2, idle.1]

/-- The last operation that matters decides the view. -/
theorem foldl_of_last
    (idle : ∀ state op, matters op = false →
      view (exec state op) = view state)
    (found : last matters ops = some op) :
    ∃ before, before ⊆ ops ∧
      view (ops.foldl exec state) =
        view (exec (before.foldl exec state) op) := by
  induction ops using List.reverseRecOn with
  | nil => cases found
  | append_singleton ops final induction =>
      rw [last_concat] at found
      rw [List.foldl_append, List.foldl_cons, List.foldl_nil]
      by_cases counts : matters final = true
      · rw [if_pos counts] at found
        rcases Option.some.inj found with rfl
        exact ⟨ops, List.subset_append_left ops _, rfl⟩
      · rw [if_neg counts] at found
        rcases induction found with ⟨before, inside, decided⟩
        rw [idle _ final (Bool.eq_false_iff.mpr counts)]
        have within : before ⊆ ops ++ [final] := fun op member =>
          List.mem_append_left _ (inside member)
        exact ⟨before, within, decided⟩

/-! ## Contexts -/

variable (exec context) in
/-- What the steps of a run keep. -/
def contexts : State → List Op → List Context
  | _, [] => []
  | state, op :: ops => context state op :: contexts (exec state op) ops

theorem contexts_append :
    contexts exec context state (before ++ behind) =
      contexts exec context state before ++
        contexts exec context (before.foldl exec state) behind := by
  induction before generalizing state with
  | nil => rfl
  | cons op before induction =>
      rw [List.cons_append, contexts, induction]
      rfl

theorem mem_contexts {info : Context} :
    info ∈ contexts exec context state ops ↔
      ∃ before op behind, ops = before ++ op :: behind ∧
        context (before.foldl exec state) op = info := by
  constructor
  · intro member
    induction ops generalizing state with
    | nil => cases member
    | cons op ops induction =>
        rcases List.mem_cons.mp member with rfl | later
        · exact ⟨[], op, ops, rfl, rfl⟩
        · rcases induction later with ⟨before, here, behind, rfl, same⟩
          exact ⟨op :: before, here, behind, rfl, same⟩
  · rintro ⟨before, op, behind, rfl, rfl⟩
    rw [contexts_append]
    exact List.mem_append_right _ List.mem_cons_self

/-! ## Rollbacks -/

variable (undo) in
/-- The contexts are undone in the reverse order. -/
def rollBack (state : State) (infos : List Context) : State :=
  infos.foldr (fun info after => undo after info) state

/-- A view that no context changes. -/
theorem rollBack_keeps
    {infos : List Context}
    (keeps : ∀ info ∈ infos, ∀ after, view (undo after info) = view after) :
    view (rollBack undo final infos) = view final := by
  induction infos with
  | nil => rfl
  | cons info infos induction =>
      rw [List.forall_mem_cons] at keeps
      rw [rollBack, List.foldr_cons, keeps.1]
      exact induction keeps.2

/-- If every context undoes its own step, the rollback undoes the run. -/
theorem rollBack_undoes
    (undoes : ∀ state op after, view after = view (exec state op) →
      view (undo after (context state op)) = view state)
    (same : view final = view (ops.foldl exec state)) :
    view (rollBack undo final (contexts exec context state ops)) =
      view state := by
  induction ops generalizing state with
  | nil => exact same
  | cons op ops induction => exact undoes state op _ (induction same)

/-- The first context that changes the view is undone last. -/
theorem rollBack_first
    (idle : ∀ op ∈ before, ∀ state after,
      view (undo after (context state op)) = view after) :
    ∃ after, view (rollBack undo final
        (contexts exec context state (before ++ op :: behind))) =
      view (undo (rollBack undo final after)
        (context (before.foldl exec state) op)) := by
  refine ⟨contexts exec context (exec (before.foldl exec state) op) behind,
    ?_⟩
  rw [contexts_append, rollBack, List.foldr_append]
  apply rollBack_keeps
  intro info member after
  rcases mem_contexts.mp member with ⟨earlier, here, rest, rfl, rfl⟩
  exact idle here (List.mem_append_right _ List.mem_cons_self) _ after

end Limestone.Library.Rollback
