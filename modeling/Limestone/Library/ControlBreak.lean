import Limestone.Library.OrderBy
import Mathlib.Data.List.SplitBy

/-!
# Control breaks

A loop over sorted rows collects consecutive rows with one key and begins
anew where the key changes.  When equal keys sort together it collects all
rows of a key at once, in the order of the keys.

The loop may compare keys otherwise than by equality.  It collects the same
runs if the comparison tells the keys of adjacent rows apart.
-/

namespace Limestone.Library.ControlBreak

variable {Row Key : Type*} (key : Row → Key)

/-- Rows with one key are sorted together. -/
structure SortedTogether {Order : Type*} [LinearOrder Order]
    (sortKey : Row → Order) (rows : List Row) : Prop where
  sorted : rows.Pairwise fun first second => sortKey first ≤ sortKey second
  together : ∀ row ∈ rows, ∀ other ∈ rows,
    key row = key other ↔ sortKey row = sortKey other

section Sorted

variable {Order : Type*} [LinearOrder Order] {key} {sortKey : Row → Order}
  {rows : List Row}

theorem SortedTogether.sublist
    {other : List Row}
    (sorted : SortedTogether key sortKey rows)
    (sublist : List.Sublist other rows) :
    SortedTogether key sortKey other where
  sorted := sorted.sorted.sublist sublist
  together := fun first member second secondMember =>
    sorted.together first (sublist.subset member) second
      (sublist.subset secondMember)

/-- Behind another key a key does not come again. -/
theorem SortedTogether.key_ne
    {first second : Row}
    (sorted : SortedTogether key sortKey (first :: second :: rows))
    (breaks : key first ≠ key second) :
    ∀ other ∈ second :: rows, key other ≠ key first := by
  intro other member same
  have inAll : other ∈ first :: second :: rows :=
    List.mem_cons_of_mem _ member
  have equal := (sorted.together other inAll first (by simp)).mp same
  have least := List.rel_of_pairwise_cons sorted.sorted
    (List.mem_cons_self (l := rows))
  have later : sortKey second ≤ sortKey other := by
    rcases List.mem_cons.mp member with rfl | further
    · exact le_rfl
    · exact List.rel_of_pairwise_cons sorted.sorted.tail further
  rw [equal] at later
  exact breaks ((sorted.together first (by simp) second (by simp)).mpr
    (le_antisymm least later))

end Sorted

variable [DecidableEq Key]

/-- The runs of rows with one key, `run` being the one that has begun. -/
def runsFrom : List Row → List Row → List (List Row)
  | run, [] => [run]
  | run, row :: rows =>
      if run.head?.map key = some (key row) then runsFrom (run ++ [row]) rows
      else run :: runsFrom [row] rows

/-- The runs of rows with one key. -/
def runs : List Row → List (List Row)
  | [] => []
  | row :: rows => runsFrom key [row] rows

section Runs

variable {Order : Type*} [LinearOrder Order] {key} {sortKey : Row → Order}
  {rows : List Row} {row : Row}

/-- The first run takes all rows of its key. -/
theorem runsFrom_eq
    {run : List Row}
    (begins : run.head? = some row)
    (sorted : SortedTogether key sortKey (row :: rows)) :
    runsFrom key run rows =
      (run ++ rows.filter fun other => key other = key row) ::
        runs key (rows.filter fun other => key other ≠ key row) := by
  induction rows generalizing run with
  | nil =>
      rw [runsFrom, List.filter_nil, List.append_nil]
      rfl
  | cons next rows induction =>
      rw [runsFrom, begins, Option.map_some]
      by_cases same : key next = key row
      · rw [if_pos (congrArg some same.symm),
          List.filter_cons_of_pos (by simpa using same),
          List.filter_cons_of_neg (by simpa using same)]
        have shorter : SortedTogether key sortKey (row :: rows) :=
          sorted.sublist ((List.sublist_cons_self next rows).cons_cons row)
        rw [induction _ shorter, List.append_assoc, List.singleton_append]
        rw [List.head?_append, begins]
        rfl
      · have others := sorted.key_ne (Ne.symm same)
        have noneLeft : (next :: rows).filter
            (fun other => key other = key row) = [] := by
          apply List.filter_eq_nil_iff.mpr
          intro other member
          simpa using others other member
        have allLeft : (next :: rows).filter
            (fun other => key other ≠ key row) = next :: rows := by
          apply List.filter_eq_self.mpr
          intro other member
          simpa using others other member
        rw [if_neg (fun equal => same (Option.some.inj equal).symm), noneLeft,
          allLeft, List.append_nil]
        rfl

theorem distinctOn_filter (keep : Key → Bool) (rows : List Row) :
    (Sql.distinctOn key rows).filter (fun row => keep (key row)) =
      Sql.distinctOn key (rows.filter fun row => keep (key row)) := by
  induction rows with
  | nil => rfl
  | cons head tail induction =>
      rw [Sql.distinctOn]
      by_cases kept : keep (key head) = true
      · simp only [List.filter_cons, kept, if_true]
        rw [Sql.distinctOn, ← induction, List.filter_filter,
          List.filter_filter]
        congr 1
        apply List.filter_congr
        intro row _
        exact Bool.and_comm _ _
      · simp only [List.filter_cons, kept, Bool.false_eq_true, if_false]
        rw [← induction, List.filter_filter]
        apply List.filter_congr
        intro row _
        by_cases same : key row = key head
        · rw [same]
          simpa using kept
        · simp [same]

/-- A loop with control breaks collects the rows of every key. -/
theorem runs_eq (sorted : SortedTogether key sortKey rows) :
    runs key rows =
      (Sql.distinctOn key rows).map fun head =>
        rows.filter fun row => key row = key head := by
  have bounded : ∀ size, ∀ rows : List Row, rows.length ≤ size →
      SortedTogether key sortKey rows →
        runs key rows =
          (Sql.distinctOn key rows).map fun head =>
            rows.filter fun row => key row = key head := by
    intro size
    induction size with
    | zero =>
        intro rows short _
        rw [List.length_eq_zero_iff.mp (Nat.le_zero.mp short)]
        rfl
    | succ size induction =>
        intro rows short sorted
        cases rows with
        | nil => rfl
        | cons row rows =>
            have shorter : (rows.filter fun other =>
                key other ≠ key row).length ≤ size :=
              (List.length_filter_le _ _).trans (Nat.le_of_succ_le_succ short)
            have others := induction _ shorter
              (sorted.sublist (List.filter_sublist.cons row))
            have later : Sql.distinctOn key (rows.filter fun other =>
                key other ≠ key row) =
                  (Sql.distinctOn key rows).filter fun other =>
                    !decide (key other = key row) := by
              rw [distinctOn_filter fun other => !decide (other = key row)]
              simp only [ne_eq, decide_not]
            rw [runs, runsFrom_eq rfl sorted, others, Sql.distinctOn,
              List.map_cons, ← later]
            congr 1
            · rw [List.filter_cons_of_pos (by simp)]
              rfl
            · apply List.map_congr_left
              intro head member
              have kept := (List.mem_filter.mp
                (Sql.mem_of_mem_distinctOn member)).2
              have breaks : key head ≠ key row := of_decide_eq_true kept
              rw [List.filter_cons_of_neg (by simpa using Ne.symm breaks),
                List.filter_filter]
              apply List.filter_congr
              intro other _
              by_cases same : key other = key head
              · simp [same, breaks]
              · simp [same]
  exact bounded rows.length rows le_rfl sorted

end Runs

/-! ## The runs of a list -/

section Maximal

variable {key} {rows : List Row}

theorem isChain_of_alike
    {first : Row} {run : List Row}
    (alike : ∀ row ∈ run, key row = key first) :
    run.IsChain fun row next => decide (key row = key next) = true := by
  apply List.Pairwise.isChain
  apply List.pairwise_of_forall_mem_list
  intro row member next nextMember
  rw [alike row member, alike next nextMember]
  exact decide_eq_true rfl

theorem runsFrom_eq_splitBy
    {first : Row} {run : List Row}
    (begins : run.head? = some first)
    (alike : ∀ row ∈ run, key row = key first) :
    runsFrom key run rows =
      (run ++ rows).splitBy fun row next => decide (key row = key next) := by
  have nonempty : run ≠ [] := by
    rintro rfl
    cases begins
  induction rows generalizing first run with
  | nil =>
      rw [runsFrom, List.append_nil,
        List.splitBy_of_isChain nonempty (isChain_of_alike alike)]
  | cons row rows induction =>
      rw [runsFrom, begins, Option.map_some]
      by_cases same : key row = key first
      · have grows : ∀ other ∈ run ++ [row], key other = key first := by
          intro other member
          rcases List.mem_append.mp member with old | new
          · exact alike other old
          · rw [List.mem_singleton.mp new]
            exact same
        have head : (run ++ [row]).head? = some first := by
          rw [List.head?_append, begins]
          rfl
        rw [if_pos (congrArg some same.symm),
          induction head grows (List.append_ne_nil_of_right_ne_nil run nofun),
          List.append_assoc]
        rfl
      · have single : ∀ other ∈ [row], key other = key row := by
          intro other member
          rw [List.mem_singleton.mp member]
        have breaks : ∀ last ∈ run.getLast?,
            decide (key last = key row) = false := by
          intro last isLast
          have member := List.mem_of_getLast? isLast
          rw [alike last member]
          exact decide_eq_false (Ne.symm same)
        have others : runsFrom key [row] rows =
            (row :: rows).splitBy fun row next =>
              decide (key row = key next) :=
          induction rfl single (List.cons_ne_nil _ _)
        rw [if_neg (fun equal => same (Option.some.inj equal).symm), others,
          List.splitBy_append_cons rows breaks,
          List.splitBy_of_isChain nonempty (isChain_of_alike alike)]
        rfl

/-- The runs are the longest pieces of adjacent rows with one key. -/
theorem runs_eq_splitBy (rows : List Row) :
    runs key rows =
      rows.splitBy fun row next => decide (key row = key next) := by
  cases rows with
  | nil => rfl
  | cons row rows =>
      apply runsFrom_eq_splitBy rfl
      intro other member
      rw [List.mem_singleton.mp member]

end Maximal

/-! ## Other comparisons -/

section Compared

variable (same : Key → Key → Bool)

/-- What a loop collects that compares a row with the first one of its run. -/
def groupsFrom (first : Row) (rest : List Row) : List Row → List (List Row)
  | [] => [first :: rest]
  | row :: rows =>
      if same (key row) (key first) then
        groupsFrom first (rest ++ [row]) rows
      else (first :: rest) :: groupsFrom row [] rows

def groups : List Row → List (List Row)
  | [] => []
  | row :: rows => groupsFrom key same row [] rows

/-- The comparison tells the keys of adjacent rows apart, if they differ. -/
def TellsApart (rows : List Row) : Prop :=
  rows.IsChain fun row next =>
    key row ≠ key next → same (key next) (key row) = false

variable {key same} {rows rest : List Row} {first last : Row}

theorem groupsFrom_eq_runsFrom
    (reflexive : ∀ value, same value value = true)
    (alike : key last = key first)
    (apart : TellsApart key same (last :: rows)) :
    groupsFrom key same first rest rows =
      runsFrom key (first :: rest) rows := by
  induction rows generalizing first rest last with
  | nil => rfl
  | cons row rows induction =>
      rcases List.isChain_cons_cons.mp apart with ⟨here, later⟩
      rw [groupsFrom, runsFrom, List.head?_cons, Option.map_some]
      by_cases equal : key row = key first
      · rw [if_pos (by rw [equal]; exact reflexive _),
          if_pos (congrArg some equal.symm)]
        exact induction equal later
      · have breaks : same (key row) (key first) = false := by
          rw [← alike]
          exact here fun equals => equal (equals.symm.trans alike)
        rw [breaks, if_neg Bool.false_ne_true,
          if_neg (fun equals => equal (Option.some.inj equals).symm),
          induction rfl later]

/-- A loop never collects more groups than there are runs. -/
theorem length_groupsFrom_le
    {run : List Row}
    (reflexive : ∀ value, same value value = true)
    (alike : same (key last) (key first) = true)
    (begins : run.head?.map key = some (key last)) :
    (groupsFrom key same first rest rows).length ≤
      (runsFrom key run rows).length := by
  induction rows generalizing first rest last run with
  | nil => exact Nat.le_refl 1
  | cons row rows induction =>
      rw [groupsFrom, runsFrom, begins]
      by_cases equal : key last = key row
      · have grows : (run ++ [row]).head?.map key = some (key last) := by
          cases run with
          | nil => cases begins
          | cons head tail => exact begins
        rw [← equal, alike, if_pos rfl, if_pos rfl]
        exact induction alike grows
      · rw [if_neg fun equals => equal (Option.some.inj equals)]
        by_cases merged : same (key row) (key first) = true
        · rw [if_pos merged]
          exact Nat.le_succ_of_le (induction merged rfl)
        · rw [if_neg merged]
          exact Nat.succ_le_succ (induction (reflexive _) rfl)

theorem tellsApart_of_length_eq
    (reflexive : ∀ value, same value value = true)
    (alike : key last = key first)
    (lengths : (groupsFrom key same first rest rows).length =
      (runsFrom key (first :: rest) rows).length) :
    TellsApart key same (last :: rows) := by
  induction rows generalizing first rest last with
  | nil => exact List.isChain_singleton last
  | cons row rows induction =>
      rw [groupsFrom, runsFrom, List.head?_cons, Option.map_some] at lengths
      apply List.isChain_cons_cons.mpr
      by_cases equal : key row = key first
      · rw [if_pos (by rw [equal]; exact reflexive _),
          if_pos (congrArg some equal.symm)] at lengths
        exact ⟨fun differ => absurd (alike.trans equal.symm) differ,
          induction equal lengths⟩
      · rw [if_neg fun equals => equal (Option.some.inj equals).symm]
          at lengths
        by_cases merged : same (key row) (key first) = true
        · -- the run that has been missed is not made up for
          have fewer : (groupsFrom key same first (rest ++ [row]) rows).length ≤
              (runsFrom key [row] rows).length :=
            length_groupsFrom_le reflexive merged rfl
          rw [if_pos merged, List.length_cons] at lengths
          omega
        · rw [if_neg merged, List.length_cons, List.length_cons] at lengths
          refine ⟨?_, induction rfl (Nat.succ.inj lengths)⟩
          intro _
          rw [alike]
          exact Bool.eq_false_of_not_eq_true merged

theorem groups_eq_runs
    (reflexive : ∀ value, same value value = true)
    (apart : TellsApart key same rows) :
    groups key same rows = runs key rows := by
  cases rows with
  | nil => rfl
  | cons row rows => exact groupsFrom_eq_runsFrom reflexive rfl apart

/-- There are as many groups as runs if the comparison tells the keys apart. -/
theorem length_groups_eq_iff
    (reflexive : ∀ value, same value value = true) :
    (groups key same rows).length = (runs key rows).length ↔
      TellsApart key same rows := by
  constructor
  · intro lengths
    cases rows with
    | nil => exact List.isChain_nil
    | cons row rows => exact tellsApart_of_length_eq reflexive rfl lengths
  · intro apart
    rw [groups_eq_runs reflexive apart]

end Compared

end Limestone.Library.ControlBreak
